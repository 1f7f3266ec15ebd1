import NcnnUpscaler.Library.Covering
import NcnnUpscaler.Library.Raster
import Mathlib.Data.List.Nodup
import Mathlib.Data.List.TakeWhile

/-!
# Tiles

`tiling.hpp` and `tiling.cpp`: the tiles of an image, cutting one out of the
source, and blending an upscaled one into the output.  Sizes and coordinates are
unbounded integers, and the tile counts are exact ceilings, which `Tiling.Counts`
compares with the `float` arithmetic of the code.  Writes and reads of pixel memory
are block copies that fault outside their buffers.
-/

namespace NcnnUpscaler.Tiling

open Raster

/-- Pixel bytes, three for each pixel. -/
abbrev Rgb := List UInt8

/-- `image_io::ImagePixels`. -/
structure ImagePixels where
  width : Int
  height : Int
  channels : Int
  pixels : Rgb
  deriving DecidableEq, Repr

/-- The dimensions describe the buffer. -/
structure ImagePixels.WellFormed (image : ImagePixels) : Prop where
  width_nonneg : 0 ≤ image.width
  height_nonneg : 0 ≤ image.height
  size_eq : (image.pixels.length : Int) = image.width * image.height * 3

/-- `TilingConfig`. -/
structure TilingConfig where
  tileSize : Int := 512
  overlap : Int := 32
  scaleFactor : Int := 4
  enableTiling : Bool := true
  thresholdWidth : Int := 1000
  thresholdHeight : Int := 1000
  deriving DecidableEq, Repr

/-- `Tile`. -/
structure Tile where
  x : Int
  y : Int
  width : Int
  height : Int
  outputX : Int
  outputY : Int
  deriving DecidableEq, Repr

/-- How a call that does not return a result ends: it reports failure, or it
accesses memory outside a buffer. -/
inductive Stop where
  | failed
  | fault
  deriving DecidableEq, Repr

/-- `should_enable_tiling`. -/
def shouldEnableTiling (width height : Int) (config : TilingConfig) : Bool :=
  config.enableTiling &&
    (width > config.thresholdWidth || height > config.thresholdHeight)

/-! ## calculate_tiles -/

/-- `tile_step`. -/
def tileStep (config : TilingConfig) : Int := config.tileSize - config.overlap

/-- `tiles_x` and `tiles_y`, from the width and the height. -/
def tileCount (imageSize : Int) (config : TilingConfig) : Int :=
  max 1 (Covering.ceilDiv (max 0 (imageSize - config.overlap)) (tileStep config))

/-- The tile in column `tx` and row `ty`. -/
def tileAt (imageWidth imageHeight : Int) (config : TilingConfig) (tx ty : Nat) : Tile :=
  let x := tx * tileStep config
  let y := ty * tileStep config
  let effectiveX := if tx = 0 then 0 else x + config.overlap
  let effectiveY := if ty = 0 then 0 else y + config.overlap
  { x, y
    width := min config.tileSize (imageWidth - x)
    height := min config.tileSize (imageHeight - y)
    outputX := effectiveX * config.scaleFactor
    outputY := effectiveY * config.scaleFactor }

/-- `calculate_tiles`. -/
def calculateTiles (imageWidth imageHeight : Int) (config : TilingConfig) : List Tile :=
  (List.range (tileCount imageHeight config).toNat).flatMap fun ty =>
    (List.range (tileCount imageWidth config).toNat).map fun tx =>
      tileAt imageWidth imageHeight config tx ty

/-! ## Pixel memory -/

/-- A zeroed buffer of the given size.  A negative size is one no vector can
have, and the exception is caught as a failure. -/
def allocate (size : Int) : Except Stop Rgb :=
  if size < 0 then .error .failed else .ok (List.replicate size.toNat 0)

/-- Run block copies; one outside its buffers is a fault. -/
def copyRows (copies : List Copy) (dst src : Rgb) : Except Stop Rgb :=
  match runAll copies dst src with
  | some out => .ok out
  | none => .error .fault

/-! ## extract_tile -/

/-- The `memcpy` calls of `extract_tile`; the loop breaks at the first row below
the source. -/
def extractCopies (sourceWidth sourceHeight : Int) (tile : Tile) : List Copy :=
  ((List.range tile.height.toNat).takeWhile fun y : Nat => tile.y + y < sourceHeight).map
    fun y : Nat =>
      let sourceY := tile.y + y
      let copyWidth := min tile.width (sourceWidth - tile.x)
      { dst := (y * tile.width) * 3
        src := (sourceY * sourceWidth + tile.x) * 3
        len := copyWidth * 3 }

/-- `extract_tile`: the tile's pixels.  The empty buffer stands for a null
pointer. -/
def extractTile (sourceRgb : Rgb) (sourceWidth sourceHeight : Int) (tile : Tile) :
    Except Stop Rgb :=
  if sourceRgb = [] then
    .error .failed
  else
    match allocate (tile.width * tile.height * 3) with
    | .error stop => .error stop
    | .ok tileData => copyRows (extractCopies sourceWidth sourceHeight tile) tileData sourceRgb

/-! ## blend_tile -/

/-- The `memcpy` calls of `blend_tile`. -/
def blendCopies (tileWidth tileHeight : Int) (tile : Tile) (outputWidth outputHeight : Int) :
    List Copy :=
  let copyWidth := max 0 (min tileWidth (outputWidth - tile.outputX))
  let maxRows := max 0 (min tileHeight (outputHeight - tile.outputY))
  if copyWidth = 0 ∨ maxRows = 0 then
    []
  else
    (List.range maxRows.toNat).map fun y : Nat =>
      { dst := ((tile.outputY + y) * outputWidth + tile.outputX) * 3
        src := y * tileWidth * 3
        len := copyWidth * 3 }

/-- `blend_tile`: the output after the call. -/
def blendTile (tileRgb : Rgb) (tileWidth tileHeight : Int) (tile : Tile) (outputRgb : Rgb)
    (outputWidth outputHeight : Int) : Except Stop Rgb :=
  if tileRgb = [] ∨ outputRgb = [] then
    .error .failed
  else
    copyRows (blendCopies tileWidth tileHeight tile outputWidth outputHeight) outputRgb tileRgb

/-! ## Geometry of the tiles -/

/-- What the configuration must satisfy for the tiles to cover an image. -/
structure TilingConfig.Valid (config : TilingConfig) : Prop where
  overlap_nonneg : 0 ≤ config.overlap
  overlap_lt : config.overlap < config.tileSize
  scale_pos : 1 ≤ config.scaleFactor

/-- One dimension of an image under a valid configuration. -/
def axis {config : TilingConfig} (valid : config.Valid) {size : Int} (positive : 1 ≤ size) :
    Covering.Axis :=
  { size, tile := config.tileSize, overlap := config.overlap, size_pos := positive
    overlap_nonneg := valid.overlap_nonneg, overlap_lt := valid.overlap_lt }

/-- A tile of `calculate_tiles` is given by its column and its row. -/
theorem mem_calculateTiles {imageWidth imageHeight : Int} {config : TilingConfig} {tile : Tile} :
    tile ∈ calculateTiles imageWidth imageHeight config ↔
      ∃ tx ty : Nat, (tx : Int) < tileCount imageWidth config ∧
        (ty : Int) < tileCount imageHeight config ∧
        tile = tileAt imageWidth imageHeight config tx ty := by
  simp only [calculateTiles, List.mem_flatMap, List.mem_map, List.mem_range]
  constructor
  · intro made
    rcases made with ⟨ty, tyLt, tx, txLt, tileEq⟩
    exact ⟨tx, ty, by omega, by omega, tileEq.symm⟩
  · intro made
    rcases made with ⟨tx, ty, txLt, tyLt, tileEq⟩
    exact ⟨ty, by omega, tx, by omega, tileEq.symm⟩

/-- The tile is not empty and lies inside the image. -/
structure Tile.Inside (tile : Tile) (imageWidth imageHeight : Int) : Prop where
  x_nonneg : 0 ≤ tile.x
  y_nonneg : 0 ≤ tile.y
  width_pos : 1 ≤ tile.width
  height_pos : 1 ≤ tile.height
  right_le : tile.x + tile.width ≤ imageWidth
  bottom_le : tile.y + tile.height ≤ imageHeight

section Geometry

variable {imageWidth imageHeight : Int} {config : TilingConfig} (valid : config.Valid)
  (widthPos : 1 ≤ imageWidth) (heightPos : 1 ≤ imageHeight) (tx ty : Nat)

theorem tileAt_x :
    (tileAt imageWidth imageHeight config tx ty).x = (axis valid widthPos).start tx := rfl

theorem tileAt_y :
    (tileAt imageWidth imageHeight config tx ty).y = (axis valid heightPos).start ty := rfl

theorem tileAt_width :
    (tileAt imageWidth imageHeight config tx ty).width = (axis valid widthPos).extent tx := rfl

theorem tileAt_height :
    (tileAt imageWidth imageHeight config tx ty).height = (axis valid heightPos).extent ty := rfl

theorem tileAt_outputX :
    (tileAt imageWidth imageHeight config tx ty).outputX =
      (axis valid widthPos).keptFrom tx * config.scaleFactor := rfl

theorem tileAt_outputY :
    (tileAt imageWidth imageHeight config tx ty).outputY =
      (axis valid heightPos).keptFrom ty * config.scaleFactor := rfl

end Geometry

/-- Every tile of `calculate_tiles` is a nonempty part of the image. -/
theorem tileAt_inside {imageWidth imageHeight : Int} {config : TilingConfig}
    (valid : config.Valid) (widthPos : 1 ≤ imageWidth) (heightPos : 1 ≤ imageHeight)
    {tx ty : Nat} (txLt : (tx : Int) < tileCount imageWidth config)
    (tyLt : (ty : Int) < tileCount imageHeight config) :
    (tileAt imageWidth imageHeight config tx ty).Inside imageWidth imageHeight := by
  constructor
  · rw [tileAt_x valid widthPos]
    exact Covering.Axis.start_nonneg _ _
  · rw [tileAt_y valid heightPos]
    exact Covering.Axis.start_nonneg _ _
  · rw [tileAt_width valid widthPos]
    exact Covering.Axis.extent_pos _ txLt
  · rw [tileAt_height valid heightPos]
    exact Covering.Axis.extent_pos _ tyLt
  · rw [tileAt_x valid widthPos, tileAt_width valid widthPos]
    exact Covering.Axis.keptTo_le _ _
  · rw [tileAt_y valid heightPos, tileAt_height valid heightPos]
    exact Covering.Axis.keptTo_le _ _

/-- A tile determines its column and its row. -/
theorem tileAt_inj {imageWidth imageHeight : Int} {config : TilingConfig}
    (valid : config.Valid) (widthPos : 1 ≤ imageWidth) (heightPos : 1 ≤ imageHeight)
    {tx ty otherTx otherTy : Nat}
    (same : tileAt imageWidth imageHeight config tx ty =
      tileAt imageWidth imageHeight config otherTx otherTy) : tx = otherTx ∧ ty = otherTy := by
  have column := congrArg Tile.x same
  have row := congrArg Tile.y same
  rw [tileAt_x valid widthPos, tileAt_x valid widthPos] at column
  rw [tileAt_y valid heightPos, tileAt_y valid heightPos] at row
  exact ⟨Covering.Axis.start_inj _ column, Covering.Axis.start_inj _ row⟩

/-- No tile occurs twice. -/
theorem calculateTiles_nodup {imageWidth imageHeight : Int} {config : TilingConfig}
    (valid : config.Valid) (widthPos : 1 ≤ imageWidth) (heightPos : 1 ≤ imageHeight) :
    (calculateTiles imageWidth imageHeight config).Nodup := by
  rw [calculateTiles, List.nodup_flatMap]
  constructor
  · intro ty _
    apply List.Nodup.map _ List.nodup_range
    intro tx otherTx same
    exact (tileAt_inj valid widthPos heightPos same).1
  · apply List.Pairwise.imp _ List.nodup_range
    intro ty otherTy different tile inRow inOther
    rcases List.mem_map.mp inRow with ⟨tx, _, tileEq⟩
    rcases List.mem_map.mp inOther with ⟨otherTx, _, otherEq⟩
    exact different (tileAt_inj valid widthPos heightPos (tileEq.trans otherEq.symm)).2

/-- An image has at least one tile. -/
theorem calculateTiles_ne_nil {imageWidth imageHeight : Int} {config : TilingConfig} :
    calculateTiles imageWidth imageHeight config ≠ [] := by
  have first : tileAt imageWidth imageHeight config 0 0 ∈
      calculateTiles imageWidth imageHeight config := by
    refine mem_calculateTiles.mpr ⟨0, 0, ?_, ?_, rfl⟩
    · simp only [tileCount]
      omega
    · simp only [tileCount]
      omega
  exact List.ne_nil_of_mem first

/-! ## What the copies do -/

/-- Read a pixel of an image. -/
def ImagePixels.at (image : ImagePixels) (x y : Int) : Fin 3 → UInt8 :=
  pixel 3 image.width image.pixels x y

theorem allocate_ok {size : Int} (nonneg : 0 ≤ size) :
    ∃ buffer, allocate size = .ok buffer ∧ (buffer.length : Int) = size := by
  refine ⟨List.replicate size.toNat 0, if_neg (Int.not_lt.mpr nonneg), ?_⟩
  rw [List.length_replicate]
  exact Int.toNat_of_nonneg nonneg

/-- A new buffer holds zeros. -/
theorem get_allocate {size : Int} {buffer : Rgb} (allocated : allocate size = .ok buffer)
    (offset : Int) : get buffer offset = 0 := by
  simp only [allocate] at allocated
  split at allocated
  · cases allocated
  · cases allocated
    simp only [Raster.get, List.getD_eq_getElem?_getD, List.getElem?_replicate]
    split <;> rfl

/-- Copying a rectangle that lies inside both rasters. -/
theorem copyRows_block {block : Block} {dstWidth srcWidth : Int} {dst src : Rgb}
    (fits : block.Fits 3 dstWidth srcWidth dst.length src.length) :
    ∃ out, copyRows (block.copies 3 dstWidth srcWidth) dst src = .ok out ∧
      out.length = dst.length ∧
      ∀ x y, 0 ≤ x → x < dstWidth → 0 ≤ y → pixel 3 dstWidth out x y =
        if block.Contains x y then
          pixel 3 srcWidth src (x - block.dstX + block.srcX) (y - block.dstY + block.srcY)
        else pixel 3 dstWidth dst x y := by
  rcases Block.run_copies fits with ⟨out, runEq, lengthEq, pixelEq⟩
  refine ⟨out, ?_, lengthEq, pixelEq⟩
  simp only [copyRows, runEq]

/-- The rows of `extract_tile` are the tile's rectangle of the source. -/
theorem extractCopies_eq {sourceWidth sourceHeight : Int} {tile : Tile}
    (inside : tile.Inside sourceWidth sourceHeight) :
    extractCopies sourceWidth sourceHeight tile =
      Block.copies
        { dstX := 0, dstY := 0, srcX := tile.x, srcY := tile.y
          width := tile.width, height := tile.height } 3 tile.width sourceWidth := by
  have bottom := inside.bottom_le
  have right := inside.right_le
  have every : (List.range tile.height.toNat).takeWhile
      (fun y : Nat => decide (tile.y + y < sourceHeight)) = List.range tile.height.toNat := by
    rw [List.takeWhile_eq_self_iff]
    intro row member
    have rowLt := List.mem_range.mp member
    simp only [decide_eq_true_eq]
    omega
  have whole : min tile.width (sourceWidth - tile.x) = tile.width := by omega
  simp only [extractCopies, every, whole, Block.copies, Int.zero_add, Int.add_zero]
  rfl

/-- Cutting a tile out of the source gives exactly its rectangle. -/
theorem extractTile_eq {source : ImagePixels} {tile : Tile} (wellFormed : source.WellFormed)
    (inside : tile.Inside source.width source.height) :
    ∃ data, extractTile source.pixels source.width source.height tile = .ok data ∧
      (data.length : Int) = tile.width * tile.height * 3 ∧
      ∀ x y, 0 ≤ x → x < tile.width → 0 ≤ y → y < tile.height →
        pixel 3 tile.width data x y = source.at (tile.x + x) (tile.y + y) := by
  rcases wellFormed with ⟨widthNonneg, heightNonneg, sizeEq⟩
  rcases inside with ⟨xNonneg, yNonneg, widthPos, heightPos, rightLe, bottomLe⟩
  have nonempty : source.pixels ≠ [] := by
    intro empty
    rw [empty] at sizeEq
    have area : 0 < source.width * source.height := Int.mul_pos (by omega) (by omega)
    simp only [List.length_nil, Nat.cast_zero] at sizeEq
    omega
  have tileSize : 0 ≤ tile.width * tile.height * 3 := by
    have area : 0 < tile.width * tile.height := Int.mul_pos (by omega) (by omega)
    omega
  rcases allocate_ok tileSize with ⟨buffer, allocateEq, bufferLength⟩
  have fits : Block.Fits
      { dstX := 0, dstY := 0, srcX := tile.x, srcY := tile.y
        width := tile.width, height := tile.height } 3 tile.width source.width
      buffer.length source.pixels.length := by
    constructor <;> simp only [Int.zero_add, Nat.cast_ofNat] <;> try omega
    · rw [bufferLength, Int.mul_comm tile.height]
    · rw [sizeEq, Int.mul_comm source.width]
      have rows := Int.mul_le_mul_of_nonneg_right bottomLe widthNonneg
      omega
  rcases copyRows_block fits with ⟨data, copyEq, lengthEq, pixelEq⟩
  refine ⟨data, ?_, by rw [lengthEq, bufferLength], ?_⟩
  · simp only [extractTile, if_neg nonempty, allocateEq]
    rw [extractCopies_eq ⟨xNonneg, yNonneg, widthPos, heightPos, rightLe, bottomLe⟩, copyEq]
  · intro x y xNonneg xLt yNonneg yLt
    rw [pixelEq x y xNonneg xLt yNonneg, if_pos]
    · simp only [ImagePixels.at, Int.sub_zero, Int.add_comm]
    · simp only [Block.Contains, Int.zero_add]
      exact ⟨⟨xNonneg, xLt⟩, yNonneg, yLt⟩

end NcnnUpscaler.Tiling
