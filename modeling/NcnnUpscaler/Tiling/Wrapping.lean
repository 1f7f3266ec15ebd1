import NcnnUpscaler.Tiling.Assembly
import NcnnUpscaler.Tiling.Int32

/-!
# Tiling on machine integers

`process_with_tiling` with its arithmetic as the machine does it: sizes, coordinates
and most offsets are 32-bit `int` expressions, and `blend_tile` addresses the output in
64-bit `size_t`.  A product that does not fit wraps around: a negative size makes the
vector throw, and one that is too small makes the copies leave the buffer.  The tile
counts are exact, which they are in `float` for every size that the decoder lets
through (`Tiling.Counts`).

Where the scaled image has fewer than `2 ^ 31` bytes, nothing wraps around, and the tile
loop is that of `assemble`.
-/

namespace NcnnUpscaler.Tiling

open Raster MachineInt

/-- `output_width` and `output_height`, from the source's. -/
def outputExtent (config : TilingConfig) (size : Int) : Int := int32 (size * config.scaleFactor)

/-- `output_width * output_height * 3`. -/
def outputBytes (config : TilingConfig) (width height : Int) : Int :=
  int32 (int32 (outputExtent config width * outputExtent config height) * 3)

/-- A tile with the products of `calculate_tiles` computed as `int`. -/
def wrappedTile (tile : Tile) : Tile :=
  { tile with
    outputX := int32 tile.outputX
    outputY := int32 tile.outputY }

/-- `extract_tile`. -/
def extractTile32 (sourceRgb : Rgb) (sourceWidth sourceHeight : Int) (tile : Tile) :
    Except Stop Rgb :=
  if sourceRgb = [] then
    .error .failed
  else
    match allocate (int32 (tile.width * tile.height * 3)) with
    | .error stop => .error stop
    | .ok tileData =>
        copyRows ((extractCopies sourceWidth sourceHeight tile).map wrapCopy) tileData sourceRgb

/-- `src_offset_x` and `src_offset_y`. -/
def wrappedOffset (config : TilingConfig) (output : Int) : Int :=
  if output > 0 then int32 (config.overlap * config.scaleFactor) else 0

/-- The part of an upscaled tile that is blended. -/
def wrappedRegion (config : TilingConfig) (tile : Tile) (upscaledWidth upscaledHeight : Int) :
    Region :=
  let srcOffsetX := wrappedOffset config tile.outputX
  let srcOffsetY := wrappedOffset config tile.outputY
  { srcOffsetX, srcOffsetY
    blendWidth := int32 (upscaledWidth - srcOffsetX)
    blendHeight := int32 (upscaledHeight - srcOffsetY) }

/-- `region_to_blend`. -/
def regionToBlend32 (upscaled : ImagePixels) (region : Region) : Except Stop Rgb :=
  match allocate (int32 (region.blendWidth * region.blendHeight * 3)) with
  | .error stop => .error stop
  | .ok buffer =>
      copyRows ((regionCopies upscaled.width region).map wrapCopy) buffer upscaled.pixels

/-- The `memcpy` calls of `blend_tile`. -/
def wrappedCopies (tileWidth tileHeight : Int) (tile : Tile) (outputWidth outputHeight : Int) :
    List Copy :=
  let copyWidth := max 0 (min tileWidth (int32 (outputWidth - tile.outputX)))
  let maxRows := max 0 (min tileHeight (int32 (outputHeight - tile.outputY)))
  if copyWidth = 0 ∨ maxRows = 0 then
    []
  else
    (List.range maxRows.toNat).map fun y : Nat =>
      { dst := sizeT ((int32 (tile.outputY + y) * outputWidth + tile.outputX) * 3)
        src := sizeT (y * tileWidth * 3)
        len := sizeT (copyWidth * 3) }

/-- `blend_tile`: the output after the call. -/
def blendTile32 (tileRgb : Rgb) (tileWidth tileHeight : Int) (tile : Tile) (outputRgb : Rgb)
    (outputWidth outputHeight : Int) : Except Stop Rgb :=
  if tileRgb = [] ∨ outputRgb = [] then
    .error .failed
  else
    copyRows (wrappedCopies tileWidth tileHeight tile outputWidth outputHeight) outputRgb tileRgb

/-- The loop body from the upscaled tile on: the output after it. -/
def placeTile32 (config : TilingConfig) (tile : Tile) (upscaled : ImagePixels) (outputRgb : Rgb)
    (outputWidth outputHeight : Int) : Except Stop Rgb :=
  let region := wrappedRegion config tile upscaled.width upscaled.height
  if region.blendWidth ≤ 0 ∨ region.blendHeight ≤ 0 then
    .ok outputRgb
  else
    match regionToBlend32 upscaled region with
    | .error stop => .error stop
    | .ok regionRgb =>
        blendTile32 regionRgb region.blendWidth region.blendHeight tile outputRgb
          outputWidth outputHeight

/-- The copies into the output that `placeTile32` makes. -/
def placedCopies32 (config : TilingConfig) (tile : Tile) (upscaled : ImagePixels)
    (outputWidth outputHeight : Int) : List Copy :=
  let region := wrappedRegion config tile upscaled.width upscaled.height
  if region.blendWidth ≤ 0 ∨ region.blendHeight ≤ 0 then
    []
  else
    wrappedCopies region.blendWidth region.blendHeight tile outputWidth outputHeight

variable {σ : Type}

/-- The tiled path up to the assembled buffer. -/
def assemble32 (engine : RgbEngine σ) (config : TilingConfig) (source : ImagePixels)
    (state : σ) : TileLoop σ :=
  let tiles := (calculateTiles source.width source.height config).map wrappedTile
  let outputWidth := outputExtent config source.width
  let outputHeight := outputExtent config source.height
  if tiles = [] then
    { engine := state, calls := [], runs := [], result := .error .failed }
  else
    match allocate (outputBytes config source.width source.height) with
    | .error stop => { engine := state, calls := [], runs := [], result := .error stop }
    | .ok outputRgb =>
        tileLoop engine (extractTile32 source.pixels source.width source.height)
          (fun tile upscaled outputRgb =>
            placeTile32 config tile upscaled outputRgb outputWidth outputHeight)
          tiles state outputRgb

/-- `process_with_tiling`. -/
def processWithTiling32 (engine : RgbEngine σ) (codec : Codec) (config : TilingConfig)
    (inputData : List UInt8) (outputFormat : String) (state : σ) : TilingResult σ :=
  match codec.decodeImage inputData with
  | none => { engine := state, result := .error .failed }
  | some source =>
      if shouldEnableTiling source.width source.height config then
        (assemble32 engine config source state).finish codec (outputExtent config source.width)
          (outputExtent config source.height) outputFormat
      else
        processDirectly engine codec source outputFormat state

/-- The true size of the output, in bytes. -/
def scaledBytes (config : TilingConfig) (width height : Int) : Int :=
  width * config.scaleFactor * (height * config.scaleFactor) * 3

/-! ## Results that fit -/

/-- The size that is computed is the true one reduced to an `int`. -/
theorem outputBytes_eq (config : TilingConfig) (width height : Int) :
    outputBytes config width height =
      int32 (width * config.scaleFactor * (height * config.scaleFactor) * 3) := by
  simp only [outputBytes, outputExtent, int32]
  rw [signed_mul_signed, signed_mul_left]

theorem extractTile32_eq {sourceRgb tileRgb : Rgb} {sourceWidth sourceHeight : Int} {tile : Tile}
    (extracted : extractTile sourceRgb sourceWidth sourceHeight tile = .ok tileRgb)
    (tileSmall : (tileRgb.length : Int) < 2 ^ 31)
    (sourceSmall : (sourceRgb.length : Int) < 2 ^ 31) :
    extractTile32 sourceRgb sourceWidth sourceHeight tile = .ok tileRgb := by
  simp only [extractTile] at extracted
  split at extracted
  · cases extracted
  · next nonempty =>
      split at extracted
      · cases extracted
      · next buffer allocateEq =>
          rcases fill_wrapped allocateEq extracted tileSmall sourceSmall with ⟨allocated, filled⟩
          simp only [extractTile32, if_neg nonempty, allocated, filled]

theorem regionToBlend32_eq {upscaled : ImagePixels} {region : Region} {regionRgb : Rgb}
    (made : regionToBlend upscaled region = .ok regionRgb)
    (regionSmall : (regionRgb.length : Int) < 2 ^ 31)
    (upscaledSmall : (upscaled.pixels.length : Int) < 2 ^ 31) :
    regionToBlend32 upscaled region = .ok regionRgb := by
  simp only [regionToBlend] at made
  split at made
  · cases made
  · next buffer allocateEq =>
      rcases fill_wrapped allocateEq made regionSmall upscaledSmall with ⟨allocated, filled⟩
      simp only [regionToBlend32, allocated, filled]

/-! ## Copies into an output that fits -/

/-- A product of positive extents that is less than `2 ^ 31` bounds each of them. -/
theorem extents_lt {outputWidth outputHeight : Int} (widthPos : 1 ≤ outputWidth)
    (heightPos : 1 ≤ outputHeight) (small : outputWidth * outputHeight * 3 < 2 ^ 31) :
    outputWidth < 2 ^ 31 ∧ outputHeight < 2 ^ 31 := by
  have widthLe : outputWidth ≤ outputWidth * outputHeight :=
    le_mul_of_one_le_right (by omega) heightPos
  have heightLe : outputHeight ≤ outputWidth * outputHeight :=
    le_mul_of_one_le_left (by omega) widthPos
  omega

/-- Blending into an output of fewer than `2 ^ 31` bytes makes the exact copies. -/
theorem wrappedCopies_eq {tileWidth tileHeight outputWidth outputHeight : Int} {tile : Tile}
    (cornerX : 0 ≤ tile.outputX ∧ tile.outputX < outputWidth)
    (cornerY : 0 ≤ tile.outputY ∧ tile.outputY < outputHeight)
    (small : outputWidth * outputHeight * 3 < 2 ^ 31)
    (tileFits : 0 ≤ tileWidth ∧ tileWidth < 2 ^ 31) :
    wrappedCopies tileWidth tileHeight tile outputWidth outputHeight =
      blendCopies tileWidth tileHeight tile outputWidth outputHeight := by
  rcases extents_lt (by omega) (by omega) small with ⟨widthLt, heightLt⟩
  have right : int32 (outputWidth - tile.outputX) = outputWidth - tile.outputX :=
    int32_eq_self (by omega) (by omega)
  have below : int32 (outputHeight - tile.outputY) = outputHeight - tile.outputY :=
    int32_eq_self (by omega) (by omega)
  simp only [wrappedCopies, blendCopies, right, below]
  apply if_congr Iff.rfl rfl
  apply List.map_congr_left
  intro y inRange
  have yLt := List.mem_range.mp inRange
  have rowEq : int32 (tile.outputY + y) = tile.outputY + y := int32_eq_self (by omega) (by omega)
  have rowNonneg : 0 ≤ (tile.outputY + y) * outputWidth := Int.mul_nonneg (by omega) (by omega)
  have rowLe : (tile.outputY + y) * outputWidth ≤ outputHeight * outputWidth :=
    Int.mul_le_mul_of_nonneg_right (by omega) (by omega)
  have srcNonneg : 0 ≤ (y : Int) * tileWidth := Int.mul_nonneg (by omega) tileFits.1
  have srcLe : (y : Int) * tileWidth ≤ 2 ^ 31 * 2 ^ 31 :=
    Int.mul_le_mul (by omega) (by omega) tileFits.1 (by decide)
  rw [Int.mul_comm outputHeight] at rowLe
  rw [rowEq, sizeT_eq_self (by omega) (by omega), sizeT_eq_self (by omega) (by omega),
    sizeT_eq_self (by omega) (by omega)]

/-- The part of an upscaled tile that is blended is the exact one where the tile's
corner and the upscaled tile's sizes fit an `int`. -/
theorem wrappedRegion_eq {config : TilingConfig} {tile : Tile} {upscaled : ImagePixels}
    (aligned : Aligned config tile)
    (origin : 0 ≤ tile.x * config.scaleFactor ∧ 0 ≤ tile.y * config.scaleFactor)
    (corner : tile.outputX < 2 ^ 31 ∧ tile.outputY < 2 ^ 31)
    (widthFits : 0 ≤ upscaled.width ∧ upscaled.width < 2 ^ 31)
    (heightFits : 0 ≤ upscaled.height ∧ upscaled.height < 2 ^ 31) :
    wrappedRegion config tile upscaled.width upscaled.height =
      blendRegion config tile upscaled := by
  rcases aligned with ⟨skip, _, _, skipX, skipY⟩
  have offset {output scaled : Int} (scaledNonneg : 0 ≤ scaled) (outputLt : output < 2 ^ 31)
      (skipEq : output - (if output > 0 then config.overlap * config.scaleFactor else 0) =
        scaled) :
      wrappedOffset config output =
        if output > 0 then config.overlap * config.scaleFactor else 0 := by
    simp only [wrappedOffset]
    split at skipEq
    · next positive => rw [if_pos positive, if_pos positive, int32_eq_self (by omega) (by omega)]
    · next first => rw [if_neg first, if_neg first]
  have extent {size output scaled : Int} (fits : 0 ≤ size ∧ size < 2 ^ 31)
      (scaledNonneg : 0 ≤ scaled) (outputLt : output < 2 ^ 31)
      (skipEq : output - (if output > 0 then config.overlap * config.scaleFactor else 0) =
        scaled) :
      int32 (size - if output > 0 then config.overlap * config.scaleFactor else 0) =
        size - if output > 0 then config.overlap * config.scaleFactor else 0 := by
    apply int32_eq_self
    · split at skipEq <;> split <;> omega
    · split <;> omega
  simp only [wrappedRegion, blendRegion, offset origin.1 corner.1 skipX,
    offset origin.2 corner.2 skipY, extent widthFits origin.1 corner.1 skipX,
    extent heightFits origin.2 corner.2 skipY]

/-! ## Images that fit -/

section Fits

variable {config : TilingConfig} (valid : config.Valid) {width height : Int}
  (widthPos : 1 ≤ width) (heightPos : 1 ≤ height)

include valid widthPos heightPos

/-- The output corner of a tile lies in the output. -/
theorem outputCorner_inside {tile : Tile} (made : tile ∈ calculateTiles width height config) :
    (0 ≤ tile.outputX ∧ tile.outputX < width * config.scaleFactor) ∧
      0 ≤ tile.outputY ∧ tile.outputY < height * config.scaleFactor := by
  have scalePos : 0 < config.scaleFactor := valid.scale_pos
  have corner (axis : Covering.Axis) {index : Nat} (inRange : (index : Int) < axis.count) :
      0 ≤ axis.keptFrom index * config.scaleFactor ∧
        axis.keptFrom index * config.scaleFactor < axis.size * config.scaleFactor := by
    have kept := axis.keptFrom_lt_keptTo inRange
    have last := axis.keptTo_le index
    exact ⟨Int.mul_nonneg (axis.keptFrom_nonneg index) (by omega),
      Int.mul_lt_mul_of_pos_right (by omega) scalePos⟩
  rcases mem_calculateTiles.mp made with ⟨tx, ty, txLt, tyLt, tileEq⟩
  rw [tileEq, tileAt_outputX valid widthPos, tileAt_outputY valid heightPos]
  exact ⟨corner (axis valid widthPos) txLt, corner (axis valid heightPos) tyLt⟩

/-- The true size is not negative, so it is the one computed exactly when it fits. -/
theorem outputBytes_eq_iff :
    outputBytes config width height = scaledBytes config width height ↔
      scaledBytes config width height < 2 ^ 31 := by
  have scalePos := valid.scale_pos
  rw [outputBytes_eq]
  exact int32_eq_self_iff (Int.mul_nonneg (Int.mul_nonneg (Int.mul_nonneg (by omega) (by omega))
    (Int.mul_nonneg (by omega) (by omega))) (by decide))

variable (small : scaledBytes config width height < 2 ^ 31)
include small

/-- The extents of the output are computed as they are. -/
theorem outputExtent_eq :
    (outputExtent config width = width * config.scaleFactor ∧
        width * config.scaleFactor < 2 ^ 31) ∧
      outputExtent config height = height * config.scaleFactor ∧
        height * config.scaleFactor < 2 ^ 31 := by
  have scalePos := valid.scale_pos
  have outputWidthPos : 1 ≤ width * config.scaleFactor := Int.mul_pos (by omega) (by omega)
  have outputHeightPos : 1 ≤ height * config.scaleFactor := Int.mul_pos (by omega) (by omega)
  rcases extents_lt outputWidthPos outputHeightPos small with ⟨widthLt, heightLt⟩
  exact ⟨⟨int32_eq_self (by omega) (by omega), widthLt⟩,
    int32_eq_self (by omega) (by omega), heightLt⟩

theorem wrappedTile_eq {tile : Tile} (made : tile ∈ calculateTiles width height config) :
    wrappedTile tile = tile := by
  rcases outputCorner_inside valid widthPos heightPos made with ⟨cornerX, cornerY⟩
  rcases outputExtent_eq valid widthPos heightPos small with ⟨⟨_, widthLt⟩, _, heightLt⟩
  have outputX : int32 tile.outputX = tile.outputX := int32_eq_self (by omega) (by omega)
  have outputY : int32 tile.outputY = tile.outputY := int32_eq_self (by omega) (by omega)
  simp only [wrappedTile, outputX, outputY]

theorem map_wrappedTile :
    (calculateTiles width height config).map wrappedTile =
      calculateTiles width height config := by
  refine (List.map_congr_left ?_).trans (List.map_id _)
  intro tile made
  exact wrappedTile_eq valid widthPos heightPos small made

/-- The numbers of a tile are those of the exact arithmetic, whatever sizes the engine
reports for it. -/
theorem placed_eq {tile : Tile} (made : tile ∈ calculateTiles width height config)
    {upscaled : ImagePixels} (widthFits : 0 ≤ upscaled.width ∧ upscaled.width < 2 ^ 31)
    (heightFits : 0 ≤ upscaled.height ∧ upscaled.height < 2 ^ 31) :
    let region := blendRegion config tile upscaled
    wrappedRegion config tile upscaled.width upscaled.height = region ∧
      (0 < region.blendWidth →
        wrappedCopies region.blendWidth region.blendHeight tile
            (outputExtent config width) (outputExtent config height) =
          blendCopies region.blendWidth region.blendHeight tile (width * config.scaleFactor)
            (height * config.scaleFactor)) := by
  intro region
  have scalePos := valid.scale_pos
  rcases outputCorner_inside valid widthPos heightPos made with ⟨cornerX, cornerY⟩
  rcases outputExtent_eq valid widthPos heightPos small with
    ⟨⟨outputWidth, widthLt⟩, outputHeight, heightLt⟩
  rcases mem_calculateTiles.mp made with ⟨tx, ty, txLt, tyLt, tileEq⟩
  have inside := tileAt_inside valid widthPos heightPos txLt tyLt
  have aligned := @tileAt_aligned width height config valid tx ty
  rw [← tileEq] at inside aligned
  constructor
  · exact wrappedRegion_eq aligned
      ⟨Int.mul_nonneg inside.x_nonneg (by omega), Int.mul_nonneg inside.y_nonneg (by omega)⟩
      ⟨by omega, by omega⟩ widthFits heightFits
  · intro blendWidthPos
    have narrower : region.blendWidth ≤ upscaled.width := by
      have skip := aligned.skip_nonneg
      simp only [region, blendRegion]
      split <;> omega
    rw [outputWidth, outputHeight]
    exact wrappedCopies_eq cornerX cornerY small ⟨by omega, by omega⟩

theorem placedCopies32_eq {tile : Tile} (made : tile ∈ calculateTiles width height config)
    {upscaled : ImagePixels} (widthFits : 0 ≤ upscaled.width ∧ upscaled.width < 2 ^ 31)
    (heightFits : 0 ≤ upscaled.height ∧ upscaled.height < 2 ^ 31) :
    placedCopies32 config tile upscaled (outputExtent config width)
        (outputExtent config height) =
      placedCopies config tile upscaled (width * config.scaleFactor)
        (height * config.scaleFactor) := by
  rcases placed_eq valid widthPos heightPos small made widthFits heightFits with
    ⟨regionEq, copiesEq⟩
  simp only [placedCopies32, placedCopies, regionEq]
  split
  · rfl
  · next shown => exact copiesEq (by omega)

/-- A tile that comes back at its scaled size is blended as by the exact arithmetic. -/
theorem placeTile32_eq {tile : Tile} (made : tile ∈ calculateTiles width height config)
    {upscaled : ImagePixels} (upscaledWidth : upscaled.width = tile.width * config.scaleFactor)
    (upscaledHeight : upscaled.height = tile.height * config.scaleFactor)
    (sizeEq : (upscaled.pixels.length : Int) = upscaled.width * upscaled.height * 3)
    (outputRgb : Rgb) :
    placeTile32 config tile upscaled outputRgb (outputExtent config width)
        (outputExtent config height) =
      placeTile config tile upscaled outputRgb (width * config.scaleFactor)
        (height * config.scaleFactor) := by
  have scalePos := valid.scale_pos
  rcases outputExtent_eq valid widthPos heightPos small with ⟨⟨_, widthLt⟩, _, heightLt⟩
  rcases mem_calculateTiles.mp made with ⟨tx, ty, txLt, tyLt, tileEq⟩
  have inside := tileAt_inside valid widthPos heightPos txLt tyLt
  have aligned := @tileAt_aligned width height config valid tx ty
  rw [← tileEq] at inside aligned
  rcases inside with ⟨xNonneg, yNonneg, tileWidth, tileHeight, right, bottom⟩
  have upscaledWidthPos : 1 ≤ upscaled.width := by
    rw [upscaledWidth]
    exact Int.mul_pos (by omega) (by omega)
  have upscaledHeightPos : 1 ≤ upscaled.height := by
    rw [upscaledHeight]
    exact Int.mul_pos (by omega) (by omega)
  have widthLe : upscaled.width ≤ width * config.scaleFactor := by
    rw [upscaledWidth]
    exact Int.mul_le_mul_of_nonneg_right (by omega) (by omega)
  have heightLe : upscaled.height ≤ height * config.scaleFactor := by
    rw [upscaledHeight]
    exact Int.mul_le_mul_of_nonneg_right (by omega) (by omega)
  have upscaledLe : upscaled.width * upscaled.height ≤
      width * config.scaleFactor * (height * config.scaleFactor) :=
    Int.mul_le_mul widthLe heightLe (by omega) (by omega)
  have wellFormed : upscaled.WellFormed := ⟨by omega, by omega, sizeEq⟩
  have widthFits : 0 ≤ upscaled.width ∧ upscaled.width < 2 ^ 31 := ⟨by omega, by omega⟩
  have heightFits : 0 ≤ upscaled.height ∧ upscaled.height < 2 ^ 31 := ⟨by omega, by omega⟩
  rcases placed_eq valid widthPos heightPos small made widthFits heightFits with
    ⟨regionEq, copiesEq⟩
  simp only [scaledBytes] at small
  simp only [placeTile32, placeTile, regionEq]
  split
  · rfl
  · next shown =>
      rcases regionToBlend_eq wellFormed aligned (by omega) (by omega) with
        ⟨regionRgb, regionRgbEq, regionSize, _⟩
      have skip := aligned.skip_nonneg
      have blendWidthLe : (blendRegion config tile upscaled).blendWidth ≤ upscaled.width := by
        simp only [blendRegion]
        split <;> omega
      have blendHeightLe : (blendRegion config tile upscaled).blendHeight ≤ upscaled.height := by
        simp only [blendRegion]
        split <;> omega
      have regionLe := Int.mul_le_mul blendWidthLe blendHeightLe (by omega) (by omega)
      rw [regionRgbEq, regionToBlend32_eq regionRgbEq (by omega) (by omega)]
      simp only [blendTile32, blendTile, copiesEq (by omega)]

/-- A source whose scaled image fits, fits itself, and so does each part of it. -/
theorem extracted_lt {source : ImagePixels} (wellFormed : source.WellFormed)
    (widthEq : source.width = width) (heightEq : source.height = height) {tile : Tile}
    (inside : tile.Inside source.width source.height) {tileRgb : Rgb}
    (sizeEq : (tileRgb.length : Int) = tile.width * tile.height * 3) :
    (tileRgb.length : Int) < 2 ^ 31 ∧ (source.pixels.length : Int) < 2 ^ 31 := by
  have scalePos := valid.scale_pos
  rcases wellFormed with ⟨_, _, sourceSize⟩
  rcases inside with ⟨xNonneg, yNonneg, tileWidth, tileHeight, right, bottom⟩
  have scaledWidth : width ≤ width * config.scaleFactor :=
    le_mul_of_one_le_right (by omega) scalePos
  have scaledHeight : height ≤ height * config.scaleFactor :=
    le_mul_of_one_le_right (by omega) scalePos
  have sourceLe := Int.mul_le_mul scaledWidth scaledHeight (by omega) (by omega)
  have tileLe : tile.width * tile.height ≤ source.width * source.height :=
    Int.mul_le_mul (by omega) (by omega) (by omega) (by omega)
  simp only [scaledBytes] at small
  rw [widthEq, heightEq] at sourceSize tileLe
  omega

end Fits

/-! ## The whole loop -/

/-- Loops whose steps agree on the tiles, and on what the engine returns for them, are
the same. -/
theorem tileLoop_congr {engine : RgbEngine σ} {extract other : Tile → Except Stop Rgb}
    {place otherPlace : Tile → ImagePixels → Rgb → Except Stop Rgb} {tiles : List Tile}
    (same : ∀ tile ∈ tiles, ∃ tileRgb, extract tile = .ok tileRgb ∧ other tile = .ok tileRgb ∧
      ∀ state upscaled outputRgb,
        (engine.processRgb state tileRgb tile.width tile.height).2 = some upscaled →
        place tile upscaled outputRgb = otherPlace tile upscaled outputRgb)
    (state : σ) (outputRgb : Rgb) :
    tileLoop engine extract place tiles state outputRgb =
      tileLoop engine other otherPlace tiles state outputRgb := by
  induction tiles generalizing state outputRgb with
  | nil => rfl
  | cons tile tiles ih =>
      rcases same tile List.mem_cons_self with ⟨tileRgb, extractEq, otherEq, placeEq⟩
      have rest := ih fun later member => same later (List.mem_cons_of_mem tile member)
      simp only [tileLoop, extractEq, otherEq, rest]
      split
      · rfl
      · next after upscaled producedEq =>
          have produced : (engine.processRgb state tileRgb tile.width tile.height).2 =
              some upscaled := by rw [producedEq]
          rw [placeEq state upscaled outputRgb produced]

/-- With an engine that scales exactly, an image whose scaled size fits is assembled as
by the exact arithmetic. -/
theorem assemble32_eq {config : TilingConfig} (valid : config.Valid) {source : ImagePixels}
    (wellFormed : source.WellFormed) (widthPos : 1 ≤ source.width)
    (heightPos : 1 ≤ source.height) {engine : RgbEngine σ}
    (scales : engine.Scales config.scaleFactor)
    (small : scaledBytes config source.width source.height < 2 ^ 31) (state : σ) :
    assemble32 engine config source state = assemble engine config source state := by
  have scalePos := valid.scale_pos
  have tilesEq := map_wrappedTile valid widthPos heightPos small
  have bytesEq := (outputBytes_eq_iff valid widthPos heightPos).mpr small
  have loopEq (outputRgb : Rgb) :
      tileLoop engine (extractTile32 source.pixels source.width source.height)
          (fun tile upscaled outputRgb =>
            placeTile32 config tile upscaled outputRgb (outputExtent config source.width)
              (outputExtent config source.height))
          (calculateTiles source.width source.height config) state outputRgb =
        tileLoop engine (extractTile source.pixels source.width source.height)
          (fun tile upscaled outputRgb =>
            placeTile config tile upscaled outputRgb (source.width * config.scaleFactor)
              (source.height * config.scaleFactor))
          (calculateTiles source.width source.height config) state outputRgb := by
    apply tileLoop_congr
    intro tile made
    rcases mem_calculateTiles.mp made with ⟨tx, ty, txLt, tyLt, tileEq⟩
    have inside := tileAt_inside valid widthPos heightPos txLt tyLt
    rw [← tileEq] at inside
    rcases extractTile_eq wellFormed inside with ⟨tileRgb, extractEq, sizeEq, _⟩
    rcases extracted_lt valid widthPos heightPos small wellFormed rfl rfl inside sizeEq with
      ⟨tileSmall, sourceSmall⟩
    refine ⟨tileRgb, extractTile32_eq extractEq tileSmall sourceSmall, extractEq, ?_⟩
    intro asked upscaled outputRgb produced
    rcases scales asked tileRgb _ _ inside.width_pos inside.height_pos sizeEq with
      ⟨other, otherEq, upscaledWidth, upscaledHeight, upscaledSize⟩
    rw [produced] at otherEq
    cases otherEq
    exact placeTile32_eq valid widthPos heightPos small made upscaledWidth upscaledHeight
      upscaledSize outputRgb
  simp only [assemble32, assemble, tilesEq, bytesEq, scaledBytes, if_neg calculateTiles_ne_nil]
  cases allocate (source.width * config.scaleFactor * (source.height * config.scaleFactor) * 3) with
  | error stop => rfl
  | ok outputRgb => exact loopEq outputRgb

/-! ## Loops that succeed -/

/-- Blending a tile leaves the size of the output, and keeps to it. -/
theorem placeTile32_inside {config : TilingConfig} {tile : Tile} {upscaled : ImagePixels}
    {outputRgb out : Rgb} {outputWidth outputHeight : Int}
    (placed : placeTile32 config tile upscaled outputRgb outputWidth outputHeight = .ok out) :
    out.length = outputRgb.length ∧
      ∀ copy ∈ placedCopies32 config tile upscaled outputWidth outputHeight,
        copy.dst + copy.len ≤ outputRgb.length := by
  simp only [placeTile32, placedCopies32] at placed ⊢
  split at placed
  · next skipped =>
      cases placed
      rw [if_pos skipped]
      exact ⟨rfl, fun copy none => absurd none List.not_mem_nil⟩
  · next shown =>
      rw [if_neg shown]
      split at placed
      · cases placed
      · simp only [blendTile32] at placed
        split at placed
        · cases placed
        · rcases copyRows_inBounds placed with ⟨lengthEq, inBounds⟩
          exact ⟨lengthEq, fun copy member => (inBounds copy member).dst_le⟩

/-- A completed iteration of a loop: what was cut out, what the engine returned for it,
and where it was blended. -/
structure TileRun.Completed (engine : RgbEngine σ) (extract : Tile → Except Stop Rgb)
    (placed : Tile → ImagePixels → List Copy) (outputSize : Nat) (run : TileRun) : Prop where
  extracted : extract run.tile = .ok run.tileRgb
  produced : ∃ state,
    (engine.processRgb state run.tileRgb run.tile.width run.tile.height).2 = some run.upscaled
  inside : ∀ copy ∈ placed run.tile run.upscaled, copy.dst + copy.len ≤ outputSize

/-- A loop that succeeds completed an iteration for each tile and kept to its output. -/
theorem tileLoop_completed {engine : RgbEngine σ} {extract : Tile → Except Stop Rgb}
    {place : Tile → ImagePixels → Rgb → Except Stop Rgb}
    {placed : Tile → ImagePixels → List Copy}
    (places : ∀ tile upscaled outputRgb out, place tile upscaled outputRgb = .ok out →
      out.length = outputRgb.length ∧
        ∀ copy ∈ placed tile upscaled, copy.dst + copy.len ≤ outputRgb.length)
    {tiles : List Tile} {state : σ} {outputRgb out : Rgb}
    (success : (tileLoop engine extract place tiles state outputRgb).result = .ok out) :
    let loop := tileLoop engine extract place tiles state outputRgb
    out.length = outputRgb.length ∧ loop.runs.map TileRun.tile = tiles ∧
      ∀ run ∈ loop.runs, run.Completed engine extract placed outputRgb.length := by
  induction tiles generalizing state outputRgb with
  | nil =>
      cases success
      exact ⟨rfl, rfl, fun run none => absurd none List.not_mem_nil⟩
  | cons tile tiles ih =>
      simp only [tileLoop] at success ⊢
      split at success
      · cases success
      · next tileRgb extractEq =>
          split at success
          · cases success
          · next after upscaled producedEq =>
              split at success
              · cases success
              · next middle placeEq =>
                  rcases places _ _ _ _ placeEq with ⟨middleLength, inside⟩
                  rcases ih success with ⟨outLength, tilesEq, completed⟩
                  simp only [List.map_cons, tilesEq]
                  refine ⟨outLength.trans middleLength, trivial, ?_⟩
                  intro run member
                  rcases List.mem_cons.mp member with same | later
                  · rw [same]
                    exact ⟨extractEq, ⟨state, by rw [producedEq]⟩, inside⟩
                  · rw [← middleLength]
                    exact completed run later

/-- The tiled path that succeeds assembles a buffer of the size that was computed, and
no copy into it goes beyond that. -/
theorem assemble32_completed {config : TilingConfig} {source : ImagePixels}
    {engine : RgbEngine σ} {state : σ} {out : Rgb}
    (success : (assemble32 engine config source state).result = .ok out) :
    (out.length : Int) = outputBytes config source.width source.height ∧
      (assemble32 engine config source state).runs.map TileRun.tile =
        (calculateTiles source.width source.height config).map wrappedTile ∧
      ∀ run ∈ (assemble32 engine config source state).runs,
        run.Completed engine (extractTile32 source.pixels source.width source.height)
          (fun tile upscaled => placedCopies32 config tile upscaled
            (outputExtent config source.width) (outputExtent config source.height))
          out.length := by
  have places (tile : Tile) (upscaled : ImagePixels) (outputRgb out : Rgb)
      (placed : placeTile32 config tile upscaled outputRgb (outputExtent config source.width)
        (outputExtent config source.height) = .ok out) :=
    placeTile32_inside placed
  simp only [assemble32] at success ⊢
  split at success
  · cases success
  · next nonempty =>
      split at success
      · cases success
      · next outputRgb allocateEq =>
          rcases tileLoop_completed places success with ⟨lengthEq, tilesEq, completed⟩
          rw [if_neg nonempty, lengthEq]
          exact ⟨allocate_size allocateEq, tilesEq, completed⟩

end NcnnUpscaler.Tiling
