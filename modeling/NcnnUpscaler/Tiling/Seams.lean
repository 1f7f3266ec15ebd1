import NcnnUpscaler.Library.LocalFilter
import NcnnUpscaler.Tiling.Wrapping

/-!
# Seams

The tiled path compared with the engine on the whole image, for engines that are
local filters.  A tile discards its overlap only at the top and left, so the
pixels it keeps along its right and bottom edges are computed from a window cut
off at the tile.  With sizes that do not overflow the two paths agree for every image
and every local engine exactly when the window is a single pixel or the image is a
single tile.  The tiled path of the machine is this one where the scaled image has fewer
than `2 ^ 31` bytes, and assembles no buffer of the right size where it has more.
-/

namespace NcnnUpscaler.Tiling

open Raster LocalFilter

/-- The channels of a pixel. -/
abbrev Pixel := Fin 3 → UInt8

/-- The engine is a local filter: whatever its state, it returns the filtered
image of the scaled size. -/
def RgbEngine.Applies {σ : Type} {radius : Nat} (engine : RgbEngine σ)
    (kernel : Kernel radius Pixel) (scale : Int) : Prop :=
  ∀ (state : σ) (rgbData : Rgb) (width height : Int),
    1 ≤ width → 1 ≤ height → (rgbData.length : Int) = width * height * 3 →
    ∃ upscaled, (engine.processRgb state rgbData width height).2 = some upscaled ∧
      upscaled.width = width * scale ∧ upscaled.height = height * scale ∧
      (upscaled.pixels.length : Int) = upscaled.width * upscaled.height * 3 ∧
      ∀ x y, 0 ≤ x → x < width * scale → 0 ≤ y → y < height * scale →
        upscaled.at x y = filter kernel scale width height (pixel 3 width rgbData) x y

/-- For every image of the given size and every local engine of the given radius,
the tiles assemble, with sizes that do not overflow, to the buffer the engine returns for
the whole image. -/
def AssemblesWhole (config : TilingConfig) (width height : Int) (radius : Nat) : Prop :=
  ∀ (σ : Type) (engine : RgbEngine σ) (kernel : Kernel radius Pixel) (source : ImagePixels)
    (state other : σ), source.WellFormed → source.width = width → source.height = height →
    engine.Applies kernel config.scaleFactor →
    ∃ whole, (engine.processRgb other source.pixels width height).2 = some whole ∧
      (assemble engine config source state).result = .ok whole.pixels

/-- For every image of the given size and every local engine of the given radius, the
buffer that `process_with_tiling` assembles, if it tiles the image, is the one the engine
returns for the whole of it. -/
def Seamless (config : TilingConfig) (width height : Int) (radius : Nat) : Prop :=
  shouldEnableTiling width height config = true →
    ∀ (σ : Type) (engine : RgbEngine σ) (kernel : Kernel radius Pixel) (source : ImagePixels)
      (state other : σ), source.WellFormed → source.width = width → source.height = height →
      engine.Applies kernel config.scaleFactor →
      ∃ whole, (engine.processRgb other source.pixels width height).2 = some whole ∧
        (assemble32 engine config source state).result = .ok whole.pixels

variable {σ : Type} {engine : RgbEngine σ} {radius : Nat} {kernel : Kernel radius Pixel}
  {config : TilingConfig} {source : ImagePixels}

theorem RgbEngine.Applies.scales {scale : Int} (applies : engine.Applies kernel scale) :
    engine.Scales scale := by
  intro state rgbData width height widthPos heightPos size
  rcases applies state rgbData width height widthPos heightPos size with
    ⟨upscaled, produced, widthEq, heightEq, sizeEq, _⟩
  exact ⟨upscaled, produced, widthEq, heightEq, sizeEq⟩

/-! ## What the tiled path computes -/

/-- The tile in column `tx` and row `ty` keeps the source position. -/
def Keeps (valid : config.Valid) {width height : Int} (widthPos : 1 ≤ width)
    (heightPos : 1 ≤ height) (tx ty : Nat) (x y : Int) : Prop :=
  ((tx : Int) < tileCount width config ∧ (axis valid widthPos).keptFrom tx ≤ x ∧
      x < (axis valid widthPos).keptTo tx) ∧
    (ty : Int) < tileCount height config ∧ (axis valid heightPos).keptFrom ty ≤ y ∧
      y < (axis valid heightPos).keptTo ty

/-- Each pixel of the assembled output is the filter's, computed on the tile that
keeps the position it comes from. -/
theorem assembled_pixel (valid : config.Valid) (wellFormed : source.WellFormed)
    (widthPos : 1 ≤ source.width) (heightPos : 1 ≤ source.height)
    (applies : engine.Applies kernel config.scaleFactor) (state : σ) :
    ∃ out, (assemble engine config source state).result = .ok out ∧
      (out.length : Int) =
        source.width * config.scaleFactor * (source.height * config.scaleFactor) * 3 ∧
      ∀ x y, 0 ≤ x → x < source.width * config.scaleFactor → 0 ≤ y →
        y < source.height * config.scaleFactor →
        ∃ (tx ty : Nat) (part : Int → Int → Pixel),
          Keeps valid widthPos heightPos tx ty (x / config.scaleFactor)
            (y / config.scaleFactor) ∧
          (∀ column row, 0 ≤ column → column < (axis valid widthPos).extent tx → 0 ≤ row →
            row < (axis valid heightPos).extent ty → part column row =
              source.at ((axis valid widthPos).start tx + column)
                ((axis valid heightPos).start ty + row)) ∧
          pixel 3 (source.width * config.scaleFactor) out x y =
            filter kernel config.scaleFactor ((axis valid widthPos).extent tx)
              ((axis valid heightPos).extent ty) part
              (x - (axis valid widthPos).start tx * config.scaleFactor)
              (y - (axis valid heightPos).start ty * config.scaleFactor) := by
  have scales := applies.scales
  rcases assemble_spec valid wellFormed widthPos heightPos
    (scales.sound valid.scale_pos) state with
    ⟨_, fails⟩ | ⟨blank, out, okEq, sizeEq, tilesEq, traced, overlaid⟩
  · exact absurd fails scales.not_fails
  · refine ⟨out, okEq, sizeEq, ?_⟩
    intro x y xNonneg xLt yNonneg yLt
    rcases overlaid x y xNonneg xLt yNonneg yLt with
      ⟨run, member, reached, valueEq⟩ | ⟨unreached, _⟩
    · have listed : run.tile ∈ calculateTiles source.width source.height config := by
        rw [← tilesEq]
        exact List.mem_map_of_mem member
      rcases mem_calculateTiles.mp listed with ⟨tx, ty, txLt, tyLt, tileEq⟩
      have runTraced := traced run member
      rcases runTraced.scaled scales with ⟨upscaledWidth, upscaledHeight⟩
      have kept := (reaches_iff_kept valid widthPos heightPos tileEq upscaledWidth
        upscaledHeight x y).mp reached
      rcases runTraced.produced with ⟨asked, produced⟩
      rcases applies asked _ _ _ runTraced.inside.width_pos runTraced.inside.height_pos
        runTraced.size_eq with ⟨upscaled, otherEq, _, _, _, pixelEq⟩
      rw [produced] at otherEq
      cases otherEq
      have reachedX := reached.1
      have reachedY := reached.2
      rw [upscaledWidth] at reachedX
      rw [upscaledHeight] at reachedY
      have pixels := runTraced.pixel_eq
      rw [tileEq] at reachedX reachedY pixels valueEq pixelEq
      refine ⟨tx, ty, pixel 3 ((axis valid widthPos).extent tx) run.tileRgb,
        ⟨⟨txLt, kept.1⟩, tyLt, kept.2⟩, pixels, valueEq.trans ?_⟩
      have cornerX : (axis valid widthPos).start tx ≤ (axis valid widthPos).keptFrom tx :=
        Covering.Axis.start_le_keptFrom _ _
      have cornerY : (axis valid heightPos).start ty ≤ (axis valid heightPos).keptFrom ty :=
        Covering.Axis.start_le_keptFrom _ _
      have scaleNonneg : 0 ≤ config.scaleFactor := by
        have := valid.scale_pos
        omega
      have scaledX := Int.mul_le_mul_of_nonneg_right cornerX scaleNonneg
      have scaledY := Int.mul_le_mul_of_nonneg_right cornerY scaleNonneg
      rw [tileAt_outputX valid widthPos, tileAt_x valid widthPos] at reachedX
      rw [tileAt_outputY valid heightPos, tileAt_y valid heightPos] at reachedY
      rw [tileAt_x valid widthPos, tileAt_y valid heightPos]
      exact pixelEq _ _ (by omega) (by omega) (by omega) (by omega)
    · rcases exists_reaching valid widthPos heightPos scales tilesEq traced xNonneg xLt
        yNonneg yLt with ⟨run, member, reached⟩
      exact absurd reached (unreached run member)

/-- Buffers of the scaled size with the same pixels are the same. -/
theorem buffer_ext {width height : Int} {left right : Rgb} (widthNonneg : 0 ≤ width)
    (heightNonneg : 0 ≤ height) (leftSize : (left.length : Int) = width * height * 3)
    (rightSize : (right.length : Int) = width * height * 3)
    (same : ∀ x y, 0 ≤ x → x < width → 0 ≤ y → y < height →
      pixel 3 width left x y = pixel 3 width right x y) : left = right := by
  have widthEq : (width.toNat : Int) = width := Int.toNat_of_nonneg widthNonneg
  have heightEq : (height.toNat : Int) = height := Int.toNat_of_nonneg heightNonneg
  have count {buffer : Rgb} (size : (buffer.length : Int) = width * height * 3) :
      buffer.length = height.toNat * width.toNat * 3 := by
    have cast : ((height.toNat * width.toNat * 3 : Nat) : Int) = width * height * 3 := by
      push_cast
      rw [widthEq, heightEq, Int.mul_comm height]
    omega
  apply ext_pixel (count leftSize) (count rightSize)
  intro x y xLt yLt
  rw [widthEq]
  exact same x y (by omega) (by omega) (by omega) (by omega)

/-- When every kept position has its whole window in its tile, the tiled path
computes what the engine computes on the whole image. -/
theorem assemblesWhole_of_sees (valid : config.Valid) {width height : Int} (widthPos : 1 ≤ width)
    (heightPos : 1 ≤ height)
    (sees : ∀ tx ty x y, Keeps valid widthPos heightPos tx ty x y →
      ∀ offset : Fin (2 * radius + 1),
        SeesAt width ((axis valid widthPos).start tx) ((axis valid widthPos).extent tx) x
            (offset.val - radius) ∧
          SeesAt height ((axis valid heightPos).start ty) ((axis valid heightPos).extent ty) y
            (offset.val - radius)) :
    AssemblesWhole config width height radius := by
  intro σ engine kernel source state other wellFormed widthEq heightEq applies
  subst widthEq heightEq
  rcases assembled_pixel valid wellFormed widthPos heightPos applies state with
    ⟨out, okEq, outSize, outPixel⟩
  rcases applies other source.pixels _ _ widthPos heightPos wellFormed.size_eq with
    ⟨whole, producedEq, wholeWidth, wholeHeight, wholeSize, wholePixel⟩
  refine ⟨whole, producedEq, ?_⟩
  have scalePos := valid.scale_pos
  rw [wholeWidth, wholeHeight] at wholeSize
  have same : out = whole.pixels := by
    apply buffer_ext _ _ outSize wholeSize
    · intro x y xNonneg xLt yNonneg yLt
      rcases outPixel x y xNonneg xLt yNonneg yLt with ⟨tx, ty, part, keeps, cut, valueEq⟩
      have wholeEq := wholePixel x y xNonneg xLt yNonneg yLt
      rw [ImagePixels.at, wholeWidth] at wholeEq
      rw [valueEq, wholeEq]
      exact filter_part (Covering.Axis.extent_pos _ keeps.1.1)
        (Covering.Axis.extent_pos _ keeps.2.1) cut
        (fun column => (sees tx ty _ _ keeps column).1)
        (fun row => (sees tx ty _ _ keeps row).2) (by omega)
    · exact Int.mul_nonneg (by omega) (by omega)
    · exact Int.mul_nonneg (by omega) (by omega)
  rw [okEq, same]

/-! ## Where a tile does not see its window -/

/-- An engine that filters. -/
def kernelEngine (kernel : Kernel radius Pixel) (scale : Int) : RgbEngine Unit where
  processRgb := fun _ rgbData width height =>
    ((), some
      { width := width * scale, height := height * scale, channels := 3
        pixels := render 3 (width * scale).toNat (height * scale).toNat fun x y =>
          filter kernel scale width height (pixel 3 width rgbData) x y })

/-- A rendered image has the size and the pixels asked for. -/
theorem render_spec {width height : Int} (widthNonneg : 0 ≤ width) (heightNonneg : 0 ≤ height)
    (pixels : Int → Int → Pixel) :
    let buffer := render 3 width.toNat height.toNat fun x y => pixels x y
    (buffer.length : Int) = width * height * 3 ∧
      ∀ x y, 0 ≤ x → x < width → 0 ≤ y → y < height → pixel 3 width buffer x y = pixels x y := by
  intro buffer
  have widthEq : (width.toNat : Int) = width := Int.toNat_of_nonneg widthNonneg
  have heightEq : (height.toNat : Int) = height := Int.toNat_of_nonneg heightNonneg
  constructor
  · simp only [buffer, render_length]
    push_cast
    rw [widthEq, heightEq, Int.mul_comm height]
  · intro x y xNonneg xLt yNonneg yLt
    have rendered := pixel_render (fun x y : Nat => pixels x y)
      (show x.toNat < width.toNat by omega) (show y.toNat < height.toNat by omega)
    rw [widthEq, Int.toNat_of_nonneg xNonneg, Int.toNat_of_nonneg yNonneg] at rendered
    exact rendered

theorem kernelEngine_applies (kernel : Kernel radius Pixel) {scale : Int} (positive : 1 ≤ scale) :
    (kernelEngine kernel scale).Applies kernel scale := by
  intro state rgbData width height widthPos heightPos _
  have rendered := render_spec (Int.mul_nonneg (by omega) (by omega) : 0 ≤ width * scale)
    (Int.mul_nonneg (by omega) (by omega) : 0 ≤ height * scale)
    (filter kernel scale width height (pixel 3 width rgbData))
  exact ⟨_, rfl, rfl, rfl, rendered.1, rendered.2⟩

/-- A black image with one white pixel. -/
def spot (width height left top : Int) : ImagePixels :=
  { width, height, channels := 3
    pixels := render 3 width.toNat height.toNat fun x y _ =>
      if (x : Int) = left ∧ (y : Int) = top then 255 else 0 }

/-- The filter that takes one pixel of the window. -/
def pick (row column : Fin (2 * radius + 1)) : Kernel radius Pixel :=
  fun _ _ window => window row column

theorem exists_spot {width height : Int} (widthPos : 1 ≤ width) (heightPos : 1 ≤ height)
    (left top : Int) :
    ∃ source : ImagePixels, source.width = width ∧ source.height = height ∧ source.WellFormed ∧
      ∀ x y, 0 ≤ x → x < width → 0 ≤ y → y < height →
        source.at x y = fun _ => if x = left ∧ y = top then 255 else 0 := by
  have widthNonneg : 0 ≤ width := by omega
  have heightNonneg : 0 ≤ height := by omega
  have rendered := render_spec widthNonneg heightNonneg
    fun x y _ => if x = left ∧ y = top then 255 else 0
  exact ⟨spot width height left top, rfl, rfl, ⟨widthNonneg, heightNonneg, rendered.1⟩,
    rendered.2⟩

theorem filter_pick (row column : Fin (2 * radius + 1)) {scale : Int} (positive : 1 ≤ scale)
    (width height : Int) (pixels : Int → Int → Pixel) (x y : Int) :
    filter (pick row column) scale width height pixels (x * scale) (y * scale) =
      pixels (clamp width (x + column.val - radius)) (clamp height (y + row.val - radius)) := by
  have nonzero : scale ≠ 0 := by omega
  simp only [filter, pick, window, Int.mul_ediv_cancel _ nonzero]

/-- Only one tile keeps a position. -/
theorem Keeps.unique {valid : config.Valid} {width height : Int} {widthPos : 1 ≤ width}
    {heightPos : 1 ≤ height} {tx ty otherTx otherTy : Nat} {x y : Int}
    (keeps : Keeps valid widthPos heightPos tx ty x y)
    (otherKeeps : Keeps valid widthPos heightPos otherTx otherTy x y) :
    otherTx = tx ∧ otherTy = ty :=
  ⟨(axis valid widthPos).kept_unique otherKeeps.1.1 keeps.1.1 otherKeeps.1.2 keeps.1.2,
    (axis valid heightPos).kept_unique otherKeeps.2.1 keeps.2.1 otherKeeps.2.2 keeps.2.2⟩

/-- A kept position lies in the axis. -/
theorem inside_of_kept (axis : Covering.Axis) {index : Nat} {position : Int}
    (kept : axis.keptFrom index ≤ position ∧ position < axis.keptTo index) :
    0 ≤ position ∧ position < axis.size := by
  have nonneg := axis.keptFrom_nonneg index
  have below := axis.keptTo_le index
  omega

theorem scaled_bounds {scale size position : Int} (positive : 1 ≤ scale)
    (inside : 0 ≤ position ∧ position < size) :
    0 ≤ position * scale ∧ position * scale < size * scale :=
  ⟨Int.mul_nonneg inside.1 (by omega), Int.mul_lt_mul_of_pos_right inside.2 (by omega)⟩

/-- Where a tile does not see some pixel of the window of a position it keeps, an
image with a single white pixel there and the engine that picks that pixel tell
the two paths apart. -/
theorem not_assemblesWhole_of_blind (valid : config.Valid) {width height : Int}
    (widthPos : 1 ≤ width) (heightPos : 1 ≤ height) {tx ty : Nat} {x y : Int}
    (keeps : Keeps valid widthPos heightPos tx ty x y) (row column : Fin (2 * radius + 1))
    (blind : ¬(SeesAt width ((axis valid widthPos).start tx) ((axis valid widthPos).extent tx) x
        (column.val - radius) ∧
      SeesAt height ((axis valid heightPos).start ty) ((axis valid heightPos).extent ty) y
        (row.val - radius))) :
    ¬AssemblesWhole config width height radius := by
  intro seamless
  have scalePos := valid.scale_pos
  rcases exists_spot widthPos heightPos (clamp width (x + (column.val - radius)))
    (clamp height (y + (row.val - radius))) with
    ⟨source, sourceWidth, sourceHeight, wellFormed, spotPixel⟩
  subst sourceWidth sourceHeight
  have applies := kernelEngine_applies (pick row column) scalePos
  have xBounds := inside_of_kept (axis valid widthPos) keeps.1.2
  have yBounds := inside_of_kept (axis valid heightPos) keeps.2.2
  have scaledX := scaled_bounds scalePos xBounds
  have scaledY := scaled_bounds scalePos yBounds
  rcases seamless Unit _ _ source () () wellFormed rfl rfl applies with
    ⟨whole, wholeEq, assembledEq⟩
  rcases applies () _ _ _ widthPos heightPos wellFormed.size_eq with
    ⟨produced, producedEq, producedWidth, _, _, producedPixel⟩
  have sameWhole : produced = whole := Option.some.inj (producedEq.symm.trans wholeEq)
  subst sameWhole
  rcases assembled_pixel valid wellFormed widthPos heightPos applies () with
    ⟨out, okEq, _, outPixel⟩
  have sameOut : out = produced.pixels := Except.ok.inj (okEq.symm.trans assembledEq)
  subst sameOut
  -- On the whole image the engine picks the white pixel.
  have wholeWhite := producedPixel _ _ scaledX.1 scaledX.2 scaledY.1 scaledY.2
  have leftIn := clamp_mem (x + (column.val - radius)) (show 0 < source.width by omega)
  have topIn := clamp_mem (y + (row.val - radius)) (show 0 < source.height by omega)
  rw [filter_pick row column scalePos, Int.add_sub_assoc, Int.add_sub_assoc] at wholeWhite
  rw [ImagePixels.at, producedWidth] at wholeWhite
  have white := spotPixel _ _ leftIn.1 leftIn.2 topIn.1 topIn.2
  rw [if_pos ⟨rfl, rfl⟩] at white
  -- On the tile it picks a black one.
  rcases outPixel _ _ scaledX.1 scaledX.2 scaledY.1 scaledY.2 with
    ⟨otherTx, otherTy, part, otherKeeps, cut, valueEq⟩
  have nonzero : config.scaleFactor ≠ 0 := by omega
  rw [Int.mul_ediv_cancel _ nonzero, Int.mul_ediv_cancel _ nonzero] at otherKeeps
  rcases keeps.unique otherKeeps with ⟨sameTx, sameTy⟩
  subst sameTx sameTy
  rw [← Int.sub_mul, ← Int.sub_mul, filter_pick row column scalePos] at valueEq
  have columnIn := clamp_mem (x - (axis valid widthPos).start otherTx + column.val - radius)
    ((axis valid widthPos).extent_pos keeps.1.1)
  have rowIn := clamp_mem (y - (axis valid heightPos).start otherTy + row.val - radius)
    ((axis valid heightPos).extent_pos keeps.2.1)
  rw [cut _ _ columnIn.1 columnIn.2 rowIn.1 rowIn.2] at valueEq
  have tileX := (axis valid widthPos).start_nonneg otherTx
  have tileY := (axis valid heightPos).start_nonneg otherTy
  have endX : (axis valid widthPos).start otherTx + (axis valid widthPos).extent otherTx ≤
      source.width :=
    (axis valid widthPos).keptTo_le otherTx
  have endY : (axis valid heightPos).start otherTy + (axis valid heightPos).extent otherTy ≤
      source.height := (axis valid heightPos).keptTo_le otherTy
  have black := spotPixel _ _ (Int.add_nonneg tileX columnIn.1) (by omega)
    (Int.add_nonneg tileY rowIn.1) (by omega)
  rw [Int.add_sub_assoc, Int.add_sub_assoc] at black valueEq
  simp only [SeesAt] at blind
  rw [if_neg blind] at black
  have contradiction := congrFun ((valueEq.trans black).symm.trans (wholeWhite.trans white)) 0
  exact absurd contradiction (by decide)

/-! ## When the tiled path is seamless -/

/-- An image no larger than a tile has a single tile along that axis. -/
theorem single_of_le (axis : Covering.Axis) (fits : axis.size ≤ axis.tile) {index : Nat}
    (inRange : (index : Int) < axis.count) :
    axis.start index = 0 ∧ axis.start index + axis.extent index = axis.size := by
  have first : index = 0 := by
    by_contra later
    have below := axis.start_add_overlap_lt later inRange
    have second : 1 ≤ index := by omega
    have starts := axis.start_mono second
    have stepEq : axis.start 1 = axis.tile - axis.overlap := by
      simp only [Covering.Axis.start, Nat.cast_one, Int.one_mul]
      rfl
    omega
  subst first
  have startEq : axis.start 0 = 0 := by simp [Covering.Axis.start]
  refine ⟨startEq, ?_⟩
  rw [Covering.Axis.extent, startEq]
  omega

/-- The last position the first tile keeps on an axis longer than a tile: the
next one is not in the tile. -/
theorem blind_at_seam (axis : Covering.Axis) (longer : axis.tile < axis.size) :
    ((0 : Nat) : Int) < axis.count ∧ axis.keptFrom 0 ≤ axis.tile - 1 ∧
      axis.tile - 1 < axis.keptTo 0 ∧
      ¬SeesAt axis.size (axis.start 0) (axis.extent 0) (axis.tile - 1) 1 := by
  have overlapNonneg := axis.overlap_nonneg
  have overlapLt := axis.overlap_lt
  have startEq : axis.start 0 = 0 := by simp [Covering.Axis.start]
  have extentEq : axis.extent 0 = axis.tile := by
    rw [Covering.Axis.extent, startEq]
    omega
  refine ⟨axis.count_pos, ?_, ?_, ?_⟩
  · simp only [Covering.Axis.keptFrom, if_true]
    omega
  · rw [Covering.Axis.keptTo, startEq, extentEq]
    omega
  · rw [startEq, extentEq]
    simp only [SeesAt, clamp]
    omega

/-- The first position of an axis is kept by the first tile. -/
theorem first_kept (axis : Covering.Axis) :
    ((0 : Nat) : Int) < axis.count ∧ axis.keptFrom 0 ≤ 0 ∧ 0 < axis.keptTo 0 := by
  have inRange : ((0 : Nat) : Int) < axis.count := axis.count_pos
  have positive := axis.keptFrom_lt_keptTo inRange
  simp only [Covering.Axis.keptFrom, if_true] at positive ⊢
  exact ⟨inRange, Int.le_refl 0, positive⟩

/-- A kept position sees its window along an axis when the window is a single
position or the axis fits into a tile. -/
theorem sees_of_single (axis : Covering.Axis) (single : radius = 0 ∨ axis.size ≤ axis.tile)
    {index : Nat} {position : Int} (inRange : (index : Int) < axis.count)
    (kept : axis.keptFrom index ≤ position ∧ position < axis.keptTo index)
    (offset : Fin (2 * radius + 1)) :
    SeesAt axis.size (axis.start index) (axis.extent index) position (offset.val - radius) := by
  have corner := axis.start_le_keptFrom index
  have inside : axis.start index + axis.extent index ≤ axis.size := axis.keptTo_le index
  have keptTo : position < axis.start index + axis.extent index := kept.2
  apply seesAt_of_context (axis.extent_pos inRange) (axis.start_nonneg index) inside
  · rcases single with zero | fits
    · subst zero
      have only := offset.isLt
      omega
    · exact .inl (single_of_le axis fits inRange).1
  · rcases single with zero | fits
    · subst zero
      have only := offset.isLt
      omega
    · exact .inl (single_of_le axis fits inRange).2

/-- With sizes that do not overflow, the tiles assemble to what the engine returns for the
whole image exactly when the radius is zero or the image fits into one tile. -/
theorem assemblesWhole_iff (valid : config.Valid) {width height : Int} (widthPos : 1 ≤ width)
    (heightPos : 1 ≤ height) (radius : Nat) :
    AssemblesWhole config width height radius ↔
      radius = 0 ∨ (width ≤ config.tileSize ∧ height ≤ config.tileSize) := by
  constructor
  · intro seamless
    by_contra seamed
    have positive : 1 ≤ radius := by omega
    let centre : Fin (2 * radius + 1) := ⟨radius, by omega⟩
    let beyond : Fin (2 * radius + 1) := ⟨radius + 1, by omega⟩
    have offset : (beyond.val : Int) - radius = 1 := by
      simp only [beyond, Nat.cast_add, Nat.cast_one]
      omega
    have firstX := first_kept (axis valid widthPos)
    have firstY := first_kept (axis valid heightPos)
    by_cases wide : config.tileSize < width
    · rcases blind_at_seam (axis valid widthPos) wide with ⟨inRange, from_le, lt_to, blind⟩
      refine not_assemblesWhole_of_blind valid widthPos heightPos
        ⟨⟨inRange, from_le, lt_to⟩, firstY⟩ centre beyond ?_ seamless
      rw [offset]
      exact fun sees => blind sees.1
    · have high : config.tileSize < height := by omega
      rcases blind_at_seam (axis valid heightPos) high with ⟨inRange, from_le, lt_to, blind⟩
      refine not_assemblesWhole_of_blind valid widthPos heightPos
        ⟨firstX, inRange, from_le, lt_to⟩ beyond centre ?_ seamless
      rw [offset]
      exact fun sees => blind sees.2
  · intro single
    apply assemblesWhole_of_sees valid widthPos heightPos
    intro tx ty x y keeps offset
    have singleX : radius = 0 ∨ (axis valid widthPos).size ≤ (axis valid widthPos).tile := by
      rcases single with zero | ⟨fits, _⟩
      · exact .inl zero
      · exact .inr fits
    have singleY : radius = 0 ∨ (axis valid heightPos).size ≤ (axis valid heightPos).tile := by
      rcases single with zero | ⟨_, fits⟩
      · exact .inl zero
      · exact .inr fits
    exact ⟨sees_of_single _ singleX keeps.1.1 keeps.1.2 offset,
      sees_of_single _ singleY keeps.2.1 keeps.2.2 offset⟩

/-- A buffer of the size of the scaled image is assembled only if that size fits. -/
theorem small_of_seamless (valid : config.Valid) {width height : Int} (widthPos : 1 ≤ width)
    (heightPos : 1 ≤ height) (tiled : shouldEnableTiling width height config = true)
    (seamless : Seamless config width height radius) :
    scaledBytes config width height < 2 ^ 31 := by
  let centre : Fin (2 * radius + 1) := ⟨radius, by omega⟩
  have applies := kernelEngine_applies (pick centre centre) valid.scale_pos
  rcases exists_spot widthPos heightPos 0 0 with
    ⟨source, sourceWidth, sourceHeight, wellFormed, _⟩
  rcases seamless tiled Unit _ _ source () () wellFormed sourceWidth sourceHeight applies with
    ⟨whole, wholeEq, assembledEq⟩
  rcases applies () source.pixels width height widthPos heightPos
    (by rw [wellFormed.size_eq, sourceWidth, sourceHeight]) with
    ⟨produced, producedEq, producedWidth, producedHeight, producedSize, _⟩
  rw [wholeEq] at producedEq
  cases producedEq
  have computed := (assemble32_completed assembledEq).1
  rw [producedSize, producedWidth, producedHeight, sourceWidth, sourceHeight] at computed
  exact (outputBytes_eq_iff valid widthPos heightPos).mp computed.symm

/-- Where the scaled image fits, the machine assembles what the exact arithmetic does. -/
theorem seamless_iff_assemblesWhole (valid : config.Valid) {width height : Int}
    (widthPos : 1 ≤ width) (heightPos : 1 ≤ height)
    (tiled : shouldEnableTiling width height config = true)
    (small : scaledBytes config width height < 2 ^ 31) :
    Seamless config width height radius ↔ AssemblesWhole config width height radius := by
  have same {σ : Type} {engine : RgbEngine σ} {kernel : Kernel radius Pixel}
      {source : ImagePixels} (wellFormed : source.WellFormed) (widthEq : source.width = width)
      (heightEq : source.height = height) (applies : engine.Applies kernel config.scaleFactor)
      (state : σ) :
      assemble32 engine config source state = assemble engine config source state := by
    subst widthEq heightEq
    exact assemble32_eq valid wellFormed widthPos heightPos applies.scales small state
  constructor
  · intro seamless σ engine kernel source state other wellFormed widthEq heightEq applies
    rw [← same wellFormed widthEq heightEq applies]
    exact seamless tiled σ engine kernel source state other wellFormed widthEq heightEq applies
  · intro assembles _ σ engine kernel source state other wellFormed widthEq heightEq applies
    rw [same wellFormed widthEq heightEq applies]
    exact assembles σ engine kernel source state other wellFormed widthEq heightEq applies

/-- The tiled path agrees with the engine on the whole image, for every image of the given
size and every local engine of the given radius, exactly when the image is not tiled, or
its scaled size is less than `2 ^ 31` bytes and the radius is zero or the image fits into
one tile. -/
theorem seamless_iff (valid : config.Valid) {width height : Int} (widthPos : 1 ≤ width)
    (heightPos : 1 ≤ height) (radius : Nat) :
    Seamless config width height radius ↔
      shouldEnableTiling width height config = false ∨
        (scaledBytes config width height < 2 ^ 31 ∧
          (radius = 0 ∨ (width ≤ config.tileSize ∧ height ≤ config.tileSize))) := by
  cases tiled : shouldEnableTiling width height config with
  | false => simp [Seamless, tiled]
  | true =>
      rw [or_iff_right (by decide)]
      constructor
      · intro seamless
        have small := small_of_seamless valid widthPos heightPos tiled seamless
        have assembles := (seamless_iff_assemblesWhole valid widthPos heightPos tiled small).mp
          seamless
        exact ⟨small, (assemblesWhole_iff valid widthPos heightPos radius).mp assembles⟩
      · intro condition
        rcases condition with ⟨small, single⟩
        exact (seamless_iff_assemblesWhole valid widthPos heightPos tiled small).mpr
          ((assemblesWhole_iff valid widthPos heightPos radius).mpr single)

/-- An image one pixel wider than a tile, and the engine that takes each pixel's
right neighbour: the last pixel of the first tile repeats itself instead. -/
theorem seam_visible :
    let config : TilingConfig :=
      { tileSize := 3, overlap := 2, scaleFactor := 1, thresholdWidth := 3 }
    let kernel : Kernel 1 Pixel := pick 1 2
    let engine := kernelEngine kernel 1
    let source := spot 4 1 3 0
    (config.Valid ∧ shouldEnableTiling source.width source.height config = true ∧
        source.WellFormed ∧ (2 * 1 : Int) ≤ config.overlap ∧
        engine.Applies kernel config.scaleFactor) ∧
      (engine.processRgb () source.pixels source.width source.height).2.map ImagePixels.pixels =
        some [0, 0, 0, 0, 0, 0, 255, 255, 255, 255, 255, 255] ∧
      (assemble32 engine config source ()).result =
        .ok [0, 0, 0, 0, 0, 0, 0, 0, 0, 255, 255, 255] := by
  refine ⟨⟨⟨by decide, by decide, by decide⟩, by rfl, ⟨by decide, by decide, by decide⟩,
    by decide, kernelEngine_applies _ (by decide)⟩, by rfl, by rfl⟩

/-- An integrated GPU's configuration on a page that is tiled, with a window of 33 by 33
pixels. -/
theorem seamless_iff_page :
    let config : TilingConfig :=
      { tileSize := 384, scaleFactor := 2, thresholdWidth := 1024, thresholdHeight := 1024 }
    Seamless config 1500 1000 16 ↔
      shouldEnableTiling 1500 1000 config = false ∨
        (scaledBytes config 1500 1000 < 2 ^ 31 ∧
          (16 = 0 ∨ ((1500 : Int) ≤ 384 ∧ (1000 : Int) ≤ 384))) :=
  seamless_iff ⟨by decide, by decide, by decide⟩ (by decide) (by decide) 16

end NcnnUpscaler.Tiling
