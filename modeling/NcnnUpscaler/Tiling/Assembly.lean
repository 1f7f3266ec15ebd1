import NcnnUpscaler.Tiling.Processor

/-!
# Assembly

What the tile loop leaves in the output.  A tile writes the pixels from its
output corner up to the end of the buffer the engine returned for it, each with
the pixel of that buffer at the same distance from the tile's own corner.  When
the buffers have the scaled size of their tiles, the tiles write every pixel of
the output exactly once.
-/

namespace NcnnUpscaler.Tiling

open Raster

/-- The pixel of the output is one the upscaled tile is blended over. -/
def Reaches (config : TilingConfig) (tile : Tile) (upscaled : ImagePixels) (x y : Int) : Prop :=
  (tile.outputX ≤ x ∧ x < tile.x * config.scaleFactor + upscaled.width) ∧
    tile.outputY ≤ y ∧ y < tile.y * config.scaleFactor + upscaled.height

instance (config : TilingConfig) (tile : Tile) (upscaled : ImagePixels) (x y : Int) :
    Decidable (Reaches config tile upscaled x y) :=
  inferInstanceAs (Decidable ((_ ∧ _) ∧ _ ∧ _))

/-- The part skipped at the top and left of a tile is the distance between its
origin and its output corner. -/
structure Aligned (config : TilingConfig) (tile : Tile) : Prop where
  skip_nonneg : 0 ≤ config.overlap * config.scaleFactor
  outputX_nonneg : 0 ≤ tile.outputX
  outputY_nonneg : 0 ≤ tile.outputY
  skipX_eq : tile.outputX - (if tile.outputX > 0 then config.overlap * config.scaleFactor else 0) =
    tile.x * config.scaleFactor
  skipY_eq : tile.outputY - (if tile.outputY > 0 then config.overlap * config.scaleFactor else 0) =
    tile.y * config.scaleFactor

/-- The skip is keyed on the output coordinate being positive, which singles out
the tiles that are not in the first column or row. -/
theorem tileAt_aligned {imageWidth imageHeight : Int} {config : TilingConfig}
    (valid : config.Valid) (tx ty : Nat) :
    Aligned config (tileAt imageWidth imageHeight config tx ty) := by
  have stepPos : 0 < tileStep config := Int.sub_pos_of_lt valid.overlap_lt
  have skip : 0 ≤ config.overlap * config.scaleFactor :=
    Int.mul_nonneg valid.overlap_nonneg (by have := valid.scale_pos; omega)
  have scalePos : 0 < config.scaleFactor := valid.scale_pos
  have corner (index : Nat) :
      0 ≤ (if index = 0 then 0 else index * tileStep config + config.overlap) *
          config.scaleFactor ∧
        (if index = 0 then 0 else index * tileStep config + config.overlap) * config.scaleFactor -
            (if (if index = 0 then 0 else index * tileStep config + config.overlap) *
                config.scaleFactor > 0 then config.overlap * config.scaleFactor else 0) =
          index * tileStep config * config.scaleFactor := by
    have overlapNonneg := valid.overlap_nonneg
    cases index with
    | zero => simp
    | succ index =>
        have startPos : 0 < ((index + 1 : Nat) : Int) * tileStep config :=
          Int.mul_pos (by omega) stepPos
        have cornerPos : 0 < (((index + 1 : Nat) : Int) * tileStep config + config.overlap) *
            config.scaleFactor := Int.mul_pos (by omega) scalePos
        simp only [if_neg (Nat.succ_ne_zero index), if_pos cornerPos]
        exact ⟨Int.le_of_lt cornerPos, by ring⟩
  constructor
  · exact skip
  · exact (corner tx).1
  · exact (corner ty).1
  · exact (corner tx).2
  · exact (corner ty).2

variable {config : TilingConfig} {tile : Tile} {upscaled : ImagePixels}
  {outputWidth outputHeight : Int}

/-! ## One tile -/

theorem regionCopies_eq (upscaledWidth : Int) (region : Region) :
    regionCopies upscaledWidth region =
      Block.copies
        { dstX := 0, dstY := 0, srcX := region.srcOffsetX, srcY := region.srcOffsetY
          width := region.blendWidth, height := region.blendHeight } 3 region.blendWidth
        upscaledWidth := by
  simp only [regionCopies, Block.copies, Int.zero_add, Int.add_zero]
  rfl

/-- The rectangle of the output that is blended over, cut off at its borders. -/
def blendBlock (tileWidth tileHeight : Int) (tile : Tile) (outputWidth outputHeight : Int) :
    Block :=
  { dstX := tile.outputX, dstY := tile.outputY, srcX := 0, srcY := 0
    width := max 0 (min tileWidth (outputWidth - tile.outputX))
    height := max 0 (min tileHeight (outputHeight - tile.outputY)) }

theorem blendCopies_eq (tileWidth tileHeight : Int) (tile : Tile)
    (outputWidth outputHeight : Int) :
    blendCopies tileWidth tileHeight tile outputWidth outputHeight =
      let block := blendBlock tileWidth tileHeight tile outputWidth outputHeight
      if block.width = 0 ∨ block.height = 0 then []
      else block.copies 3 outputWidth tileWidth := by
  simp only [blendCopies, blendBlock, Block.copies, Int.zero_add, Int.add_zero]
  rfl

/-- The region of an upscaled tile: its pixels are those of the tile from the
skipped part on. -/
theorem regionToBlend_eq (wellFormed : upscaled.WellFormed) (aligned : Aligned config tile)
    (widthPos : 0 < (blendRegion config tile upscaled).blendWidth)
    (heightPos : 0 < (blendRegion config tile upscaled).blendHeight) :
    let region := blendRegion config tile upscaled
    ∃ regionRgb, regionToBlend upscaled region = .ok regionRgb ∧
      (regionRgb.length : Int) = region.blendWidth * region.blendHeight * 3 ∧
      ∀ x y, 0 ≤ x → x < region.blendWidth → 0 ≤ y → y < region.blendHeight →
        pixel 3 region.blendWidth regionRgb x y =
          upscaled.at (x + region.srcOffsetX) (y + region.srcOffsetY) := by
  intro region
  rcases wellFormed with ⟨_, heightNonneg, sizeEq⟩
  have skip := aligned.skip_nonneg
  have offsetX : 0 ≤ region.srcOffsetX := by
    simp only [region, blendRegion]
    split <;> omega
  have offsetY : 0 ≤ region.srcOffsetY := by
    simp only [region, blendRegion]
    split <;> omega
  have right : region.srcOffsetX + region.blendWidth = upscaled.width := by
    simp only [region, blendRegion]
    omega
  have bottom : region.srcOffsetY + region.blendHeight = upscaled.height := by
    simp only [region, blendRegion]
    omega
  have blendWidth : 0 < region.blendWidth := widthPos
  have blendHeight : 0 < region.blendHeight := heightPos
  have area : 0 < region.blendWidth * region.blendHeight := Int.mul_pos widthPos heightPos
  rcases allocate_ok (show 0 ≤ region.blendWidth * region.blendHeight * 3 by omega) with
    ⟨buffer, allocateEq, bufferLength⟩
  have fits : Block.Fits
      { dstX := 0, dstY := 0, srcX := region.srcOffsetX, srcY := region.srcOffsetY
        width := region.blendWidth, height := region.blendHeight } 3 region.blendWidth
      upscaled.width buffer.length upscaled.pixels.length := by
    constructor <;> simp only [Int.zero_add, Nat.cast_ofNat, right, bottom] <;> try omega
    · rw [bufferLength, Int.mul_comm region.blendHeight]
    · rw [sizeEq, Int.mul_comm upscaled.width]
  rcases copyRows_block fits with ⟨regionRgb, copyEq, lengthEq, pixelEq⟩
  refine ⟨regionRgb, ?_, by rw [lengthEq, bufferLength], ?_⟩
  · simp only [regionToBlend, allocateEq]
    rw [regionCopies_eq, copyEq]
  · intro x y xNonneg xLt yNonneg yLt
    rw [pixelEq x y xNonneg xLt yNonneg, if_pos]
    · simp only [ImagePixels.at, Int.sub_zero]
    · simp only [Block.Contains, Int.zero_add]
      exact ⟨⟨xNonneg, xLt⟩, yNonneg, yLt⟩

/-- `blend_tile` copies the tile to its output corner, cut off at the borders of
the output. -/
theorem blendTile_eq {tileWidth tileHeight : Int} {tileRgb outputRgb : Rgb}
    (widthPos : 0 < tileWidth) (heightPos : 0 < tileHeight)
    (tileSize : (tileRgb.length : Int) = tileWidth * tileHeight * 3)
    (cornerX : 0 ≤ tile.outputX) (cornerY : 0 ≤ tile.outputY)
    (outputWidthPos : 1 ≤ outputWidth) (outputHeightPos : 1 ≤ outputHeight)
    (outputSize : (outputRgb.length : Int) = outputWidth * outputHeight * 3) :
    ∃ out, blendTile tileRgb tileWidth tileHeight tile outputRgb outputWidth outputHeight =
        .ok out ∧ out.length = outputRgb.length ∧
      ∀ x y, 0 ≤ x → x < outputWidth → 0 ≤ y → y < outputHeight →
        pixel 3 outputWidth out x y =
          if (blendBlock tileWidth tileHeight tile outputWidth outputHeight).Contains x y then
            pixel 3 tileWidth tileRgb (x - tile.outputX) (y - tile.outputY)
          else pixel 3 outputWidth outputRgb x y := by
  have outputArea : 0 < outputWidth * outputHeight := Int.mul_pos outputWidthPos outputHeightPos
  have tileArea : 0 < tileWidth * tileHeight := Int.mul_pos widthPos heightPos
  have nonempty : ¬(tileRgb = [] ∨ outputRgb = []) := by
    intro empty
    rcases empty with empty | empty
    · simp only [empty, List.length_nil, Nat.cast_zero] at tileSize
      omega
    · simp only [empty, List.length_nil, Nat.cast_zero] at outputSize
      omega
  simp only [blendTile, if_neg nonempty, blendCopies_eq]
  split
  · next outside =>
      refine ⟨outputRgb, rfl, rfl, ?_⟩
      intro x y _ _ _ _
      rw [if_neg]
      simp only [Block.Contains]
      omega
  · next visible =>
      have fits : Block.Fits (blendBlock tileWidth tileHeight tile outputWidth outputHeight) 3
          outputWidth tileWidth outputRgb.length tileRgb.length := by
        have bottom : tile.outputY + min tileHeight (outputHeight - tile.outputY) ≤
            outputHeight := by omega
        have rows := Int.mul_le_mul_of_nonneg_right bottom (show 0 ≤ outputWidth by omega)
        have tileRows := Int.mul_le_mul_of_nonneg_right
          (Int.min_le_left tileHeight (outputHeight - tile.outputY)) (Int.le_of_lt widthPos)
        simp only [blendBlock] at visible ⊢
        have widthEq : max 0 (min tileWidth (outputWidth - tile.outputX)) =
            min tileWidth (outputWidth - tile.outputX) := by omega
        have heightEq : max 0 (min tileHeight (outputHeight - tile.outputY)) =
            min tileHeight (outputHeight - tile.outputY) := by omega
        rw [widthEq, heightEq] at visible ⊢
        constructor
        case dstX_nonneg => exact cornerX
        case dstY_nonneg => exact cornerY
        case dstY_le =>
          rw [outputSize, Int.mul_comm outputWidth]
          exact Int.mul_le_mul_of_nonneg_right rows (by decide)
        case srcY_le =>
          rw [tileSize, Int.zero_add, Int.mul_comm tileWidth]
          exact Int.mul_le_mul_of_nonneg_right tileRows (by decide)
        all_goals simp only
        all_goals omega
      rcases copyRows_block fits with ⟨out, copyEq, lengthEq, pixelEq⟩
      refine ⟨out, copyEq, lengthEq, ?_⟩
      intro x y xNonneg xLt yNonneg yLt
      rw [pixelEq x y xNonneg xLt yNonneg]
      split
      · simp only [blendBlock, Int.add_zero]
      · rfl

/-- Inside the output, the rectangle blended over holds exactly the pixels the
tile reaches. -/
theorem blendBlock_contains_iff (upscaled : ImagePixels) (aligned : Aligned config tile)
    {x y : Int} (xLt : x < outputWidth) (yLt : y < outputHeight) :
    (blendBlock (blendRegion config tile upscaled).blendWidth
        (blendRegion config tile upscaled).blendHeight tile outputWidth outputHeight).Contains x y ↔
      Reaches config tile upscaled x y := by
  have skipX := aligned.skipX_eq
  have skipY := aligned.skipY_eq
  simp only [blendBlock, blendRegion, Block.Contains, Reaches]
  omega

/-- A tile whose buffer ends within the skipped part reaches no pixel. -/
theorem not_reaches_of_skipped (aligned : Aligned config tile)
    (skipped : (blendRegion config tile upscaled).blendWidth ≤ 0 ∨
      (blendRegion config tile upscaled).blendHeight ≤ 0) (x y : Int) :
    ¬Reaches config tile upscaled x y := by
  have skipX := aligned.skipX_eq
  have skipY := aligned.skipY_eq
  simp only [blendRegion] at skipped
  simp only [Reaches]
  omega

/-- A tile covers exactly the pixels it reaches. -/
theorem placedCopies_covers_iff (aligned : Aligned config tile) {x y : Int}
    (channel : Fin 3) (xNonneg : 0 ≤ x) (xLt : x < outputWidth) (yLt : y < outputHeight) :
    (∃ copy ∈ placedCopies config tile upscaled outputWidth outputHeight,
        copy.Covers ((y * outputWidth + x) * 3 + channel.val)) ↔
      Reaches config tile upscaled x y := by
  simp only [placedCopies]
  split
  · next skipped =>
      have unreached := not_reaches_of_skipped aligned skipped x y
      simp only [List.not_mem_nil, false_and, exists_false, unreached]
  · rw [blendCopies_eq, ← blendBlock_contains_iff upscaled aligned xLt yLt]
    simp only
    split
    · next outside =>
        simp only [List.not_mem_nil, false_and, exists_false, false_iff, Block.Contains]
        omega
    · next visible =>
        apply Block.exists_covers_iff channel xNonneg xLt aligned.outputX_nonneg
        simp only [blendBlock] at visible ⊢
        omega

/-- Blending a tile replaces exactly the pixels it reaches, each by the pixel of
the upscaled tile at the same distance from the tile's corner. -/
theorem placeTile_eq (wellFormed : upscaled.WellFormed) (aligned : Aligned config tile)
    (outputWidthPos : 1 ≤ outputWidth) (outputHeightPos : 1 ≤ outputHeight) {outputRgb : Rgb}
    (size : (outputRgb.length : Int) = outputWidth * outputHeight * 3) :
    ∃ out, placeTile config tile upscaled outputRgb outputWidth outputHeight = .ok out ∧
      out.length = outputRgb.length ∧
      ∀ x y, 0 ≤ x → x < outputWidth → 0 ≤ y → y < outputHeight →
        pixel 3 outputWidth out x y =
          if Reaches config tile upscaled x y then
            upscaled.at (x - tile.x * config.scaleFactor) (y - tile.y * config.scaleFactor)
          else pixel 3 outputWidth outputRgb x y := by
  simp only [placeTile]
  split
  · next skipped =>
      refine ⟨outputRgb, rfl, rfl, ?_⟩
      intro x y _ _ _ _
      rw [if_neg (not_reaches_of_skipped aligned skipped x y)]
  · next shown =>
      have widthPos : 0 < (blendRegion config tile upscaled).blendWidth := by omega
      have heightPos : 0 < (blendRegion config tile upscaled).blendHeight := by omega
      rcases regionToBlend_eq wellFormed aligned widthPos heightPos with
        ⟨regionRgb, regionEq, regionSize, regionPixel⟩
      rcases blendTile_eq widthPos heightPos regionSize aligned.outputX_nonneg
        aligned.outputY_nonneg outputWidthPos outputHeightPos size with
        ⟨out, blendEq, lengthEq, pixelEq⟩
      refine ⟨out, by rw [regionEq, ← blendEq], lengthEq, ?_⟩
      intro x y xNonneg xLt yNonneg yLt
      rw [pixelEq x y xNonneg xLt yNonneg yLt]
      simp only [blendBlock_contains_iff upscaled aligned xLt yLt]
      split
      · next reached =>
          have skipX := aligned.skipX_eq
          have skipY := aligned.skipY_eq
          simp only [Reaches] at reached
          have right : x - tile.outputX < (blendRegion config tile upscaled).blendWidth := by
            simp only [blendRegion]
            omega
          have below : y - tile.outputY < (blendRegion config tile upscaled).blendHeight := by
            simp only [blendRegion]
            omega
          have column : x - tile.outputX + (blendRegion config tile upscaled).srcOffsetX =
              x - tile.x * config.scaleFactor := by
            simp only [blendRegion]
            omega
          have row : y - tile.outputY + (blendRegion config tile upscaled).srcOffsetY =
              y - tile.y * config.scaleFactor := by
            simp only [blendRegion]
            omega
          rw [regionPixel _ _ (by omega) right (by omega) below, column, row]
      · rfl

/-! ## The tile loop -/

/-- Every buffer the engine returns has the size it reports. -/
def RgbEngine.Sound {σ : Type} (engine : RgbEngine σ) : Prop :=
  ∀ (state : σ) (rgbData : Rgb) (width height : Int) (upscaled : ImagePixels),
    1 ≤ width → 1 ≤ height → (rgbData.length : Int) = width * height * 3 →
    (engine.processRgb state rgbData width height).2 = some upscaled → upscaled.WellFormed

/-- The engine always returns a buffer of exactly the scaled size. -/
def RgbEngine.Scales {σ : Type} (engine : RgbEngine σ) (scale : Int) : Prop :=
  ∀ (state : σ) (rgbData : Rgb) (width height : Int),
    1 ≤ width → 1 ≤ height → (rgbData.length : Int) = width * height * 3 →
    ∃ upscaled, (engine.processRgb state rgbData width height).2 = some upscaled ∧
      upscaled.width = width * scale ∧ upscaled.height = height * scale ∧
      (upscaled.pixels.length : Int) = upscaled.width * upscaled.height * 3

/-- A completed iteration: the pixels given to the engine are the tile's rectangle
of the source, and the upscaled tile is what the engine returned for them. -/
structure TileRun.Traced {σ : Type} (engine : RgbEngine σ) (source : ImagePixels)
    (run : TileRun) : Prop where
  inside : run.tile.Inside source.width source.height
  size_eq : (run.tileRgb.length : Int) = run.tile.width * run.tile.height * 3
  pixel_eq : ∀ x y, 0 ≤ x → x < run.tile.width → 0 ≤ y → y < run.tile.height →
    pixel 3 run.tile.width run.tileRgb x y = source.at (run.tile.x + x) (run.tile.y + y)
  produced : ∃ state,
    (engine.processRgb state run.tileRgb run.tile.width run.tile.height).2 = some run.upscaled

/-- The engine reports failure for one of the tiles. -/
def RgbEngine.Fails {σ : Type} (engine : RgbEngine σ) : Prop :=
  ∃ (state : σ) (rgbData : Rgb) (width height : Int),
    1 ≤ width ∧ 1 ≤ height ∧ (rgbData.length : Int) = width * height * 3 ∧
      (engine.processRgb state rgbData width height).2 = none

/-- The pixel of the output after the loop is that of a tile that reaches it, or
the one from before when none does. -/
def Overlaid (config : TilingConfig) (outputWidth : Int) (runs : List TileRun)
    (before after : Rgb) (x y : Int) : Prop :=
  (∃ run ∈ runs, Reaches config run.tile run.upscaled x y ∧
      pixel 3 outputWidth after x y = run.upscaled.at (x - run.tile.x * config.scaleFactor)
        (y - run.tile.y * config.scaleFactor)) ∨
    (∀ run ∈ runs, ¬Reaches config run.tile run.upscaled x y) ∧
      pixel 3 outputWidth after x y = pixel 3 outputWidth before x y

variable {σ : Type} {engine : RgbEngine σ} {source : ImagePixels}

/-- The tile loop fails only when the engine does, and otherwise overlays the
upscaled tiles. -/
theorem tileLoop_spec (sound : engine.Sound) (wellFormed : source.WellFormed)
    (outputWidthPos : 1 ≤ outputWidth) (outputHeightPos : 1 ≤ outputHeight)
    (tiles : List Tile)
    (placed : ∀ tile ∈ tiles, tile.Inside source.width source.height ∧ Aligned config tile)
    (state : σ) {outputRgb : Rgb}
    (size : (outputRgb.length : Int) = outputWidth * outputHeight * 3) :
    let loop := tileLoop engine (extractTile source.pixels source.width source.height)
      (fun tile upscaled outputRgb =>
        placeTile config tile upscaled outputRgb outputWidth outputHeight) tiles state outputRgb
    (loop.result = .error .failed ∧ engine.Fails) ∨
      ∃ out, loop.result = .ok out ∧ out.length = outputRgb.length ∧
        loop.runs.map TileRun.tile = tiles ∧
        (∀ run ∈ loop.runs, run.Traced engine source) ∧
        ∀ x y, 0 ≤ x → x < outputWidth → 0 ≤ y → y < outputHeight →
          Overlaid config outputWidth loop.runs outputRgb out x y := by
  induction tiles generalizing state outputRgb with
  | nil =>
      refine .inr ⟨outputRgb, rfl, rfl, rfl, ?_, ?_⟩
      · intro run member
        cases member
      · intro x y _ _ _ _
        exact .inr ⟨fun run member => absurd member List.not_mem_nil, rfl⟩
  | cons tile tiles ih =>
      rcases placed tile List.mem_cons_self with ⟨inside, aligned⟩
      rcases extractTile_eq wellFormed inside with ⟨tileRgb, extractEq, sizeEq, pixelEq⟩
      simp only [tileLoop, extractEq]
      split
      · next after failedEq =>
          refine .inl ⟨rfl, state, tileRgb, _, _, inside.width_pos, inside.height_pos, sizeEq, ?_⟩
          rw [failedEq]
      · next after upscaled producedEq =>
          have produced : (engine.processRgb state tileRgb tile.width tile.height).2 =
              some upscaled := by rw [producedEq]
          have upscaledOk := sound _ _ _ _ _ inside.width_pos inside.height_pos sizeEq produced
          rcases placeTile_eq upscaledOk aligned outputWidthPos outputHeightPos size with
            ⟨middle, placeEq, middleLength, middlePixel⟩
          simp only [placeEq]
          have later : ∀ tile ∈ tiles, tile.Inside source.width source.height ∧
              Aligned config tile := by
            intro other member
            exact placed other (List.mem_cons_of_mem tile member)
          have middleSize : (middle.length : Int) = outputWidth * outputHeight * 3 := by
            rw [middleLength, size]
          rcases ih later after middleSize with ⟨failed, fails⟩ |
            ⟨out, okEq, lengthEq, tilesEq, traced, overlaid⟩
          · exact .inl ⟨failed, fails⟩
          · refine .inr ⟨out, okEq, lengthEq.trans middleLength, ?_, ?_, ?_⟩
            · rw [List.map_cons, tilesEq]
            · intro run member
              rcases List.mem_cons.mp member with first | rest
              · subst first
                exact ⟨inside, sizeEq, pixelEq, state, produced⟩
              · exact traced run rest
            · intro x y xNonneg xLt yNonneg yLt
              rcases overlaid x y xNonneg xLt yNonneg yLt with
                ⟨run, member, reached, valueEq⟩ | ⟨unreached, valueEq⟩
              · exact .inl ⟨run, List.mem_cons_of_mem _ member, reached, valueEq⟩
              · rw [middlePixel x y xNonneg xLt yNonneg yLt] at valueEq
                split at valueEq
                · next reached => exact .inl ⟨_, List.mem_cons_self, reached, valueEq⟩
                · next missed =>
                    refine .inr ⟨?_, valueEq⟩
                    intro run member
                    rcases List.mem_cons.mp member with first | rest
                    · subst first
                      exact missed
                    · exact unreached run rest

/-! ## The assembled output -/

/-- The tiled path fails only when the engine does, and otherwise overlays the
upscaled tiles on a buffer of the scaled size. -/
theorem assemble_spec (valid : config.Valid) (wellFormed : source.WellFormed)
    (widthPos : 1 ≤ source.width) (heightPos : 1 ≤ source.height) (sound : engine.Sound)
    (state : σ) :
    let loop := assemble engine config source state
    (loop.result = .error .failed ∧ engine.Fails) ∨
      ∃ blank out, loop.result = .ok out ∧
        (out.length : Int) =
          source.width * config.scaleFactor * (source.height * config.scaleFactor) * 3 ∧
        loop.runs.map TileRun.tile = calculateTiles source.width source.height config ∧
        (∀ run ∈ loop.runs, run.Traced engine source) ∧
        ∀ x y, 0 ≤ x → x < source.width * config.scaleFactor → 0 ≤ y →
          y < source.height * config.scaleFactor →
          Overlaid config (source.width * config.scaleFactor) loop.runs blank out x y := by
  have scalePos := valid.scale_pos
  have outputWidthPos : 1 ≤ source.width * config.scaleFactor :=
    Int.mul_pos (by omega) (by omega)
  have outputHeightPos : 1 ≤ source.height * config.scaleFactor :=
    Int.mul_pos (by omega) (by omega)
  have area : 0 < source.width * config.scaleFactor * (source.height * config.scaleFactor) :=
    Int.mul_pos outputWidthPos outputHeightPos
  rcases allocate_ok (show 0 ≤ source.width * config.scaleFactor *
    (source.height * config.scaleFactor) * 3 by omega) with ⟨blank, allocateEq, blankSize⟩
  have placed : ∀ tile ∈ calculateTiles source.width source.height config,
      tile.Inside source.width source.height ∧ Aligned config tile := by
    intro tile member
    rcases mem_calculateTiles.mp member with ⟨tx, ty, txLt, tyLt, tileEq⟩
    subst tileEq
    exact ⟨tileAt_inside valid widthPos heightPos txLt tyLt, tileAt_aligned valid tx ty⟩
  simp only [assemble, if_neg calculateTiles_ne_nil, allocateEq]
  rcases tileLoop_spec sound wellFormed outputWidthPos outputHeightPos _ placed state
    blankSize with ⟨failed, fails⟩ | ⟨out, okEq, lengthEq, tilesEq, traced, overlaid⟩
  · exact .inl ⟨failed, fails⟩
  · exact .inr ⟨blank, out, okEq, by rw [lengthEq, blankSize], tilesEq, traced, overlaid⟩

/-- The tile's copies write the byte of one channel of a pixel of the output. -/
def TileRun.Writes (config : TilingConfig) (outputWidth outputHeight : Int) (run : TileRun)
    (x y : Int) (channel : Fin 3) : Prop :=
  ∃ copy ∈ placedCopies config run.tile run.upscaled outputWidth outputHeight,
    copy.Covers ((y * outputWidth + x) * 3 + channel.val)

instance (config : TilingConfig) (outputWidth outputHeight : Int) (run : TileRun) (x y : Int)
    (channel : Fin 3) : Decidable (run.Writes config outputWidth outputHeight x y channel) :=
  inferInstanceAs (Decidable (∃ copy ∈ _, _))

/-- The iteration of a tile writes exactly the pixels the tile reaches. -/
theorem TileRun.writes_iff (valid : config.Valid) {run : TileRun} {imageWidth imageHeight : Int}
    (listed : run.tile ∈ calculateTiles imageWidth imageHeight config) {x y : Int}
    (xNonneg : 0 ≤ x) (xLt : x < outputWidth) (yLt : y < outputHeight) (channel : Fin 3) :
    run.Writes config outputWidth outputHeight x y channel ↔
      Reaches config run.tile run.upscaled x y := by
  rcases mem_calculateTiles.mp listed with ⟨tx, ty, _, _, tileEq⟩
  have aligned : Aligned config run.tile := by
    rw [tileEq]
    exact tileAt_aligned valid tx ty
  exact placedCopies_covers_iff aligned channel xNonneg xLt yLt

/-- A position lies between scaled bounds exactly when the source position it
comes from lies between the bounds. -/
theorem scaled_mem_iff {scale : Int} (positive : 1 ≤ scale) (lower upper position : Int) :
    (lower * scale ≤ position ∧ position < upper * scale) ↔
      lower ≤ position / scale ∧ position / scale < upper := by
  rw [Int.le_ediv_iff_mul_le (by omega), Int.ediv_lt_iff_lt_mul (by omega)]

/-- A tile upscaled to exactly its scaled size reaches the pixels that come from
the part of the source it keeps. -/
theorem reaches_iff_kept (valid : config.Valid) (widthPos : 1 ≤ source.width)
    (heightPos : 1 ≤ source.height) {tx ty : Nat}
    (tileEq : tile = tileAt source.width source.height config tx ty)
    (upscaledWidth : upscaled.width = tile.width * config.scaleFactor)
    (upscaledHeight : upscaled.height = tile.height * config.scaleFactor) (x y : Int) :
    Reaches config tile upscaled x y ↔
      ((axis valid widthPos).keptFrom tx ≤ x / config.scaleFactor ∧
          x / config.scaleFactor < (axis valid widthPos).keptTo tx) ∧
        (axis valid heightPos).keptFrom ty ≤ y / config.scaleFactor ∧
          y / config.scaleFactor < (axis valid heightPos).keptTo ty := by
  subst tileEq
  rw [← scaled_mem_iff valid.scale_pos, ← scaled_mem_iff valid.scale_pos]
  simp only [Reaches, upscaledWidth, upscaledHeight, ← Int.add_mul]
  rw [tileAt_x valid widthPos, tileAt_width valid widthPos, tileAt_outputX valid widthPos,
    tileAt_y valid heightPos, tileAt_height valid heightPos, tileAt_outputY valid heightPos]
  rfl

theorem RgbEngine.Scales.sound {scale : Int} (positive : 1 ≤ scale)
    (scales : engine.Scales scale) : engine.Sound := by
  intro state rgbData width height upscaled widthPos heightPos size produced
  rcases scales state rgbData width height widthPos heightPos size with
    ⟨other, otherEq, widthEq, heightEq, sizeEq⟩
  rw [produced] at otherEq
  cases otherEq
  refine ⟨?_, ?_, sizeEq⟩
  · rw [widthEq]
    exact Int.mul_nonneg (by omega) (by omega)
  · rw [heightEq]
    exact Int.mul_nonneg (by omega) (by omega)

theorem RgbEngine.Scales.not_fails {scale : Int} (scales : engine.Scales scale) :
    ¬engine.Fails := by
  intro fails
  rcases fails with ⟨state, rgbData, width, height, widthPos, heightPos, size, failed⟩
  rcases scales state rgbData width height widthPos heightPos size with ⟨upscaled, produced, _⟩
  rw [failed] at produced
  cases produced

/-- What an engine that scales exactly returned in a completed iteration. -/
theorem TileRun.Traced.scaled {scale : Int} (scales : engine.Scales scale) {run : TileRun}
    (traced : run.Traced engine source) :
    run.upscaled.width = run.tile.width * scale ∧
      run.upscaled.height = run.tile.height * scale := by
  rcases traced.produced with ⟨state, produced⟩
  rcases scales state _ _ _ traced.inside.width_pos traced.inside.height_pos traced.size_eq with
    ⟨upscaled, otherEq, widthEq, heightEq, _⟩
  rw [produced] at otherEq
  cases otherEq
  exact ⟨widthEq, heightEq⟩

/-- Every pixel of the output comes from a part of the source that one tile, and
no other, keeps. -/
theorem exists_keeper (valid : config.Valid) (widthPos : 1 ≤ source.width)
    (heightPos : 1 ≤ source.height) {x y : Int} (xNonneg : 0 ≤ x)
    (xLt : x < source.width * config.scaleFactor) (yNonneg : 0 ≤ y)
    (yLt : y < source.height * config.scaleFactor) :
    ∃ tx ty : Nat, (tx : Int) < tileCount source.width config ∧
      (ty : Int) < tileCount source.height config ∧
      ((axis valid widthPos).keptFrom tx ≤ x / config.scaleFactor ∧
          x / config.scaleFactor < (axis valid widthPos).keptTo tx) ∧
        (axis valid heightPos).keptFrom ty ≤ y / config.scaleFactor ∧
          y / config.scaleFactor < (axis valid heightPos).keptTo ty := by
  have column := (scaled_mem_iff valid.scale_pos 0 source.width x).mp
    (by simpa using ⟨xNonneg, xLt⟩)
  have row := (scaled_mem_iff valid.scale_pos 0 source.height y).mp (by simpa using ⟨yNonneg, yLt⟩)
  rcases (axis valid widthPos).exists_kept column.1 column.2 with ⟨tx, txLt, keptX⟩
  rcases (axis valid heightPos).exists_kept row.1 row.2 with ⟨ty, tyLt, keptY⟩
  exact ⟨tx, ty, txLt, tyLt, keptX, keptY⟩

/-- Two exactly scaled tiles that reach the same pixel are the same tile. -/
theorem tile_unique (valid : config.Valid) (widthPos : 1 ≤ source.width)
    (heightPos : 1 ≤ source.height) (scales : engine.Scales config.scaleFactor)
    {run other : TileRun} (traced : run.Traced engine source)
    (otherTraced : other.Traced engine source)
    (member : run.tile ∈ calculateTiles source.width source.height config)
    (otherMember : other.tile ∈ calculateTiles source.width source.height config) {x y : Int}
    (reached : Reaches config run.tile run.upscaled x y)
    (otherReached : Reaches config other.tile other.upscaled x y) : run.tile = other.tile := by
  rcases mem_calculateTiles.mp member with ⟨tx, ty, txLt, tyLt, tileEq⟩
  rcases mem_calculateTiles.mp otherMember with ⟨otherTx, otherTy, otherTxLt, otherTyLt, otherEq⟩
  rcases traced.scaled scales with ⟨widthEq, heightEq⟩
  rcases otherTraced.scaled scales with ⟨otherWidth, otherHeight⟩
  rw [reaches_iff_kept valid widthPos heightPos tileEq widthEq heightEq] at reached
  rw [reaches_iff_kept valid widthPos heightPos otherEq otherWidth otherHeight] at otherReached
  have column := (axis valid widthPos).kept_unique txLt otherTxLt reached.1 otherReached.1
  have row := (axis valid heightPos).kept_unique tyLt otherTyLt reached.2 otherReached.2
  rw [tileEq, otherEq, column, row]

/-- Some iteration reaches every pixel when the tiles are exactly scaled. -/
theorem exists_reaching (valid : config.Valid) (widthPos : 1 ≤ source.width)
    (heightPos : 1 ≤ source.height) (scales : engine.Scales config.scaleFactor)
    {runs : List TileRun}
    (tilesEq : runs.map TileRun.tile = calculateTiles source.width source.height config)
    (traced : ∀ run ∈ runs, run.Traced engine source) {x y : Int} (xNonneg : 0 ≤ x)
    (xLt : x < source.width * config.scaleFactor) (yNonneg : 0 ≤ y)
    (yLt : y < source.height * config.scaleFactor) :
    ∃ run ∈ runs, Reaches config run.tile run.upscaled x y := by
  rcases exists_keeper valid widthPos heightPos xNonneg xLt yNonneg yLt with
    ⟨tx, ty, txLt, tyLt, kept⟩
  have member := mem_calculateTiles.mpr ⟨tx, ty, txLt, tyLt, rfl⟩
  rw [← tilesEq] at member
  rcases List.mem_map.mp member with ⟨run, runMember, tileEq⟩
  rcases (traced run runMember).scaled scales with ⟨widthEq, heightEq⟩
  exact ⟨run, runMember,
    (reaches_iff_kept valid widthPos heightPos tileEq widthEq heightEq x y).mpr kept⟩

/-- With an engine that scales exactly, the tiled path succeeds.  Every tile is a
nonempty part of the source, cutting it out gives exactly its rectangle, and each
pixel of the output is written by the iteration of exactly one tile, with the
pixel that tile's upscaled buffer has at the same distance from its corner. -/
theorem tiled_assembly_exact (valid : config.Valid) (wellFormed : source.WellFormed)
    (widthPos : 1 ≤ source.width) (heightPos : 1 ≤ source.height)
    (scales : engine.Scales config.scaleFactor) (state : σ) :
    let scale := config.scaleFactor
    let tiles := calculateTiles source.width source.height config
    let loop := assemble engine config source state
    (∀ tile ∈ tiles, tile.Inside source.width source.height ∧
      ∃ data, extractTile source.pixels source.width source.height tile = .ok data ∧
        (data.length : Int) = tile.width * tile.height * 3 ∧
        ∀ x y, 0 ≤ x → x < tile.width → 0 ≤ y → y < tile.height →
          pixel 3 tile.width data x y = source.at (tile.x + x) (tile.y + y)) ∧
    ∃ out, loop.result = .ok out ∧
      (out.length : Int) = source.width * scale * (source.height * scale) * 3 ∧
      loop.runs.map TileRun.tile = tiles ∧ (∀ run ∈ loop.runs, run.Traced engine source) ∧
      ∀ x y, 0 ≤ x → x < source.width * scale → 0 ≤ y → y < source.height * scale →
        ∃ (index : Nat) (run : TileRun), loop.runs[index]? = some run ∧
          (∀ channel,
            run.Writes config (source.width * scale) (source.height * scale) x y channel) ∧
          pixel 3 (source.width * scale) out x y =
            run.upscaled.at (x - run.tile.x * scale) (y - run.tile.y * scale) ∧
          ∀ (other : Nat) (otherRun : TileRun) (channel : Fin 3),
            loop.runs[other]? = some otherRun →
            otherRun.Writes config (source.width * scale) (source.height * scale) x y channel →
            other = index := by
  intro scale tiles loop
  constructor
  · intro tile member
    rcases mem_calculateTiles.mp member with ⟨tx, ty, txLt, tyLt, tileEq⟩
    subst tileEq
    have inside := tileAt_inside valid widthPos heightPos txLt tyLt
    exact ⟨inside, extractTile_eq wellFormed inside⟩
  · rcases assemble_spec valid wellFormed widthPos heightPos
      (scales.sound valid.scale_pos) state with
      ⟨_, fails⟩ | ⟨blank, out, okEq, sizeEq, tilesEq, traced, overlaid⟩
    · exact absurd fails scales.not_fails
    · refine ⟨out, okEq, sizeEq, tilesEq, traced, ?_⟩
      intro x y xNonneg xLt yNonneg yLt
      have listed : ∀ run ∈ loop.runs, run.tile ∈ tiles := by
        intro run member
        have mapped : run.tile ∈ loop.runs.map TileRun.tile := List.mem_map_of_mem member
        rw [tilesEq] at mapped
        exact mapped
      rcases overlaid x y xNonneg xLt yNonneg yLt with
        ⟨run, member, reached, valueEq⟩ | ⟨unreached, _⟩
      · rcases List.mem_iff_getElem?.mp member with ⟨index, indexEq⟩
        refine ⟨index, run, indexEq, ?_, valueEq, ?_⟩
        · intro channel
          exact (TileRun.writes_iff valid (listed run member) xNonneg xLt yLt channel).mpr reached
        · intro other otherRun channel otherEq otherWrites
          have otherMember := List.mem_of_getElem? otherEq
          have otherReached := (TileRun.writes_iff valid (listed otherRun otherMember) xNonneg xLt
            yLt channel).mp otherWrites
          have sameTile := tile_unique valid widthPos heightPos scales (traced run member)
            (traced otherRun otherMember) (listed run member) (listed otherRun otherMember)
            reached otherReached
          have distinct := calculateTiles_nodup valid widthPos heightPos
          rw [← tilesEq] at distinct
          have inRange : other < (loop.runs.map TileRun.tile).length := by
            rw [List.length_map]
            exact (List.getElem?_eq_some_iff.mp otherEq).1
          apply (List.getElem?_inj inRange distinct).mp
          rw [List.getElem?_map, List.getElem?_map, otherEq, indexEq, Option.map_some,
            Option.map_some, sameTile]
      · rcases exists_reaching valid widthPos heightPos scales tilesEq traced xNonneg xLt
          yNonneg yLt with ⟨run, member, reached⟩
        exact absurd reached (unreached run member)

/-- An engine that paints everything grey, on an image of six tiles. -/
theorem tiled_assembly_exact_six :
    let engine : RgbEngine Unit :=
      { processRgb := fun _ _ width height =>
          ((), some
            { width := width * 2, height := height * 2, channels := 3
              pixels := List.replicate (width * 2 * (height * 2) * 3).toNat 128 }) }
    let config : TilingConfig := { tileSize := 3, overlap := 1, scaleFactor := 2 }
    let source : ImagePixels :=
      { width := 6, height := 4, channels := 3, pixels := List.replicate 72 1 }
    let loop := assemble engine config source ()
    loop.runs.map TileRun.tile = calculateTiles 6 4 config ∧
      ∃ out, loop.result = .ok out ∧ (out.length : Int) = 6 * 2 * (4 * 2) * 3 := by
  intro engine config source loop
  have scales : engine.Scales 2 := by
    intro state rgbData width height widthPos heightPos _
    have area : 0 ≤ width * 2 * (height * 2) := Int.mul_nonneg (by omega) (by omega)
    refine ⟨_, rfl, rfl, rfl, ?_⟩
    simp only [List.length_replicate]
    exact Int.toNat_of_nonneg (by omega)
  have valid : config.Valid := ⟨by decide, by decide, by decide⟩
  have wellFormed : source.WellFormed := ⟨by decide, by decide, by decide⟩
  rcases (tiled_assembly_exact valid wellFormed (by decide) (by decide) scales ()).2 with
    ⟨out, okEq, sizeEq, tilesEq, _⟩
  exact ⟨tilesEq, out, okEq, sizeEq⟩

end NcnnUpscaler.Tiling
