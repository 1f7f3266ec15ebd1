import NcnnUpscaler.Tiling.Wrapping

/-!
# Holes

The tiled path compares no returned dimensions with the expected ones: a buffer
that is too small is blended as far as it goes, or skipped.  The output then has
pixels that no tile wrote although the call succeeds.  It has none exactly when
its size does not wrap around and the returned buffers reach the far corner of every
tile.
-/

namespace NcnnUpscaler.Tiling

open Raster

variable {σ : Type} {engine : RgbEngine σ} {config : TilingConfig} {source : ImagePixels}

/-- What the engine returns for the tiles, asked for one after the other. -/
def answers (engine : RgbEngine σ) (source : ImagePixels) :
    List Tile → σ → List (Option ImagePixels)
  | [], _ => []
  | tile :: tiles, state =>
      match extractTile source.pixels source.width source.height tile with
      | .error _ => []
      | .ok tileRgb =>
          let (after, answer) := engine.processRgb state tileRgb tile.width tile.height
          answer :: answers engine source tiles after

/-- The returned buffers reach the far corner of every tile: some tile that starts
at or before it in both directions is answered with a buffer that, placed at that
tile's scaled origin, ends at or after the corner. -/
def ReachCorners (config : TilingConfig) (tiles : List Tile)
    (returned : List (Option ImagePixels)) : Prop :=
  ∀ tile ∈ tiles, ∃ (index : Nat) (other : Tile) (upscaled : ImagePixels),
    tiles[index]? = some other ∧ returned[index]? = some (some upscaled) ∧
      other.x ≤ tile.x ∧ other.y ≤ tile.y ∧
      (tile.x + tile.width) * config.scaleFactor ≤
        other.x * config.scaleFactor + upscaled.width ∧
      (tile.y + tile.height) * config.scaleFactor ≤
        other.y * config.scaleFactor + upscaled.height

/-- A loop that succeeds completed an iteration for each answer of the engine. -/
theorem answers_eq {extract : Tile → Except Stop Rgb}
    {place : Tile → ImagePixels → Rgb → Except Stop Rgb} {tiles : List Tile}
    (same : ∀ tile ∈ tiles,
      extract tile = extractTile source.pixels source.width source.height tile)
    (state : σ) (outputRgb : Rgb) {out : Rgb}
    (success : (tileLoop engine extract place tiles state outputRgb).result = .ok out) :
    answers engine source tiles state =
      (tileLoop engine extract place tiles state outputRgb).runs.map
        fun run => some run.upscaled := by
  induction tiles generalizing state outputRgb with
  | nil => rfl
  | cons tile tiles ih =>
      have later := ih fun other member => same other (List.mem_cons_of_mem tile member)
      simp only [tileLoop, answers, same tile List.mem_cons_self] at success ⊢
      split
      · next stop extractEq =>
          simp only [extractEq] at success
          cases success
      · next tileRgb extractEq =>
          simp only [extractEq] at success ⊢
          split at success
          · cases success
          · next after upscaled producedEq =>
              simp only [producedEq] at success ⊢
              split at success
              · cases success
              · next middle placeEq =>
                  simp only [List.map_cons]
                  rw [later after middle success]

/-- An iteration of a successful loop, by its position: its tile, and the buffer
the engine answered it with. -/
theorem exists_run_iff {runs : List TileRun} {tiles : List Tile}
    {returned : List (Option ImagePixels)} (tilesEq : runs.map TileRun.tile = tiles)
    (returnedEq : returned = runs.map fun run => some run.upscaled) {tile : Tile}
    {upscaled : ImagePixels} :
    (∃ run ∈ runs, run.tile = tile ∧ run.upscaled = upscaled) ↔
      ∃ index : Nat, tiles[index]? = some tile ∧ returned[index]? = some (some upscaled) := by
  subst tilesEq returnedEq
  simp only [List.getElem?_map, Option.map_eq_some_iff, Option.some.injEq]
  constructor
  · intro completed
    rcases completed with ⟨run, member, tileEq, upscaledEq⟩
    rcases List.mem_iff_getElem?.mp member with ⟨index, indexEq⟩
    exact ⟨index, ⟨run, indexEq, tileEq⟩, run, indexEq, upscaledEq⟩
  · intro listed
    rcases listed with ⟨index, ⟨run, indexEq, tileEq⟩, other, otherEq, upscaledEq⟩
    rw [indexEq] at otherEq
    cases otherEq
    exact ⟨run, List.mem_of_getElem? indexEq, tileEq, upscaledEq⟩

section OneAxis

variable (axis : Covering.Axis) {scale : Int} (scalePos : 0 < scale)
include scalePos

/-- The last scaled position a segment keeps lies in the scaled axis. -/
theorem last_kept_inside {index : Nat} (inRange : (index : Int) < axis.count) :
    0 ≤ axis.keptTo index * scale - 1 ∧ axis.keptTo index * scale - 1 < axis.size * scale := by
  have nonneg := axis.keptFrom_nonneg index
  have shown := axis.keptFrom_lt_keptTo inRange
  have ends := Int.mul_le_mul_of_nonneg_right (axis.keptTo_le index) (Int.le_of_lt scalePos)
  have positive : 0 < axis.keptTo index * scale := Int.mul_pos (by omega) scalePos
  omega

/-- A segment that reaches the last position another keeps does not start after
it. -/
theorem start_le_of_reaches {index other : Nat} (inRange : (index : Int) < axis.count)
    (otherInRange : (other : Int) < axis.count)
    (reaches : axis.keptFrom other * scale ≤ axis.keptTo index * scale - 1) :
    axis.start other ≤ axis.start index := by
  have overlaps : axis.keptFrom other < axis.keptTo index :=
    Int.lt_of_mul_lt_mul_right (by omega) (Int.le_of_lt scalePos)
  exact axis.start_mono (axis.le_of_keptFrom_lt_keptTo inRange overlaps otherInRange)

/-- A segment that does not start after another shows whatever the other keeps,
as far as it goes. -/
theorem keptFrom_le_of_start_le {index other : Nat} {position : Int}
    (startLe : axis.start other ≤ axis.start index)
    (kept : axis.keptFrom index ≤ position / scale) :
    axis.keptFrom other * scale ≤ position := by
  have ordered := axis.keptFrom_mono (axis.le_of_start_le startLe)
  exact (Int.le_ediv_iff_mul_le scalePos).mp (Int.le_trans ordered kept)

end OneAxis

/-- The pixels of the output are all reached exactly when the far corners of the
tiles are. -/
theorem all_reached_iff (valid : config.Valid) (widthPos : 1 ≤ source.width)
    (heightPos : 1 ≤ source.height) {runs : List TileRun}
    {returned : List (Option ImagePixels)}
    (tilesEq : runs.map TileRun.tile = calculateTiles source.width source.height config)
    (returnedEq : returned = runs.map fun run => some run.upscaled) :
    (∀ x y, 0 ≤ x → x < source.width * config.scaleFactor → 0 ≤ y →
        y < source.height * config.scaleFactor →
        ∃ run ∈ runs, Reaches config run.tile run.upscaled x y) ↔
      ReachCorners config (calculateTiles source.width source.height config) returned := by
  have scalePos : 0 < config.scaleFactor := valid.scale_pos
  constructor
  · intro reached tile member
    rcases mem_calculateTiles.mp member with ⟨tx, ty, txLt, tyLt, tileEq⟩
    have cornerX := last_kept_inside (axis valid widthPos) scalePos txLt
    have cornerY := last_kept_inside (axis valid heightPos) scalePos tyLt
    rcases reached _ _ cornerX.1 cornerX.2 cornerY.1 cornerY.2 with
      ⟨run, runMember, ⟨leftLe, right⟩, topLe, bottom⟩
    have listed : run.tile ∈ calculateTiles source.width source.height config := by
      rw [← tilesEq]
      exact List.mem_map_of_mem runMember
    rcases mem_calculateTiles.mp listed with ⟨otherTx, otherTy, otherTxLt, otherTyLt, otherEq⟩
    rcases (exists_run_iff tilesEq returnedEq).mp ⟨run, runMember, rfl, rfl⟩ with
      ⟨index, tileAtIndex, returnedAtIndex⟩
    refine ⟨index, run.tile, run.upscaled, tileAtIndex, returnedAtIndex, ?_⟩
    rw [otherEq] at leftLe topLe right bottom ⊢
    subst tileEq
    exact ⟨start_le_of_reaches (axis valid widthPos) scalePos txLt otherTxLt leftLe,
      start_le_of_reaches (axis valid heightPos) scalePos tyLt otherTyLt topLe,
      Int.le_of_sub_one_lt right, Int.le_of_sub_one_lt bottom⟩
  · intro corners x y xNonneg xLt yNonneg yLt
    rcases exists_keeper valid widthPos heightPos xNonneg xLt yNonneg yLt with
      ⟨tx, ty, txLt, tyLt, keptX, keptY⟩
    have listed := mem_calculateTiles.mpr ⟨tx, ty, txLt, tyLt, rfl⟩
    rcases corners _ listed with
      ⟨index, other, upscaled, otherEq, returnedAt, leftLe, topLe, right, bottom⟩
    rcases (exists_run_iff tilesEq returnedEq).mpr ⟨index, otherEq, returnedAt⟩ with
      ⟨run, member, tileEq, upscaledEq⟩
    refine ⟨run, member, ?_⟩
    rw [tileEq, upscaledEq]
    rcases mem_calculateTiles.mp (List.mem_of_getElem? otherEq) with
      ⟨otherTx, otherTy, _, _, otherTileEq⟩
    subst otherTileEq
    have endX := (scaled_mem_iff valid.scale_pos _ _ x).mpr keptX
    have endY := (scaled_mem_iff valid.scale_pos _ _ y).mpr keptY
    have startX := keptFrom_le_of_start_le (axis valid widthPos) scalePos leftLe keptX.1
    have startY := keptFrom_le_of_start_le (axis valid heightPos) scalePos topLe keptY.1
    exact ⟨⟨startX, Int.lt_of_lt_of_le endX.2 right⟩, startY, Int.lt_of_lt_of_le endY.2 bottom⟩

theorem assemble32_answers (valid : config.Valid) (wellFormed : source.WellFormed)
    (widthPos : 1 ≤ source.width) (heightPos : 1 ≤ source.height)
    (small : scaledBytes config source.width source.height < 2 ^ 31) {state : σ} {out : Rgb}
    (success : (assemble32 engine config source state).result = .ok out) :
    answers engine source (calculateTiles source.width source.height config) state =
      (assemble32 engine config source state).runs.map fun run => some run.upscaled := by
  have same : ∀ tile ∈ calculateTiles source.width source.height config,
      extractTile32 source.pixels source.width source.height tile =
        extractTile source.pixels source.width source.height tile := by
    intro tile made
    rcases mem_calculateTiles.mp made with ⟨tx, ty, txLt, tyLt, tileEq⟩
    have inside := tileAt_inside valid widthPos heightPos txLt tyLt
    rw [← tileEq] at inside
    rcases extractTile_eq wellFormed inside with ⟨tileRgb, extractEq, sizeEq, _⟩
    rcases extracted_lt valid widthPos heightPos small wellFormed rfl rfl inside sizeEq with
      ⟨tileSmall, sourceSmall⟩
    rw [extractEq, extractTile32_eq extractEq tileSmall sourceSmall]
  simp only [assemble32, map_wrappedTile valid widthPos heightPos small,
    if_neg calculateTiles_ne_nil] at success ⊢
  split
  · next stop allocateEq =>
      simp only [allocateEq] at success
      cases success
  · next blank allocateEq =>
      simp only [allocateEq] at success
      exact answers_eq same state blank success

/-- On the tiled path the call succeeds only if the loop did. -/
theorem processWithTiling32_tiled {codec : Codec} {inputData : List UInt8}
    {outputFormat : String} {state : σ} {output : List UInt8}
    (decoded : codec.decodeImage inputData = some source)
    (tiled : shouldEnableTiling source.width source.height config = true)
    (success : (processWithTiling32 engine codec config inputData outputFormat state).result =
      .ok output) :
    (processWithTiling32 engine codec config inputData outputFormat state).runs =
        (assemble32 engine config source state).runs ∧
      ∃ out, (assemble32 engine config source state).result = .ok out := by
  simp only [processWithTiling32, decoded, tiled, if_true, TileLoop.finish, true_and]
    at success ⊢
  split at success
  · cases success
  · next out okEq => exact ⟨out, okEq⟩

/-- The tile's copies write the byte of one channel of a pixel of the scaled image. -/
def TileRun.Writes32 (config : TilingConfig) (width height : Int) (run : TileRun) (x y : Int)
    (channel : Fin 3) : Prop :=
  ∃ copy ∈ placedCopies32 config run.tile run.upscaled (outputExtent config width)
      (outputExtent config height),
    copy.Covers ((y * (width * config.scaleFactor) + x) * 3 + channel.val)

instance (config : TilingConfig) (width height : Int) (run : TileRun) (x y : Int)
    (channel : Fin 3) : Decidable (run.Writes32 config width height x y channel) :=
  inferInstanceAs (Decidable (∃ copy ∈ _, _))

/-- The dimensions that the engine reports are `int`s, as those it is given. -/
def RgbEngine.ReportsInts (engine : RgbEngine σ) : Prop :=
  ∀ (state : σ) (rgbData : Rgb) (width height : Int) (upscaled : ImagePixels),
    width < 2 ^ 31 → height < 2 ^ 31 →
    (engine.processRgb state rgbData width height).2 = some upscaled →
    upscaled.width < 2 ^ 31 ∧ upscaled.height < 2 ^ 31

/-- In a scaled image that fits, a completed iteration writes the pixels its tile
reaches. -/
theorem TileRun.writes32_iff (valid : config.Valid) (wellFormed : source.WellFormed)
    (widthPos : 1 ≤ source.width) (heightPos : 1 ≤ source.height) (sound : engine.Sound)
    (ints : engine.ReportsInts)
    (small : scaledBytes config source.width source.height < 2 ^ 31) {run : TileRun}
    {placed : Tile → ImagePixels → List Copy} {outputSize : Nat}
    (listed : run.tile ∈ calculateTiles source.width source.height config)
    (completed : run.Completed engine (extractTile32 source.pixels source.width source.height)
      placed outputSize)
    {x y : Int} (xNonneg : 0 ≤ x) (xLt : x < source.width * config.scaleFactor)
    (yLt : y < source.height * config.scaleFactor) (channel : Fin 3) :
    run.Writes32 config source.width source.height x y channel ↔
      Reaches config run.tile run.upscaled x y := by
  rcases mem_calculateTiles.mp listed with ⟨tx, ty, txLt, tyLt, tileEq⟩
  have inside := tileAt_inside valid widthPos heightPos txLt tyLt
  rw [← tileEq] at inside
  rcases extractTile_eq wellFormed inside with ⟨tileRgb, extractEq, sizeEq, _⟩
  rcases extracted_lt valid widthPos heightPos small wellFormed rfl rfl inside sizeEq with
    ⟨tileSmall, sourceSmall⟩
  have cut := extractTile32_eq extractEq tileSmall sourceSmall
  rw [completed.extracted] at cut
  cases cut
  rcases completed.produced with ⟨asked, produced⟩
  have upscaledOk := sound _ _ _ _ _ inside.width_pos inside.height_pos sizeEq produced
  rcases extents_lt inside.width_pos inside.height_pos (by omega) with ⟨widthLt, heightLt⟩
  rcases ints _ _ _ _ _ widthLt heightLt produced with ⟨upscaledWidth, upscaledHeight⟩
  have copiesEq := placedCopies32_eq valid widthPos heightPos small listed
    ⟨upscaledOk.width_nonneg, upscaledWidth⟩ ⟨upscaledOk.height_nonneg, upscaledHeight⟩
  rw [← TileRun.writes_iff valid listed xNonneg xLt yLt channel]
  simp only [TileRun.Writes32, TileRun.Writes, copiesEq]

/-- Nothing is written behind a size that wrapped around. -/
theorem not_writes32_last
    (large : ¬scaledBytes config source.width source.height < 2 ^ 31) {run : TileRun}
    {extract : Tile → Except Stop Rgb} {outputSize : Nat}
    (size : (outputSize : Int) = outputBytes config source.width source.height)
    (completed : run.Completed engine extract
      (fun tile upscaled => placedCopies32 config tile upscaled
        (outputExtent config source.width) (outputExtent config source.height)) outputSize) :
    ¬run.Writes32 config source.width source.height (source.width * config.scaleFactor - 1)
      (source.height * config.scaleFactor - 1) 2 := by
  intro writes
  rcases writes with ⟨copy, member, covers⟩
  have inside := completed.inside copy member
  have sizeLt : (outputSize : Int) < 2147483648 := by
    rw [size]
    exact int32_lt _
  have last : ((source.height * config.scaleFactor - 1) * (source.width * config.scaleFactor) +
      (source.width * config.scaleFactor - 1)) * 3 + ((2 : Fin 3).val : Int) =
        scaledBytes config source.width source.height - 1 := by
    have channel : ((2 : Fin 3).val : Int) = 2 := rfl
    rw [channel, scaledBytes]
    ring
  rw [last] at covers
  have upper := covers.2
  omega

/-- An engine that returns each tile as it is. -/
def copyEngine : RgbEngine Unit where
  processRgb := fun _ rgbData width height =>
    ((), some { width, height, channels := 3, pixels := rgbData })

theorem copyEngine_sound : copyEngine.Sound := by
  intro state rgbData width height upscaled widthPos heightPos size produced
  cases produced
  exact ⟨Int.le_of_lt widthPos, Int.le_of_lt heightPos, size⟩

theorem copyEngine_reportsInts : copyEngine.ReportsInts := by
  intro state rgbData width height upscaled widthLt heightLt produced
  cases produced
  exact ⟨widthLt, heightLt⟩

/-- A codec for images one pixel high that stores only the pixels. -/
def rawCodec : Codec where
  decodeImage := fun bytes =>
    some { width := bytes.length / 3, height := 1, channels := 3, pixels := bytes }
  encodeImage := fun image _ => some image.pixels

/-- Buffers at least as large as their scaled tiles reach every corner. -/
theorem reachCorners_of_large {tiles : List Tile} {returned : List (Option ImagePixels)}
    (large : ∀ (index : Nat) (tile : Tile), tiles[index]? = some tile →
      ∃ upscaled, returned[index]? = some (some upscaled) ∧
        tile.width * config.scaleFactor ≤ upscaled.width ∧
        tile.height * config.scaleFactor ≤ upscaled.height) :
    ReachCorners config tiles returned := by
  intro tile member
  rcases List.mem_iff_getElem?.mp member with ⟨index, indexEq⟩
  rcases large index tile indexEq with ⟨upscaled, returnedAt, widthLe, heightLe⟩
  refine ⟨index, tile, upscaled, indexEq, returnedAt, Int.le_refl _, Int.le_refl _, ?_, ?_⟩
  · rw [Int.add_mul]
    exact Int.add_le_add_left widthLe _
  · rw [Int.add_mul]
    exact Int.add_le_add_left heightLe _

end NcnnUpscaler.Tiling
