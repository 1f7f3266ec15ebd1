import NcnnUpscaler.Tiling.Assembly
import NcnnUpscaler.Tiling.Config

/-!
# What process_with_tiling asks of its engine

Every call to `process_rgb` is for the whole image or for one tile of it, with exactly
that part's pixels.  Two engines that return the same for such calls make
`process_with_tiling` return the same; with one of them an invariant of its state, this
settles what a call of `process_with_tiling` keeps.
-/

namespace NcnnUpscaler.Tiling

open Raster

variable {σ : Type} {engine : RgbEngine σ} {config : TilingConfig} {source : ImagePixels}

/-- The arguments of a call that `process_with_tiling` makes for an image. -/
structure CallFor (config : TilingConfig) (source : ImagePixels) (rgbData : Rgb)
    (width height : Int) : Prop where
  width_pos : 1 ≤ width
  height_pos : 1 ≤ height
  size_eq : (rgbData.length : Int) = width * height * 3
  part : (shouldEnableTiling source.width source.height config = false ∧
      width = source.width ∧ height = source.height) ∨
    ∃ tile ∈ calculateTiles source.width source.height config,
      width = tile.width ∧ height = tile.height

/-- A configuration within a cap keeps the calls within it. -/
theorem CallFor.within {rgbData : Rgb} {width height cap : Int}
    (call : CallFor config source rgbData width height) (within : config.Within cap) :
    width ≤ cap ∧ height ≤ cap := by
  rcases within with ⟨enabled, tileSize, thresholdWidth, thresholdHeight⟩
  rcases call.part with ⟨untiled, widthEq, heightEq⟩ | ⟨tile, made, widthEq, heightEq⟩
  · simp only [shouldEnableTiling, enabled, Bool.true_and, Bool.or_eq_false_iff,
      decide_eq_false_iff_not] at untiled
    omega
  · rcases mem_calculateTiles.mp made with ⟨tx, ty, _, _, tileEq⟩
    have widthLe : tile.width ≤ config.tileSize := by
      rw [tileEq]
      exact Int.min_le_left ..
    have heightLe : tile.height ≤ config.tileSize := by
      rw [tileEq]
      exact Int.min_le_left ..
    omega

/-- Every call that `process_with_tiling` makes for an image is allowed. -/
structure MakesOnly (config : TilingConfig) (source : ImagePixels)
    (Allowed : Rgb → Int → Int → Prop) : Prop where
  whole : shouldEnableTiling source.width source.height config = false →
    Allowed source.pixels source.width source.height
  tiles : ∀ tile ∈ calculateTiles source.width source.height config, ∀ tileRgb,
    extractTile source.pixels source.width source.height tile = .ok tileRgb →
      Allowed tileRgb tile.width tile.height

theorem makesOnly_callFor (valid : config.Valid) (wellFormed : source.WellFormed)
    (widthPos : 1 ≤ source.width) (heightPos : 1 ≤ source.height) :
    MakesOnly config source (CallFor config source) where
  whole := fun untiled => ⟨widthPos, heightPos, wellFormed.size_eq, .inl ⟨untiled, rfl, rfl⟩⟩
  tiles := by
    intro tile member tileRgb extracted
    rcases mem_calculateTiles.mp member with ⟨tx, ty, txLt, tyLt, tileEq⟩
    have inside : tile.Inside source.width source.height := by
      rw [tileEq]
      exact tileAt_inside valid widthPos heightPos txLt tyLt
    rcases extractTile_eq wellFormed inside with ⟨pixels, extractEq, sizeEq, _⟩
    rw [extracted] at extractEq
    cases extractEq
    exact ⟨inside.width_pos, inside.height_pos, sizeEq, .inr ⟨tile, member, rfl, rfl⟩⟩

theorem makesOnly_true (config : TilingConfig) (source : ImagePixels) :
    MakesOnly config source fun _ _ _ => True :=
  ⟨fun _ => trivial, fun _ _ _ _ => trivial⟩

/-! ## Engines that return the same -/

/-- From related states both engines return the same for the allowed calls and stay
related. -/
def RgbEngine.Simulates {τ : Type} (left : RgbEngine σ) (right : RgbEngine τ)
    (Allowed : Rgb → Int → Int → Prop) (Related : σ → τ → Prop) : Prop :=
  ∀ state other rgbData width height, Allowed rgbData width height → Related state other →
    (left.processRgb state rgbData width height).2 =
        (right.processRgb other rgbData width height).2 ∧
      Related (left.processRgb state rgbData width height).1
        (right.processRgb other rgbData width height).1

section Simulation

variable {τ : Type} {left : RgbEngine σ} {right : RgbEngine τ}
  {Allowed : Rgb → Int → Int → Prop} {Related : σ → τ → Prop}
  (simulates : left.Simulates right Allowed Related)
include simulates

theorem tileLoop_simulates {extract : Tile → Except Stop Rgb}
    (place : Tile → ImagePixels → Rgb → Except Stop Rgb) {tiles : List Tile}
    (allowed : ∀ tile ∈ tiles, ∀ tileRgb, extract tile = .ok tileRgb →
      Allowed tileRgb tile.width tile.height)
    {state : σ} {other : τ} (related : Related state other) (outputRgb : Rgb) :
    let loop := tileLoop left extract place tiles state outputRgb
    let otherLoop := tileLoop right extract place tiles other outputRgb
    loop.result = otherLoop.result ∧ Related loop.engine otherLoop.engine := by
  induction tiles generalizing state other outputRgb with
  | nil => exact ⟨rfl, related⟩
  | cons tile tiles ih =>
      have rest := fun later member => allowed later (List.mem_cons_of_mem tile member)
      simp only [tileLoop]
      split
      · exact ⟨rfl, related⟩
      · next tileRgb extracted =>
          rcases simulates _ _ _ _ _ (allowed tile List.mem_cons_self tileRgb extracted)
            related with ⟨same, after⟩
          generalize left.processRgb state tileRgb tile.width tile.height = called at same after
          generalize right.processRgb other tileRgb tile.width tile.height = otherCalled
            at same after
          rcases called with ⟨next, output⟩
          rcases otherCalled with ⟨otherNext, otherOutput⟩
          cases same
          cases output with
          | none => exact ⟨rfl, after⟩
          | some upscaled =>
              simp only
              split
              · exact ⟨rfl, after⟩
              · exact ih rest after _

theorem assemble_simulates (only : MakesOnly config source Allowed) {state : σ} {other : τ}
    (related : Related state other) :
    (assemble left config source state).result = (assemble right config source other).result ∧
      Related (assemble left config source state).engine
        (assemble right config source other).engine := by
  simp only [assemble]
  split
  · exact ⟨rfl, related⟩
  · split
    · exact ⟨rfl, related⟩
    · exact tileLoop_simulates simulates _ only.tiles related _

/-- Engines that return the same make `process_with_tiling` return the same. -/
theorem processWithTiling_simulates {codec : Codec} {inputData : List UInt8}
    (only : ∀ source, codec.decodeImage inputData = some source →
      MakesOnly config source Allowed)
    (outputFormat : String) {state : σ} {other : τ} (related : Related state other) :
    let done := processWithTiling left codec config inputData outputFormat state
    let otherDone := processWithTiling right codec config inputData outputFormat other
    done.result = otherDone.result ∧ Related done.engine otherDone.engine := by
  simp only [processWithTiling]
  split
  · exact ⟨rfl, related⟩
  · next source decoded =>
      have only := only source decoded
      split
      · rcases assemble_simulates simulates only related with ⟨resultEq, engines⟩
        simp only [TileLoop.finish, resultEq, true_and]
        exact engines
      · next untiled =>
          simp only [processDirectly]
          rcases simulates _ _ _ _ _ (only.whole (Bool.eq_false_iff.mpr untiled)) related with
            ⟨same, after⟩
          generalize left.processRgb state source.pixels source.width source.height = called
            at same after
          generalize right.processRgb other source.pixels source.width source.height =
            otherCalled at same after
          rcases called with ⟨next, output⟩
          rcases otherCalled with ⟨otherNext, otherOutput⟩
          cases same
          cases output with
          | none => exact ⟨rfl, after⟩
          | some upscaled => exact ⟨rfl, after⟩

end Simulation

/-- What the calls for an image keep of the engine's state, `process_with_tiling`
keeps. -/
theorem processWithTiling_preserves {Invariant : σ → Prop} {Allowed : Rgb → Int → Int → Prop}
    {codec : Codec} {inputData : List UInt8}
    (only : ∀ source, codec.decodeImage inputData = some source →
      MakesOnly config source Allowed)
    (keeps : ∀ state rgbData width height, Allowed rgbData width height → Invariant state →
      Invariant (engine.processRgb state rgbData width height).1)
    (outputFormat : String) {state : σ} (holds : Invariant state) :
    Invariant (processWithTiling engine codec config inputData outputFormat state).engine := by
  have simulates : engine.Simulates engine Allowed fun state other =>
      state = other ∧ Invariant state := by
    intro state other rgbData width height allowed related
    rw [← related.1]
    exact ⟨rfl, rfl, keeps state rgbData width height allowed related.2⟩
  exact (processWithTiling_simulates simulates only outputFormat ⟨rfl, holds⟩).2.2

/-- The engine in states of which an invariant holds. -/
def RgbEngine.restrict (engine : RgbEngine σ) {Invariant : σ → Prop}
    (keeps : ∀ state rgbData width height, Invariant state →
      Invariant (engine.processRgb state rgbData width height).1) :
    RgbEngine { state // Invariant state } where
  processRgb := fun state rgbData width height =>
    (⟨(engine.processRgb state.val rgbData width height).1,
        keeps state.val rgbData width height state.property⟩,
      (engine.processRgb state.val rgbData width height).2)

/-- Restricted, the engine makes `process_with_tiling` return the same. -/
theorem processWithTiling_restrict {Invariant : σ → Prop}
    (keeps : ∀ state rgbData width height, Invariant state →
      Invariant (engine.processRgb state rgbData width height).1)
    (codec : Codec) (config : TilingConfig) (inputData : List UInt8) (outputFormat : String)
    (state : { state // Invariant state }) :
    (processWithTiling engine codec config inputData outputFormat state.val).result =
      (processWithTiling (engine.restrict keeps) codec config inputData outputFormat
        state).result := by
  have simulates : engine.Simulates (engine.restrict keeps) (fun _ _ _ => True)
      fun state other => state = other.val := by
    intro state other rgbData width height _ related
    rw [related]
    exact ⟨rfl, rfl⟩
  exact (processWithTiling_simulates simulates (fun source _ => makesOnly_true config source)
    outputFormat rfl).1

/-! ## How a call of process_with_tiling ends -/

/-- With an engine that returns the buffers it reports, `process_with_tiling` accesses no
memory outside a buffer. -/
theorem processWithTiling_no_fault (valid : config.Valid) (sound : engine.Sound)
    {codec : Codec} {inputData : List UInt8}
    (decodes : ∀ source, codec.decodeImage inputData = some source →
      source.WellFormed ∧ 1 ≤ source.width ∧ 1 ≤ source.height)
    (outputFormat : String) (state : σ) :
    (processWithTiling engine codec config inputData outputFormat state).result ≠
      .error .fault := by
  simp only [processWithTiling]
  split
  · simp
  · next source decoded =>
      rcases decodes source decoded with ⟨wellFormed, widthPos, heightPos⟩
      split
      · simp only [TileLoop.finish]
        rcases assemble_spec valid wellFormed widthPos heightPos sound state with
          ⟨failed, _⟩ | ⟨_, out, okEq, _⟩
        · simp [failed]
        · simp only [okEq, encoded]
          split <;> simp
      · simp only [processDirectly]
        split
        · simp
        · simp only [encoded]
          split <;> simp

end NcnnUpscaler.Tiling
