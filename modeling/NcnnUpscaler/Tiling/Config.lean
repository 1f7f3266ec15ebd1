import NcnnUpscaler.Engine.Model
import NcnnUpscaler.Tiling.Processor

/-!
# The tiling configuration of an engine

`get_tiling_config` of the base class and of the ncnn engines, and what it means for
the images the network is given: whether an image is processed whole or by tiles, no
call to `process_rgb` exceeds the size that the options allow.
-/

namespace NcnnUpscaler.Tiling

open Engine

/-- `BaseEngine::get_tiling_config`. -/
def baseTilingConfig (current : Options) : TilingConfig :=
  { tileSize := 512
    overlap := 32
    scaleFactor := getScaleFactor current
    thresholdWidth := 2048
    thresholdHeight := 2048 }

/-- `NcnnUpscalerEngine::get_tiling_config`. -/
def getTilingConfig (current : Options) (igpuProfile : Bool) : TilingConfig :=
  let config := baseTilingConfig current
  if current.tileSize > 0 then
    let tileSize := max (config.overlap + 1) current.tileSize
    { config with
      tileSize
      thresholdWidth := max 1 tileSize
      thresholdHeight := max 1 tileSize }
  else if igpuProfile then
    { config with
      tileSize := max (config.overlap + 1) 384
      thresholdWidth := min config.thresholdWidth 1024
      thresholdHeight := min config.thresholdHeight 1024 }
  else
    config

/-- The largest width and height the network is to see. -/
def sizeCap (opts : Options) (igpuProfile : Bool) : Int :=
  if opts.tileSize > 0 then max 33 opts.tileSize
  else if igpuProfile then 1024
  else 2048

/-- Neither the tiles nor the images left whole are larger than `cap`. -/
structure TilingConfig.Within (config : TilingConfig) (cap : Int) : Prop where
  enabled : config.enableTiling = true
  tileSize_le : config.tileSize ≤ cap
  thresholdWidth_le : config.thresholdWidth ≤ cap
  thresholdHeight_le : config.thresholdHeight ≤ cap

theorem currentOptions_tileSize (opts : Options) :
    (currentOptions opts).tileSize = opts.tileSize := by
  simp only [currentOptions]
  split
  · split <;> rfl
  · rfl

theorem currentOptions_scale (opts : Options) : (currentOptions opts).scale = opts.scale := by
  simp only [currentOptions]
  split
  · split <;> rfl
  · rfl

theorem getScaleFactor_pos {current : Options} (positive : 0 < current.scale) :
    1 ≤ getScaleFactor current := by
  simp only [getScaleFactor]
  split
  · omega
  · omega

/-- Every configuration of an engine has room for a step between its tiles. -/
theorem getTilingConfig_valid {current : Options} (positive : 0 < current.scale)
    (igpuProfile : Bool) : (getTilingConfig current igpuProfile).Valid := by
  have scalePos := getScaleFactor_pos positive
  simp only [getTilingConfig, baseTilingConfig]
  split
  · refine ⟨?_, ?_, scalePos⟩ <;> simp only <;> omega
  · split
    · refine ⟨?_, ?_, scalePos⟩ <;> simp only <;> omega
    · refine ⟨?_, ?_, scalePos⟩ <;> simp only <;> omega

/-- So has that of every engine started on options that were accepted. -/
theorem getTilingConfig_valid_of_accepted {opts : Options} (accepted : opts.Accepted)
    (igpuProfile : Bool) : (getTilingConfig (currentOptions opts) igpuProfile).Valid := by
  apply getTilingConfig_valid
  rw [currentOptions_scale]
  exact (opts.accepted_iff.mp accepted).1

theorem getTilingConfig_within (opts : Options) (igpuProfile : Bool) :
    (getTilingConfig (currentOptions opts) igpuProfile).Within (sizeCap opts igpuProfile) := by
  simp only [getTilingConfig, baseTilingConfig, sizeCap, currentOptions_tileSize]
  split
  · constructor <;> simp only <;> omega
  · split
    · constructor <;> simp only <;> omega
    · constructor <;> simp only <;> omega

/-! ## The calls to the network -/

variable {σ : Type} {engine : RgbEngine σ} {config : TilingConfig} {source : ImagePixels}

/-- The tile loop calls the network for its tiles only, at their sizes. -/
theorem mem_tileLoop_calls {extract : Tile → Except Stop Rgb}
    {place : Tile → ImagePixels → Rgb → Except Stop Rgb} {tiles : List Tile} {state : σ}
    {outputRgb : Rgb} {call : RgbCall}
    (member : call ∈ (tileLoop engine extract place tiles state outputRgb).calls) :
    ∃ tile ∈ tiles, call.width = tile.width ∧ call.height = tile.height := by
  induction tiles generalizing state outputRgb with
  | nil => exact absurd member List.not_mem_nil
  | cons tile tiles ih =>
      simp only [tileLoop] at member
      split at member
      · exact absurd member List.not_mem_nil
      · split at member
        · rw [List.mem_singleton.mp member]
          exact ⟨tile, List.mem_cons_self, rfl, rfl⟩
        · split at member
          · rw [List.mem_singleton.mp member]
            exact ⟨tile, List.mem_cons_self, rfl, rfl⟩
          · rcases List.mem_cons.mp member with same | later
            · rw [same]
              exact ⟨tile, List.mem_cons_self, rfl, rfl⟩
            · rcases ih later with ⟨tile, inRest, sizes⟩
              exact ⟨tile, List.mem_cons_of_mem _ inRest, sizes⟩

theorem mem_assemble_calls {state : σ} {call : RgbCall}
    (member : call ∈ (assemble engine config source state).calls) :
    ∃ tile ∈ calculateTiles source.width source.height config,
      call.width = tile.width ∧ call.height = tile.height := by
  simp only [assemble] at member
  split at member
  · exact absurd member List.not_mem_nil
  · split at member
    · exact absurd member List.not_mem_nil
    · exact mem_tileLoop_calls member

/-- A call for a whole image is for one that needs no tiling, a call for a tile has the
tile's size. -/
theorem mem_processWithTiling_calls {codec : Codec} {inputData : List UInt8}
    {outputFormat : String} {state : σ} {call : RgbCall}
    (member : call ∈
      (processWithTiling engine codec config inputData outputFormat state).calls) :
    ∃ source, codec.decodeImage inputData = some source ∧
      ((shouldEnableTiling source.width source.height config = false ∧
          call.width = source.width ∧ call.height = source.height) ∨
        ∃ tile ∈ calculateTiles source.width source.height config,
          call.width = tile.width ∧ call.height = tile.height) := by
  simp only [processWithTiling] at member
  split at member
  · exact absurd member List.not_mem_nil
  · next source decoded =>
      refine ⟨source, decoded, ?_⟩
      split at member
      · exact .inr (mem_assemble_calls member)
      · next direct =>
          have untiled := Bool.eq_false_iff.mpr direct
          simp only [processDirectly] at member
          split at member
          · rw [List.mem_singleton.mp member]
            exact .inl ⟨untiled, rfl, rfl⟩
          · rw [List.mem_singleton.mp member]
            exact .inl ⟨untiled, rfl, rfl⟩

/-- The width and the height of a call lie between one and `cap`. -/
def RgbCall.Within (call : RgbCall) (cap : Int) : Prop :=
  (1 ≤ call.width ∧ call.width ≤ cap) ∧ 1 ≤ call.height ∧ call.height ≤ cap

/-- Under a configuration within the cap, so is every call. -/
theorem TilingConfig.Within.call {cap : Int} (within : config.Within cap) (valid : config.Valid)
    {codec : Codec} {inputData : List UInt8} {outputFormat : String} {state : σ}
    (decodes : ∀ source, codec.decodeImage inputData = some source →
      1 ≤ source.width ∧ 1 ≤ source.height)
    {call : RgbCall} (member : call ∈
      (processWithTiling engine codec config inputData outputFormat state).calls) :
    call.Within cap := by
  rcases within with ⟨enabled, tileSize, thresholdWidth, thresholdHeight⟩
  rcases mem_processWithTiling_calls member with ⟨source, decoded, direct | tiled⟩
  · rcases direct with ⟨untiled, widthEq, heightEq⟩
    have positive := decodes source decoded
    simp only [shouldEnableTiling, enabled, Bool.true_and, Bool.or_eq_false_iff,
      decide_eq_false_iff_not] at untiled
    simp only [RgbCall.Within, widthEq, heightEq]
    omega
  · rcases tiled with ⟨tile, made, widthEq, heightEq⟩
    rcases decodes source decoded with ⟨widthPos, heightPos⟩
    rcases mem_calculateTiles.mp made with ⟨tx, ty, txLt, tyLt, tileEq⟩
    have inside := tileAt_inside valid widthPos heightPos txLt tyLt
    have widthLe : tile.width ≤ config.tileSize := by
      rw [tileEq]
      exact Int.min_le_left ..
    have heightLe : tile.height ≤ config.tileSize := by
      rw [tileEq]
      exact Int.min_le_left ..
    rw [← tileEq] at inside
    have widthGe := inside.width_pos
    have heightGe := inside.height_pos
    simp only [RgbCall.Within, widthEq, heightEq]
    omega

/-- The tile size caps what the network sees: with accepted options, on an integrated
GPU or not, every call that `process_with_tiling` makes has a width and a height between
one and the cap, and the tiles are wider than their overlap. -/
theorem tile_size_caps_calls (opts : Options) (accepted : opts.Accepted) (igpuProfile : Bool)
    (engine : RgbEngine σ) (codec : Codec) (inputData : List UInt8) (outputFormat : String)
    (state : σ)
    (decodes : ∀ source, codec.decodeImage inputData = some source →
      1 ≤ source.width ∧ 1 ≤ source.height) :
    let config := getTilingConfig (currentOptions opts) igpuProfile
    (∀ call ∈ (processWithTiling engine codec config inputData outputFormat state).calls,
        call.Within (sizeCap opts igpuProfile)) ∧
      config.overlap < config.tileSize ∧ 0 < tileStep config := by
  have valid := getTilingConfig_valid_of_accepted accepted igpuProfile
  have step := valid.overlap_lt
  refine ⟨?_, step, Int.sub_pos_of_lt step⟩
  intro call member
  exact (getTilingConfig_within opts igpuProfile).call valid decodes member

/-- A tile size of one on a 40 x 1 image: two calls, of widths 33 and 8. -/
theorem tile_size_caps_calls_one :
    let codec : Codec :=
      { decodeImage := fun _ =>
          some { width := 40, height := 1, channels := 3, pixels := List.replicate 120 7 }
        encodeImage := fun image _ => some image.pixels }
    let engine : RgbEngine Unit :=
      { processRgb := fun _ rgbData width height =>
          ((), some { width, height, channels := 3, pixels := rgbData }) }
    ∀ call ∈ (processWithTiling engine codec
        (getTilingConfig (currentOptions { tileSize := 1 }) false) [] "png" ()).calls,
      call.Within 33 :=
  (tile_size_caps_calls { tileSize := 1 } (by decide) false _ _ [] "png" () (by
    intro source decoded
    cases decoded
    decide)).1

end NcnnUpscaler.Tiling
