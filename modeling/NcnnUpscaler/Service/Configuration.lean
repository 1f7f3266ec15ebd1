import NcnnUpscaler.Service.Session

/-!
# What stays as it was configured

The options and the integrated-GPU flag of an engine are settled by `init`, and with
them its scale and its tiling configuration: no call changes them, in whatever mode it
leaves the engine.
-/

namespace NcnnUpscaler.Service

open Wire Raster Tiling KeepAlive
open Engine (EngineState Platform perform getScaleFactor)

variable {δ ν ω : Type}

/-- The two engines have the same options and the same integrated-GPU flag. -/
structure SameConfiguration (engine other : EngineState δ ν) : Prop where
  options : engine.currentOptions = other.currentOptions
  igpu : engine.igpuProfile = other.igpuProfile

namespace SameConfiguration

variable {engine other third : EngineState δ ν}

theorem refl (engine : EngineState δ ν) : SameConfiguration engine engine := ⟨rfl, rfl⟩

theorem trans (first : SameConfiguration engine other)
    (second : SameConfiguration other third) : SameConfiguration engine third :=
  ⟨first.options.trans second.options, first.igpu.trans second.igpu⟩

end SameConfiguration

section Frames

variable (engine : EngineState δ ν)

theorem applyCpuLowMemProfile_configuration :
    SameConfiguration engine.applyCpuLowMemProfile engine := by
  simp only [EngineState.applyCpuLowMemProfile]
  split
  · exact .refl engine
  · exact ⟨rfl, rfl⟩

theorem fallBackToCpu_configuration : SameConfiguration engine.fallBackToCpu engine :=
  (applyCpuLowMemProfile_configuration _).trans ⟨rfl, rfl⟩

theorem clearCpuAllocators_configuration :
    SameConfiguration engine.clearCpuAllocators engine := by
  simp only [EngineState.clearCpuAllocators]
  split
  · exact .refl engine
  · exact ⟨rfl, rfl⟩

theorem processImage_configuration (run : Engine.ImageRun) :
    SameConfiguration (engine.processImage run).2 engine := by
  have fallen := fallBackToCpu_configuration engine.runInferenceImpl
  have inferred : SameConfiguration (engine.runInference run).2 engine := by
    simp only [EngineState.runInference]
    split
    · exact ⟨rfl, rfl⟩
    · exact ⟨rfl, rfl⟩
    · split
      · exact ⟨fallen.options, fallen.igpu⟩
      · exact ⟨rfl, rfl⟩
  simp only [EngineState.processImage]
  split
  · exact (clearCpuAllocators_configuration _).trans inferred
  · exact clearCpuAllocators_configuration engine

theorem processSingle_configuration (runs : List Engine.ImageRun) :
    SameConfiguration (engine.processSingle runs) engine := by
  induction runs generalizing engine with
  | nil => exact .refl engine
  | cons run runs ih =>
      have first := processImage_configuration engine run
      simp only [EngineState.processSingle]
      split
      · next after processed =>
          rw [processed] at first
          exact (ih after).trans first
      · next after processed =>
          rw [processed] at first
          exact first

theorem cleanup_configuration : SameConfiguration engine.cleanup engine := by
  simp only [EngineState.cleanup]
  split
  · exact .refl engine
  · apply (clearCpuAllocators_configuration _).trans
    split
    · exact ⟨rfl, rfl⟩
    · exact ⟨rfl, rfl⟩

theorem perform_configuration (call : Engine.Call) :
    SameConfiguration (perform engine call) engine := by
  cases call with
  | processRgb run => exact processImage_configuration engine run
  | processSingle runs => exact processSingle_configuration engine runs
  | processBatch inputs =>
      simp only [perform, EngineState.processBatch]
      induction inputs generalizing engine with
      | nil => exact .refl engine
      | cons runs inputs ih => exact (ih _).trans (processSingle_configuration engine runs)
  | clearAllocators =>
      simp only [perform, EngineState.clearAllocators]
      split
      · exact ⟨rfl, rfl⟩
      · exact ⟨rfl, rfl⟩

end Frames

theorem Machine.Follows.configuration {start : EngineState δ ν} {machine : Machine δ ν ω}
    (follows : machine.Follows start) : SameConfiguration machine.engine start := by
  rcases follows with ⟨calls, engineEq⟩
  rw [engineEq]
  clear engineEq
  induction calls generalizing start with
  | nil => exact .refl start
  | cons call calls ih => exact ih.trans (perform_configuration start call)

/-! ## A started engine -/

theorem init_options (platform : Platform δ ν) (opts : Options) (engine : EngineState δ ν) :
    (engine.init platform opts).2.currentOptions = Engine.currentOptions opts := by
  have setUp (deviceId : Int) (engine : EngineState δ ν) :
      (engine.setupDevice platform deviceId).currentOptions = engine.currentOptions := by
    simp only [EngineState.setupDevice]
    split
    · simp only [EngineState.applyIgpuProfile, EngineState.setupVulkanAllocators]
      split
      · split
        · rfl
        · split <;> rfl
      · split
        · split
          · rfl
          · split <;> rfl
        · split
          · rfl
          · split <;> rfl
    · rfl
  have loaded (engine : EngineState δ ν) :
      (engine.loadModel platform).2.currentOptions = engine.currentOptions := by
    simp only [EngineState.loadModel]
    split
    · rfl
    · split <;> rfl
  simp only [EngineState.init]
  split
  · rfl
  · rw [loaded]
    split
    · exact setUp _ _
    · exact (applyCpuLowMemProfile_configuration _).options.trans (setUp _ _)

/-- A newly started engine in some world, whether or not `init` returned true. -/
def boot (platform : Platform δ ν) (opts : Options) (world : ω) : Machine δ ν ω :=
  { engine := ((EngineState.start platform).init platform opts).2, world }

end NcnnUpscaler.Service
