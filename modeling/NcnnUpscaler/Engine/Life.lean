import NcnnUpscaler.Engine.Custody

/-!
# Whole lives of an engine

`init` establishes the invariant of a serving engine, every call keeps it, and
`cleanup` gives back what is left, however often it is called.
-/

namespace NcnnUpscaler.Engine

open NcnnUpscaler.Library

variable {δ ν : Type} [DecidableEq ν]

/-- When the mode and ncnn's switch agree: `init` has got past its check of the
model path, and `load_param` has left the switch alone. -/
def SwitchKept (platform : Platform δ ν) (opts : Options) : Prop :=
  modelPath opts ≠ "" ∧ platform.keepsVulkanCompute = true

/-! ## Initialisation -/

theorem custody_start (agreed : Prop) (platform : Platform δ ν) :
    Custody agreed (EngineState.start platform) where
  balanced := Ledger.balanced_nil
  sound := trivial
  blobInstalled := platform.defaults_noVkAllocator.1
  workspaceInstalled := platform.defaults_noVkAllocator.2.1
  stagingInstalled := platform.defaults_noVkAllocator.2.2
  device := fun _ => rfl
  rooted := fun _ => rfl
  vulkan := fun _ _ member => absurd member List.not_mem_nil

section Init

variable {agreed : Prop} {engine : EngineState δ ν}

theorem Custody.enableVulkan (custody : Custody agreed engine)
    (vulkan : engine.useVulkan = true) : Custody agreed engine.enableVulkan :=
  (custody.setUseVulkan true fun _ => vulkan).withOption rfl rfl rfl

/-- The mode is settled, and matches ncnn's switch, before the model is loaded. -/
theorem serving_setupDevice (custody : Custody agreed engine)
    (fresh : ∀ kind allocator, .acquired kind allocator ∉ engine.log)
    (root : engine.modelRoot ≠ none) (vulkan : engine.useVulkan = true)
    (compute : engine.opt.useVulkanCompute = true) (noVk : engine.opt.NoVkAllocator)
    (platform : Platform δ ν) (deviceId : Int) :
    let after := engine.setupDevice platform deviceId
    Serving agreed
      (if after.useVulkan then after else after.setupCpuAllocators.applyCpuLowMemProfile) := by
  simp only [EngineState.setupDevice]
  by_cases gpu : 0 ≤ deviceId
  · simp only [gpu, if_true]
    have setUp := EngineState.setupVulkanAllocators_frame platform deviceId engine
    have igpu := EngineState.applyIgpuProfile_frame platform deviceId
      (engine.setupVulkanAllocators platform deviceId)
    have useVulkanEq := (igpu.1.trans setUp.1).trans vulkan
    have computeEq := (igpu.2.trans setUp.2).trans compute
    rw [if_pos useVulkanEq]
    have custody := custody.setupVulkanAllocators platform deviceId fresh root
    exact
      { custody := custody.applyIgpuProfile platform deviceId
        ready :=
          { cpu := fun off => absurd (off.symm.trans useVulkanEq) Bool.false_ne_true
            agree := fun _ => useVulkanEq.trans computeEq.symm } }
  · simp only [gpu, if_false]
    have custody := custody.ensureCpuMode.leaveVulkan
    have off : ¬(engine.ensureCpuMode.setUseVulkan false).useVulkan = true :=
      Bool.false_ne_true
    rw [if_neg off]
    exact
      { custody := custody.setupCpuAllocators.applyCpuLowMemProfile
        ready := ready_of_cpu rfl rfl noVk }

/-- Loading the model keeps the invariant when `load_param` keeps the switch. -/
theorem Serving.loadModel (serving : Serving agreed engine) (platform : Platform δ ν)
    (keeps : agreed → platform.keepsVulkanCompute = true) :
    Serving agreed (engine.loadModel platform).2 := by
  simp only [EngineState.loadModel]
  split
  · exact serving
  · split
    · exact
        { custody := serving.custody.withOption rfl rfl rfl
          ready :=
            { cpu := fun off =>
                have before := serving.ready.cpu off
                ⟨by simp [before.1], before.2⟩
              agree := fun holds => by
                have before := serving.ready.agree holds
                simp [before, keeps holds] } }
    · exact serving

end Init

/-- `init` leaves an engine that serves, whatever it returns. -/
theorem serving_init (platform : Platform δ ν) (opts : Options) :
    Serving (SwitchKept platform opts) ((EngineState.start platform).init platform opts).2 := by
  have started := custody_start (SwitchKept platform opts) platform
  simp only [EngineState.init]
  split
  · next empty =>
      exact
        { custody := { started with }
          ready :=
            { cpu := fun off => absurd off.symm Bool.false_ne_true
              agree := fun kept => absurd empty kept.1 } }
  · next path =>
      have rooted : Custody (SwitchKept platform opts)
          { EngineState.start platform with
            currentOptions := currentOptions opts
            modelRoot := some (modelPath opts) } :=
        { started with rooted := fun none => absurd none (Option.some_ne_none _) }
      have served := serving_setupDevice (rooted.enableVulkan rfl)
        (by simp [EngineState.enableVulkan, EngineState.setUseVulkan, EngineState.record,
          EngineState.start])
        (Option.some_ne_none _) rfl rfl platform.defaults_noVkAllocator platform
        (selectDevice opts.gpuId)
      exact served.loadModel platform fun kept => kept.2

/-- The invariant holds after any sequence of calls. -/
theorem serving_service (platform : Platform δ ν) (opts : Options) (calls : List Call) :
    Serving (SwitchKept platform opts) (service platform opts calls) :=
  List.foldlRecOn calls _ (serving_init platform opts) fun _ before call _ => before.perform call

/-! ## Cleaning up -/

theorem Custody.cleanup {agreed : Prop} {engine : EngineState δ ν}
    (custody : Custody agreed engine) : Custody agreed engine.cleanup := by
  have switchedOff : Custody agreed
      (if engine.useVulkan then
        { engine with opt := { engine.opt with useVulkanCompute := false } }
      else engine) := by
    split
    · exact custody.withOption rfl rfl rfl
    · exact custody
  simp only [EngineState.cleanup]
  split
  · exact custody
  · have released := switchedOff.releaseVulkanAllocators.leaveVulkan
    apply Custody.clearCpuAllocators
    exact { released with rooted := fun _ => rfl }

/-- After `cleanup` nothing is owned: it was given back, or there was nothing. -/
theorem Custody.owned_cleanup {agreed : Prop} {engine : EngineState δ ν}
    (custody : Custody agreed engine) : engine.cleanup.owned = [] := by
  simp only [EngineState.cleanup]
  split
  · next unrooted => exact custody.rooted unrooted
  · rfl

theorem custody_iterate_cleanup {agreed : Prop} {engine : EngineState δ ν}
    (custody : Custody agreed engine) (cleanups : Nat) :
    Custody agreed (EngineState.cleanup^[cleanups] engine) := by
  induction cleanups with
  | zero => exact custody
  | succ cleanups ih =>
      rw [Function.iterate_succ_apply']
      exact ih.cleanup

theorem custody_life (platform : Platform δ ν) (opts : Options) (calls : List Call)
    (cleanups : Nat) :
    Custody (SwitchKept platform opts) (life platform opts calls cleanups) :=
  custody_iterate_cleanup (serving_service platform opts calls).custody (cleanups + 1)

theorem balanced_life (platform : Platform δ ν) (opts : Options) (calls : List Call)
    (cleanups : Nat) :
    (allocators ν).Balanced [] (life platform opts calls cleanups).log := by
  have before := custody_iterate_cleanup (serving_service platform opts calls).custody cleanups
  have balanced := (custody_life platform opts calls cleanups).balanced
  have empty : (life platform opts calls cleanups).owned = [] := by
    rw [life, Function.iterate_succ_apply']
    exact before.owned_cleanup
  rw [empty] at balanced
  exact balanced

/-- The life cycle of the GPU resources: each allocator acquired is reclaimed once,
every inference is handed live allocators or none and runs in a consistent mode, and
Vulkan mode once left is never entered again. -/
theorem resource_life_cycle (platform : Platform δ ν) (opts : Options) (calls : List Call)
    (cleanups : Nat) :
    let log := (life platform opts calls cleanups).log
    (∀ kind allocator,
      log.count (.reclaimed kind allocator) = log.count (.acquired kind allocator) ∧
        log.count (.acquired kind allocator) ≤ 1) ∧
    (∀ later useVulkan opt earlier, log = later ++ .inferred useVulkan opt :: earlier →
      (∀ resource, opt.Points resource → (allocators ν).Held earlier resource) ∧
        (useVulkan = false →
          opt.useVulkanCompute = false ∧ opt.CpuPools ∧ opt.NoVkAllocator) ∧
        (modelPath opts ≠ "" ∧ platform.keepsVulkanCompute = true →
          useVulkan = opt.useVulkanCompute)) ∧
    (∀ later earlier, log = later ++ .assigned true :: earlier → .assigned false ∉ earlier) ∧
    log.count .retried ≤ 1 := by
  intro log
  have sound := (custody_life platform opts calls cleanups).sound
  have balanced := balanced_life platform opts calls cleanups
  refine ⟨?_, ?_, ?_, ?_⟩
  · intro kind allocator
    constructor
    · exact balanced.settled (kind, allocator)
    · exact sound.count_le_one fun _ fresh => fresh allocator
  · intro later useVulkan opt earlier split
    exact sound.allowed split
  · intro later earlier split
    exact sound.allowed split rfl
  · exact sound.count_le_one fun _ fresh => fresh

/-- A machine without GPU and without model files. -/
def bareMachine : Platform Nat Nat where
  files _ := false
  net := ⟨fun _ => 0, fun _ => 0⟩
  keepsVulkanCompute := true
  gpuDevice _ := none
  gpuInfo _ := ⟨0, 0, false, false, false⟩
  acquireBlobAllocator _ := none
  acquireStagingAllocator _ := none
  defaults :=
    { useVulkanCompute := false
      useFp16Storage := true
      useFp16Arithmetic := true
      useFp16Packed := true
      lightmode := true
      useWinogradConvolution := true
      useSgemmConvolution := true
      usePackingLayout := true
      useCooperativeMatrix := true
      useLocalPoolAllocator := true
      numThreads := 8
      openmpBlocktime := 20 }
  defaults_noVkAllocator := ⟨rfl, rfl, rfl⟩

/-- A machine with a GPU that `load_param` finds unusable. -/
def unusableGpu : Platform Nat Nat :=
  { bareMachine with
    files := fun _ => true
    keepsVulkanCompute := false
    gpuDevice := fun _ => some 0
    acquireBlobAllocator := fun _ => some 1
    acquireStagingAllocator := fun _ => some 2 }

/-- The mode and ncnn's switch disagree at an inference after `init` has stopped at
an empty model path, and at one after `load_param` has switched Vulkan compute off. -/
theorem mode_and_switch_disagree :
    (∃ opt, .inferred true opt ∈ (life bareMachine { model := "" }
        [.processRgb ⟨true, .succeeded, .succeeded, true⟩] 0).log ∧
      opt.useVulkanCompute = false) ∧
    (∃ opt, .inferred true opt ∈ (life unusableGpu {}
        [.processRgb ⟨true, .succeeded, .succeeded, true⟩] 0).log ∧
      opt.useVulkanCompute = false) := by
  constructor
  · exact ⟨bareMachine.defaults, by decide, rfl⟩
  · exact ⟨{ unusableGpu.defaults with
      useWinogradConvolution := false
      blobVkallocator := some 1
      workspaceVkallocator := some 1
      stagingVkallocator := some 2 }, by decide, rfl⟩

end NcnnUpscaler.Engine
