import NcnnUpscaler.Engine.Lifecycle

/-!
# Custody of the Vulkan allocators

What the engine owns is what it has acquired and not reclaimed, the pointers it
hands to ncnn name nothing else, and the mode only ever goes from Vulkan to CPU.
-/

namespace NcnnUpscaler.Engine

open NcnnUpscaler.Library

variable {δ ν : Type}

/-! ## Handles and events -/

/-- The resource behind a pointer that may be null. -/
def handle (kind : VkKind) (pointer : Option ν) : List (VkKind × ν) :=
  (pointer.map (Prod.mk kind)).toList

/-- The allocators the engine's own pointers name. -/
def EngineState.owned (engine : EngineState δ ν) : List (VkKind × ν) :=
  handle .blob engine.blobVkallocator ++ handle .staging engine.stagingVkallocator

@[simp] theorem handle_some (kind : VkKind) (allocator : ν) :
    handle kind (some allocator) = [(kind, allocator)] := rfl

theorem owned_eq_nil {engine : EngineState δ ν} :
    engine.owned = [] ↔ engine.blobVkallocator = none ∧ engine.stagingVkallocator = none := by
  simp [EngineState.owned, handle]

/-- The events that change who holds an allocator. -/
def Event.movesAllocator : Event ν → Bool
  | .acquired _ _ => true
  | .reclaimed _ _ => true
  | _ => false

/-- The events after which the engine is in CPU mode. -/
def Event.leavesVulkan : Event ν → Bool
  | .assigned useVulkan => !useVulkan
  | .retried => true
  | _ => false

theorem neutral_of_still {event : Event ν} (still : event.movesAllocator = false) :
    (allocators ν).Neutral event := by
  intro resource
  constructor
  · intro same
    subst same
    cases still
  · intro same
    subst same
    cases still

theorem forall_mem_recordFor {engine : EngineState δ ν} {kind : VkKind} {pointer : Option ν}
    {event : VkKind → ν → Event ν} {Property : Event ν → Prop}
    (old : ∀ other ∈ engine.log, Property other)
    (new : ∀ allocator, Property (event kind allocator)) :
    ∀ other ∈ (engine.recordFor event kind pointer).log, Property other := by
  cases pointer with
  | none => exact old
  | some allocator => exact List.forall_mem_cons.mpr ⟨new allocator, old⟩

/-! ## A consistent mode -/

/-- What an inference relies on, beyond custody, from the end of `init` to the first
`cleanup`. -/
structure Ready (agreed : Prop) (engine : EngineState δ ν) : Prop where
  cpu : engine.useVulkan = false →
    engine.opt.useVulkanCompute = false ∧ engine.opt.CpuPools ∧ engine.opt.NoVkAllocator
  agree : agreed → engine.useVulkan = engine.opt.useVulkanCompute

section Mode

variable {agreed : Prop} {engine : EngineState δ ν}

/-- An engine in CPU mode without Vulkan allocators is ready once the CPU pools are
set up. -/
theorem ready_of_cpu (useVulkan : engine.useVulkan = false)
    (compute : engine.opt.useVulkanCompute = false) (noVk : engine.opt.NoVkAllocator) :
    Ready agreed engine.setupCpuAllocators.applyCpuLowMemProfile := by
  rcases EngineState.applyCpuLowMemProfile_frame engine.setupCpuAllocators
    with ⟨useVulkanEq, _, computeEq, pools, noVkKept⟩
  exact
    { cpu := fun _ => ⟨computeEq.trans compute, pools ⟨rfl, rfl⟩, noVkKept noVk⟩
      agree := fun _ => (useVulkanEq.trans useVulkan).trans (computeEq.trans compute).symm }

theorem ready_fallBackToCpu (engine : EngineState δ ν) : Ready agreed engine.fallBackToCpu :=
  ready_of_cpu rfl rfl ⟨rfl, rfl, rfl⟩

end Mode

/-! ## The invariant -/

variable [DecidableEq ν]

/-- What must have happened before an event.  `agreed` says when the mode and ncnn's
switch are meant to agree. -/
def Allowed (agreed : Prop) (earlier : List (Event ν)) : Event ν → Prop
  | .acquired kind _ => ∀ other, .acquired kind other ∉ earlier
  | .reclaimed kind allocator => (allocators ν).Held earlier (kind, allocator)
  | .cleared kind allocator => (allocators ν).Held earlier (kind, allocator)
  | .poolsCleared => True
  | .assigned useVulkan => useVulkan = true → .assigned false ∉ earlier
  | .inferred useVulkan opt =>
      (∀ resource, opt.Points resource → (allocators ν).Held earlier resource) ∧
        (useVulkan = false → opt.useVulkanCompute = false ∧ opt.CpuPools ∧ opt.NoVkAllocator) ∧
          (agreed → useVulkan = opt.useVulkanCompute)
  | .retried => .retried ∉ earlier

/-- The invariant of a whole life. -/
structure Custody (agreed : Prop) (engine : EngineState δ ν) : Prop where
  balanced : (allocators ν).Balanced engine.owned engine.log
  sound : Sound (Allowed agreed) engine.log
  blobInstalled : engine.opt.blobVkallocator = engine.blobVkallocator
  workspaceInstalled : engine.opt.workspaceVkallocator = engine.blobVkallocator
  stagingInstalled : engine.opt.stagingVkallocator = engine.stagingVkallocator
  device : engine.vkdev = none → engine.owned = []
  rooted : engine.modelRoot = none → engine.owned = []
  vulkan : engine.useVulkan = true → ∀ event ∈ engine.log, event.leavesVulkan = false

namespace Custody

variable {agreed : Prop} {engine : EngineState δ ν}

/-- In Vulkan mode nothing that ends it has happened. -/
theorem not_mem (custody : Custody agreed engine) (on : engine.useVulkan = true)
    {event : Event ν} (leaves : event.leavesVulkan = true) : event ∉ engine.log := by
  intro member
  have quiet := custody.vulkan on event member
  rw [leaves] at quiet
  cases quiet

/-- Recording an event that moves no allocator and leaves the mode alone. -/
theorem record (custody : Custody agreed engine) {event : Event ν}
    (still : event.movesAllocator = false) (allowed : Allowed agreed engine.log event)
    (quiet : engine.useVulkan = true → event.leavesVulkan = false) :
    Custody agreed (engine.record event) where
  balanced := custody.balanced.neutral (neutral_of_still still)
  sound := custody.sound.cons allowed
  blobInstalled := custody.blobInstalled
  workspaceInstalled := custody.workspaceInstalled
  stagingInstalled := custody.stagingInstalled
  device := custody.device
  rooted := custody.rooted
  vulkan := fun on => List.forall_mem_cons.mpr ⟨quiet on, custody.vulkan on⟩

theorem setUseVulkan (custody : Custody agreed engine) (useVulkan : Bool)
    (kept : useVulkan = true → engine.useVulkan = true) :
    Custody agreed (engine.setUseVulkan useVulkan) where
  balanced := custody.balanced.neutral (neutral_of_still rfl)
  sound := custody.sound.cons fun on => custody.not_mem (kept on) rfl
  blobInstalled := custody.blobInstalled
  workspaceInstalled := custody.workspaceInstalled
  stagingInstalled := custody.stagingInstalled
  device := custody.device
  rooted := custody.rooted
  vulkan := by
    intro on
    change useVulkan = true at on
    subst on
    exact List.forall_mem_cons.mpr ⟨rfl, custody.vulkan (kept rfl)⟩

/-- Leaving Vulkan mode is always open. -/
theorem leaveVulkan (custody : Custody agreed engine) :
    Custody agreed (engine.setUseVulkan false) :=
  custody.setUseVulkan false fun on => absurd on Bool.false_ne_true

/-- The options other than the Vulkan pointers are free to change. -/
theorem withOption (custody : Custody agreed engine) {opt : NetOption ν}
    (blob : opt.blobVkallocator = engine.opt.blobVkallocator)
    (workspace : opt.workspaceVkallocator = engine.opt.workspaceVkallocator)
    (staging : opt.stagingVkallocator = engine.opt.stagingVkallocator) :
    Custody agreed { engine with opt := opt } where
  balanced := custody.balanced
  sound := custody.sound
  blobInstalled := blob.trans custody.blobInstalled
  workspaceInstalled := workspace.trans custody.workspaceInstalled
  stagingInstalled := staging.trans custody.stagingInstalled
  device := custody.device
  rooted := custody.rooted
  vulkan := custody.vulkan

theorem ensureCpuMode (custody : Custody agreed engine) :
    Custody agreed engine.ensureCpuMode :=
  custody.withOption rfl rfl rfl

theorem setupCpuAllocators (custody : Custody agreed engine) :
    Custody agreed engine.setupCpuAllocators :=
  custody.withOption rfl rfl rfl

theorem applyCpuLowMemProfile (custody : Custody agreed engine) :
    Custody agreed engine.applyCpuLowMemProfile := by
  simp only [EngineState.applyCpuLowMemProfile]
  split
  · exact custody
  · exact { custody.withOption rfl rfl rfl with }

theorem applyIgpuProfile (custody : Custody agreed engine) (platform : Platform δ ν)
    (deviceId : Int) : Custody agreed (engine.applyIgpuProfile platform deviceId) := by
  simp only [EngineState.applyIgpuProfile]
  split
  · exact custody
  · split
    · exact custody
    · exact { custody.withOption rfl rfl rfl with }

theorem clearCpuAllocators (custody : Custody agreed engine) :
    Custody agreed engine.clearCpuAllocators := by
  simp only [EngineState.clearCpuAllocators]
  split
  · exact custody
  · exact custody.record rfl trivial fun _ => rfl

end Custody

/-! ## Acquiring and reclaiming -/

section Pointers

variable {agreed : Prop} {engine : EngineState δ ν} {owned : List (VkKind × ν)}
  {kind : VkKind} {pointer : Option ν}

theorem balanced_acquired (balanced : (allocators ν).Balanced owned engine.log) :
    (allocators ν).Balanced (handle kind pointer ++ owned)
      (engine.recordFor .acquired kind pointer).log := by
  cases pointer with
  | none => exact balanced
  | some allocator => exact balanced.acquire (kind, allocator)

theorem sound_acquired (sound : Sound (Allowed agreed) engine.log)
    (fresh : ∀ other, .acquired kind other ∉ engine.log) :
    Sound (Allowed agreed) (engine.recordFor .acquired kind pointer).log := by
  cases pointer with
  | none => exact sound
  | some allocator => exact sound.cons fresh

theorem balanced_reclaimed
    (balanced : (allocators ν).Balanced (handle kind pointer ++ owned) engine.log) :
    (allocators ν).Balanced owned (engine.recordFor .reclaimed kind pointer).log := by
  cases pointer with
  | none => exact balanced
  | some allocator => exact balanced.reclaim

theorem sound_reclaimed (sound : Sound (Allowed agreed) engine.log)
    (balanced : (allocators ν).Balanced (handle kind pointer ++ owned) engine.log) :
    Sound (Allowed agreed) (engine.recordFor .reclaimed kind pointer).log := by
  cases pointer with
  | none => exact sound
  | some allocator =>
      have held := (balanced.held_iff (kind, allocator)).mpr (List.mem_cons_self ..)
      exact sound.cons held

end Pointers

namespace Custody

variable {agreed : Prop} {engine : EngineState δ ν}

/-- The first acquisition, on an engine whose model root is set. -/
theorem setupVulkanAllocators (custody : Custody agreed engine) (platform : Platform δ ν)
    (deviceId : Int) (fresh : ∀ kind allocator, .acquired kind allocator ∉ engine.log)
    (root : engine.modelRoot ≠ none) :
    Custody agreed (engine.setupVulkanAllocators platform deviceId) := by
  simp only [EngineState.setupVulkanAllocators]
  split
  · exact custody
  · next enter =>
      have blobNull : engine.blobVkallocator = none := by
        simpa using fun set => enter (Or.inr (Or.inl set))
      have stagingNull : engine.stagingVkallocator = none := by
        simpa using fun set => enter (Or.inr (Or.inr set))
      have empty : engine.owned = [] := owned_eq_nil.mpr ⟨blobNull, stagingNull⟩
      split
      · exact { custody with device := fun _ => empty }
      · next device found =>
          have balanced := custody.balanced
          rw [empty] at balanced
          have noStaging : ∀ event ∈
              (engine.recordFor .acquired .blob (platform.acquireBlobAllocator device)).log,
              ∀ other, event ≠ .acquired .staging other :=
            forall_mem_recordFor (fun event old other same => fresh .staging other (same ▸ old))
              (fun allocator other => by simp)
          have inOrder : (handle .staging (platform.acquireStagingAllocator device) ++
                (handle .blob (platform.acquireBlobAllocator device) ++ [])).Perm
              (handle .blob (platform.acquireBlobAllocator device) ++
                handle .staging (platform.acquireStagingAllocator device)) := by
            rw [List.append_nil]
            exact List.perm_append_comm
          exact
            { balanced := (balanced_acquired (balanced_acquired balanced)).perm inOrder
              sound := sound_acquired (sound_acquired custody.sound (fresh .blob))
                fun other member => noStaging _ member other rfl
              blobInstalled := rfl
              workspaceInstalled := rfl
              stagingInstalled := rfl
              device := fun none => absurd none (Option.some_ne_none device)
              rooted := fun none => absurd none root
              vulkan := fun on =>
                forall_mem_recordFor (forall_mem_recordFor (custody.vulkan on) fun _ => rfl)
                  fun _ => rfl }

/-- What releasing records: the pointers are null whenever the device is. -/
theorem releaseVulkanAllocators_log (custody : Custody agreed engine) :
    engine.releaseVulkanAllocators.log =
      ((engine.recordFor .reclaimed .blob engine.blobVkallocator).recordFor .reclaimed .staging
        engine.stagingVkallocator).log := by
  have same : ∀ pointer : Option ν, (engine.owned = [] → pointer = none) →
      (if engine.vkdev.isSome then pointer else none) = pointer := by
    intro pointer null
    split
    · rfl
    · next absent => exact (null (custody.device (by simpa using absent))).symm
  have blobEq := same engine.blobVkallocator fun empty => (owned_eq_nil.mp empty).1
  have stagingEq := same engine.stagingVkallocator fun empty => (owned_eq_nil.mp empty).2
  change ((engine.recordFor .reclaimed .blob
    (if engine.vkdev.isSome then engine.blobVkallocator else none)).recordFor .reclaimed .staging
      (if engine.vkdev.isSome then engine.stagingVkallocator else none)).log = _
  rw [blobEq, stagingEq]

/-- Releasing gives back everything the engine owns. -/
theorem releaseVulkanAllocators (custody : Custody agreed engine) :
    Custody agreed engine.releaseVulkanAllocators := by
  have all := custody.balanced
  rw [EngineState.owned, ← List.append_nil (handle .staging _)] at all
  have balanced := balanced_reclaimed (balanced_reclaimed all)
  have sound := sound_reclaimed (sound_reclaimed custody.sound all) (balanced_reclaimed all)
  have vulkan : engine.useVulkan = true → ∀ event ∈ ((engine.recordFor .reclaimed .blob
      engine.blobVkallocator).recordFor .reclaimed .staging engine.stagingVkallocator).log,
      event.leavesVulkan = false := fun on =>
    forall_mem_recordFor (forall_mem_recordFor (custody.vulkan on) fun _ => rfl) fun _ => rfl
  rw [← custody.releaseVulkanAllocators_log] at balanced sound vulkan
  exact
    { balanced := balanced
      sound := sound
      blobInstalled := rfl
      workspaceInstalled := rfl
      stagingInstalled := rfl
      device := fun _ => rfl
      rooted := fun _ => rfl
      vulkan := vulkan }

end Custody

/-! ## Inference -/

section Inference

variable {agreed : Prop} {engine : EngineState δ ν}

/-- The pointers handed to ncnn name allocators that are held. -/
theorem Custody.points_held (custody : Custody agreed engine) {resource : VkKind × ν}
    (points : engine.opt.Points resource) : (allocators ν).Held engine.log resource := by
  rw [custody.balanced.held_iff]
  rcases resource with ⟨kind, allocator⟩
  cases kind with
  | blob =>
      simp only [NetOption.Points, custody.blobInstalled, custody.workspaceInstalled,
        or_self] at points
      simp [EngineState.owned, points]
  | staging =>
      simp only [NetOption.Points, custody.stagingInstalled] at points
      simp [EngineState.owned, points]

theorem Custody.runInferenceImpl (custody : Custody agreed engine) (ready : Ready agreed engine) :
    Custody agreed engine.runInferenceImpl :=
  custody.record rfl ⟨fun _ points => custody.points_held points, ready.cpu, ready.agree⟩
    fun _ => rfl

theorem Custody.fallBackToCpu (custody : Custody agreed engine) :
    Custody agreed engine.fallBackToCpu :=
  (custody.releaseVulkanAllocators.ensureCpuMode.leaveVulkan.setupCpuAllocators
    ).applyCpuLowMemProfile

/-- The retry is the first one, because it leaves Vulkan mode for good. -/
theorem Custody.retry (custody : Custody agreed engine) (vulkan : engine.useVulkan = true) :
    Custody agreed (engine.fallBackToCpu.record .retried) := by
  have absent : Allowed agreed engine.fallBackToCpu.log .retried := by
    change Event.retried ∉ engine.fallBackToCpu.log
    have logEq : engine.fallBackToCpu.log =
        .assigned false :: engine.releaseVulkanAllocators.log :=
      (EngineState.applyCpuLowMemProfile_frame _).2.1
    rw [logEq]
    intro member
    cases member with
    | tail _ older => exact custody.releaseVulkanAllocators.not_mem vulkan rfl older
  apply custody.fallBackToCpu.record rfl absent
  intro on
  rw [EngineState.fallBackToCpu_useVulkan] at on
  cases on

end Inference

/-! ## A serving engine -/

/-- The invariant between `init` and the first `cleanup`. -/
structure Serving (agreed : Prop) (engine : EngineState δ ν) : Prop where
  custody : Custody agreed engine
  ready : Ready agreed engine

namespace Serving

variable {agreed : Prop} {engine : EngineState δ ν}

theorem runInferenceImpl (serving : Serving agreed engine) :
    Serving agreed engine.runInferenceImpl where
  custody := serving.custody.runInferenceImpl serving.ready
  ready := { serving.ready with }

theorem retry (serving : Serving agreed engine) (vulkan : engine.useVulkan = true) :
    Serving agreed (engine.fallBackToCpu.record .retried) where
  custody := serving.custody.retry vulkan
  ready := { ready_fallBackToCpu engine with }

theorem runInference (serving : Serving agreed engine) (run : ImageRun) :
    Serving agreed (engine.runInference run).2 := by
  have first := serving.runInferenceImpl
  simp only [EngineState.runInference]
  split
  · exact first
  · exact first
  · split
    · next vulkan => exact (first.retry vulkan).runInferenceImpl
    · exact first

theorem clearCpuAllocators (serving : Serving agreed engine) :
    Serving agreed engine.clearCpuAllocators where
  custody := serving.custody.clearCpuAllocators
  ready := by
    simp only [EngineState.clearCpuAllocators]
    split
    · exact serving.ready
    · exact { serving.ready with }

theorem processImage (serving : Serving agreed engine) (run : ImageRun) :
    Serving agreed (engine.processImage run).2 := by
  simp only [EngineState.processImage]
  split
  · exact (serving.runInference run).clearCpuAllocators
  · exact serving.clearCpuAllocators

theorem processSingle (serving : Serving agreed engine) (runs : List ImageRun) :
    Serving agreed (engine.processSingle runs) := by
  induction runs generalizing engine with
  | nil => exact serving
  | cons run rest ih =>
      have one := serving.processImage run
      simp only [EngineState.processSingle]
      split
      · next after processed =>
          rw [processed] at one
          exact ih one
      · next after processed =>
          rw [processed] at one
          exact one

theorem processBatch (serving : Serving agreed engine) (inputs : List (List ImageRun)) :
    Serving agreed (engine.processBatch inputs) :=
  List.foldlRecOn inputs _ serving fun _ before runs _ => before.processSingle runs

/-- Clearing a pool goes through a pointer to an allocator that is held. -/
theorem recordCleared (serving : Serving agreed engine) {kind : VkKind} {pointer : Option ν}
    (mine : ∀ allocator, pointer = some allocator → (kind, allocator) ∈ engine.owned) :
    Serving agreed (engine.recordFor .cleared kind pointer) := by
  cases pointer with
  | none => exact serving
  | some allocator =>
      have held := (serving.custody.balanced.held_iff (kind, allocator)).mpr (mine allocator rfl)
      exact
        { custody := serving.custody.record rfl held fun _ => rfl
          ready := { serving.ready with } }

theorem clearAllocators (serving : Serving agreed engine) :
    Serving agreed engine.clearAllocators := by
  simp only [EngineState.clearAllocators]
  split
  · apply recordCleared
    · apply recordCleared serving
      intro allocator pointer
      simp [EngineState.owned, pointer]
    · intro allocator pointer
      have same : engine.stagingVkallocator = some allocator := pointer
      change (VkKind.staging, allocator) ∈ engine.owned
      simp [EngineState.owned, same]
  · exact
      { custody := serving.custody.record rfl trivial fun _ => rfl
        ready := { serving.ready with } }

/-- Every call keeps the invariant. -/
theorem perform (serving : Serving agreed engine) (call : Call) :
    Serving agreed (Engine.perform engine call) := by
  cases call with
  | processRgb run => exact serving.processImage run
  | processSingle runs => exact serving.processSingle runs
  | processBatch inputs => exact serving.processBatch inputs
  | clearAllocators => exact serving.clearAllocators

end Serving

end NcnnUpscaler.Engine
