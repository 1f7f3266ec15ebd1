import Mathlib.Algebra.Order.Ring.Int
import Mathlib.Logic.Function.Iterate
import NcnnUpscaler.Engine.Model
import NcnnUpscaler.Library.History

/-!
# The life of an engine

The shared engine's mode and allocator state, under the operations that change it:
`init`, the processing calls, `clear_allocators` and `cleanup`, in a build with
`NCNN_VULKAN`.  A device pointer is a `δ` and a `VkAllocator` pointer a `ν`, with
`none` for null.  What the operations do to allocators and when inference runs is
recorded in a log, the latest event first.
-/

namespace NcnnUpscaler.Engine

open NcnnUpscaler.Library

variable {δ ν : Type}

/-- The two kinds of `VkAllocator` a device hands out. -/
inductive VkKind where
  | blob
  | staging
  deriving DecidableEq, Repr

/-- The engine's two CPU pools, `cpu_blob_allocator_` and `cpu_workspace_allocator_`. -/
inductive CpuPool where
  | blob
  | workspace
  deriving DecidableEq, Repr

/-- `ncnn::Option`, the fields the engine writes. -/
structure NetOption (ν : Type) where
  useVulkanCompute : Bool
  useFp16Storage : Bool
  useFp16Arithmetic : Bool
  useFp16Packed : Bool
  lightmode : Bool
  useWinogradConvolution : Bool
  useSgemmConvolution : Bool
  usePackingLayout : Bool
  useCooperativeMatrix : Bool
  useLocalPoolAllocator : Bool
  numThreads : Int
  openmpBlocktime : Int
  blobAllocator : Option CpuPool := none
  workspaceAllocator : Option CpuPool := none
  blobVkallocator : Option ν := none
  workspaceVkallocator : Option ν := none
  stagingVkallocator : Option ν := none
  deriving DecidableEq, Repr

namespace NetOption

/-- A `VkAllocator` pointer of the options names this allocator. -/
def Points (opt : NetOption ν) : VkKind × ν → Prop
  | (.blob, allocator) =>
      opt.blobVkallocator = some allocator ∨ opt.workspaceVkallocator = some allocator
  | (.staging, allocator) => opt.stagingVkallocator = some allocator

/-- No `VkAllocator` pointer of the options is set. -/
def NoVkAllocator (opt : NetOption ν) : Prop :=
  opt.blobVkallocator = none ∧ opt.workspaceVkallocator = none ∧ opt.stagingVkallocator = none

/-- Both CPU pools are installed. -/
def CpuPools (opt : NetOption ν) : Prop :=
  opt.blobAllocator = some .blob ∧ opt.workspaceAllocator = some .workspace

end NetOption

/-- What an engine does that its surroundings can see, and each write to
`use_vulkan_`. -/
inductive Event (ν : Type) where
  | acquired (kind : VkKind) (allocator : ν)
  | reclaimed (kind : VkKind) (allocator : ν)
  | cleared (kind : VkKind) (allocator : ν)
  | poolsCleared
  | assigned (useVulkan : Bool)
  | inferred (useVulkan : Bool) (opt : NetOption ν)
  | retried
  deriving DecidableEq, Repr

/-- `ncnn::GpuInfo`, the parts `apply_igpu_profile` reads. -/
structure GpuInfo where
  type : Int
  vendorId : Nat
  supportFp16Storage : Bool
  supportFp16Arithmetic : Bool
  supportFp16Packed : Bool
  deriving Repr

/-- What the engine finds around it: the model files, the GPUs and ncnn itself.  A
fresh `ncnn::Option` has no `VkAllocator`, and `load_param` may switch Vulkan
compute off. -/
structure Platform (δ ν : Type) where
  files : String → Bool
  net : NetLoader
  keepsVulkanCompute : Bool
  gpuDevice : Int → Option δ
  gpuInfo : Int → GpuInfo
  acquireBlobAllocator : δ → Option ν
  acquireStagingAllocator : δ → Option ν
  defaults : NetOption ν
  defaults_noVkAllocator : defaults.NoVkAllocator

/-- The members of `NcnnUpscalerEngine`, and the log. -/
structure EngineState (δ ν : Type) where
  currentOptions : Options := {}
  opt : NetOption ν
  modelRoot : Option String := none
  useVulkan : Bool := true
  cpuLowMem : Bool := false
  igpuProfile : Bool := false
  vkdev : Option δ := none
  blobVkallocator : Option ν := none
  stagingVkallocator : Option ν := none
  log : List (Event ν) := []

/-- How a call of `run_inference_impl` ends. -/
inductive Inference where
  | succeeded
  | failed
  | raised
  deriving DecidableEq, Repr

/-- What happens during one `process_image`: whether an exception comes before the
inference, how the inference and its retry end, and whether an exception comes
afterwards. -/
structure ImageRun where
  prepared : Bool
  first : Inference
  retry : Inference
  finished : Bool
  deriving Repr

namespace EngineState

def record (engine : EngineState δ ν) (event : Event ν) : EngineState δ ν :=
  { engine with log := event :: engine.log }

/-- A write to `use_vulkan_`. -/
def setUseVulkan (engine : EngineState δ ν) (useVulkan : Bool) : EngineState δ ν :=
  ({ engine with useVulkan := useVulkan }).record (.assigned useVulkan)

/-! ## Helpers of the engine -/

/-- `ensure_cpu_mode`. -/
def ensureCpuMode (engine : EngineState δ ν) : EngineState δ ν :=
  { engine with
    opt := { engine.opt with
      useVulkanCompute := false
      useFp16Storage := false
      useFp16Arithmetic := false
      useFp16Packed := false } }

/-- `apply_cpu_low_mem_profile`. -/
def applyCpuLowMemProfile (engine : EngineState δ ν) : EngineState δ ν :=
  if engine.cpuLowMem then
    engine
  else
    { engine with
      cpuLowMem := true
      opt := { engine.opt with
        numThreads := min 4 (max 1 engine.opt.numThreads)
        openmpBlocktime := 0
        useWinogradConvolution := false
        useSgemmConvolution := false
        usePackingLayout := false
        useLocalPoolAllocator := true } }

/-- `apply_igpu_profile`. -/
def applyIgpuProfile (platform : Platform δ ν) (deviceId : Int) (engine : EngineState δ ν) :
    EngineState δ ν :=
  if engine.igpuProfile ∨ deviceId < 0 then
    engine
  else
    let info := platform.gpuInfo deviceId
    if ¬(info.type = 1 ∨ info.vendorId = 0x8086) then
      engine
    else
      { engine with
        igpuProfile := true
        opt := { engine.opt with
          useWinogradConvolution := false
          useSgemmConvolution := false
          usePackingLayout := false
          useCooperativeMatrix := false
          useFp16Storage := info.supportFp16Storage
          useFp16Arithmetic := info.supportFp16Arithmetic
          useFp16Packed := info.supportFp16Packed } }

/-- `setup_cpu_allocators`. -/
def setupCpuAllocators (engine : EngineState δ ν) : EngineState δ ν :=
  { engine with
    opt := { engine.opt with
      blobAllocator := some .blob
      workspaceAllocator := some .workspace } }

/-- `clear_cpu_allocators`. -/
def clearCpuAllocators (engine : EngineState δ ν) : EngineState δ ν :=
  if engine.useVulkan then engine else engine.record .poolsCleared

/-- An event about an allocator, when the pointer is not null. -/
def recordFor (event : VkKind → ν → Event ν) (kind : VkKind) (pointer : Option ν)
    (engine : EngineState δ ν) : EngineState δ ν :=
  { engine with
    log :=
      match pointer with
      | none => engine.log
      | some allocator => event kind allocator :: engine.log }

/-- `setup_vulkan_allocators`. -/
def setupVulkanAllocators (platform : Platform δ ν) (deviceId : Int)
    (engine : EngineState δ ν) : EngineState δ ν :=
  if deviceId < 0 ∨ engine.blobVkallocator.isSome ∨ engine.stagingVkallocator.isSome then
    engine
  else
    match platform.gpuDevice deviceId with
    | none => { engine with vkdev := none }
    | some device =>
        let blob := platform.acquireBlobAllocator device
        let staging := platform.acquireStagingAllocator device
        let engine := engine.recordFor .acquired .blob blob
        let engine := engine.recordFor .acquired .staging staging
        { engine with
          vkdev := some device
          blobVkallocator := blob
          stagingVkallocator := staging
          opt := { engine.opt with
            blobVkallocator := blob
            workspaceVkallocator := blob
            stagingVkallocator := staging } }

/-- `release_vulkan_allocators`. -/
def releaseVulkanAllocators (engine : EngineState δ ν) : EngineState δ ν :=
  let engine := { engine with
    opt := { engine.opt with
      blobVkallocator := none
      workspaceVkallocator := none
      stagingVkallocator := none } }
  let blob := if engine.vkdev.isSome then engine.blobVkallocator else none
  let engine := engine.recordFor .reclaimed .blob blob
  let staging := if engine.vkdev.isSome then engine.stagingVkallocator else none
  let engine := engine.recordFor .reclaimed .staging staging
  { engine with
    blobVkallocator := none
    stagingVkallocator := none
    vkdev := none }

/-! ## The operations -/

/-- A newly constructed engine. -/
def start (platform : Platform δ ν) : EngineState δ ν :=
  { opt := platform.defaults }

/-- `load_model`, with what `load_param` may do to the options. -/
def loadModel (platform : Platform δ ν) (engine : EngineState δ ν) :
    Bool × EngineState δ ν :=
  match engine.modelRoot with
  | none => (false, engine)
  | some _ =>
      let loaded := Engine.loadModel engine.currentOptions platform.files platform.net
      if Present platform.files (modelBase engine.currentOptions platform.files) then
        (loaded.isSome,
          { engine with
            opt := { engine.opt with
              useVulkanCompute :=
                engine.opt.useVulkanCompute && platform.keepsVulkanCompute } })
      else
        (loaded.isSome, engine)

end EngineState

/-! ## Initialisation -/

/-- `default_model_root`. -/
def defaultModelRoot : EngineType → String
  | .realCUGAN => ""
  | .realESRGAN => "models/realesrgan"

/-- The model root `init` decides on, empty when there is none. -/
def modelPath (opts : Options) : String :=
  if opts.model = "" then defaultModelRoot opts.engine else opts.model

/-- The value of a string of decimal digits. -/
def decimalValue (digits : List Char) : Int :=
  digits.foldl (fun value digit => value * 10 + (digit.toNat - '0'.toNat : Nat)) 0

/-- `std::stoi`; `none` when it throws. -/
def stoi (text : String) : Option Int :=
  let isSpace := fun c : Char => c = ' ' ∨ (9 ≤ c.toNat ∧ c.toNat ≤ 13)
  let rest := text.toList.dropWhile isSpace
  let (negative, rest) :=
    match rest with
    | '-' :: rest => (true, rest)
    | '+' :: rest => (false, rest)
    | rest => (false, rest)
  let digits := rest.takeWhile Char.isDigit
  let value := if negative then -decimalValue digits else decimalValue digits
  if digits = [] then none
  else if value < -(2 ^ 31) ∨ 2 ^ 31 ≤ value then none
  else some value

/-- The device id `init` reads from the options. -/
def selectDevice (gpuId : String) : Int :=
  if gpuId = "auto" ∨ gpuId = "" then 0 else (stoi gpuId).getD 0

namespace EngineState

/-- The assignments of `init` before it looks at the device. -/
def enableVulkan (engine : EngineState δ ν) : EngineState δ ν :=
  let engine := engine.setUseVulkan true
  { engine with
    opt := { engine.opt with
      useVulkanCompute := true
      useFp16Storage := true
      useFp16Arithmetic := true
      useFp16Packed := true
      lightmode := true
      useWinogradConvolution := false } }

/-- `init` from the choice of the device to the loading of the model. -/
def setupDevice (platform : Platform δ ν) (deviceId : Int) (engine : EngineState δ ν) :
    EngineState δ ν :=
  if 0 ≤ deviceId then
    (engine.setupVulkanAllocators platform deviceId).applyIgpuProfile platform deviceId
  else
    engine.ensureCpuMode.setUseVulkan false

/-- `init`, where no lookup of a file throws (`initRaises`). -/
def init (platform : Platform δ ν) (opts : Options) (engine : EngineState δ ν) :
    Bool × EngineState δ ν :=
  let engine := { engine with currentOptions := Engine.currentOptions opts }
  if modelPath opts = "" then
    (false, engine)
  else
    let engine := { engine with modelRoot := some (modelPath opts) }
    let engine := engine.enableVulkan.setupDevice platform (selectDevice opts.gpuId)
    let engine :=
      if engine.useVulkan then engine else engine.setupCpuAllocators.applyCpuLowMemProfile
    engine.loadModel platform

/-- `init` ends with what `std::filesystem::exists` throws: at the model root or in
`load_model`. -/
def initRaises (platform : Platform δ ν) (raises : String → Bool) (opts : Options) : Bool :=
  modelPath opts ≠ "" &&
    (raises (modelPath opts) ||
      loadModelRaises (Engine.currentOptions opts) platform.files fun file =>
        raises (joinPath (modelPath opts) file))

theorem initRaises_of_quiet (platform : Platform δ ν) (opts : Options)
    {raises : String → Bool} (quiet : ∀ path, raises path = false) :
    initRaises platform raises opts = false := by
  simp only [initRaises, quiet, loadModelRaises_of_quiet, Bool.or_self, Bool.and_false,
    implies_true]

/-! ## Processing -/

/-- A call of `run_inference_impl`. -/
def runInferenceImpl (engine : EngineState δ ν) : EngineState δ ν :=
  engine.record (.inferred engine.useVulkan engine.opt)

/-- What `run_inference` does before it tries again on the CPU. -/
def fallBackToCpu (engine : EngineState δ ν) : EngineState δ ν :=
  (((engine.releaseVulkanAllocators.ensureCpuMode).setUseVulkan false).setupCpuAllocators
    ).applyCpuLowMemProfile

/-- `run_inference` with the fallback allowed, as `process_image` calls it. -/
def runInference (run : ImageRun) (engine : EngineState δ ν) :
    Inference × EngineState δ ν :=
  let after := engine.runInferenceImpl
  match run.first with
  | .succeeded => (.succeeded, after)
  | .raised => (.raised, after)
  | .failed =>
      if after.useVulkan then
        (run.retry, (after.fallBackToCpu.record .retried).runInferenceImpl)
      else
        (.failed, after)

/-- `process_image`, and `process_rgb` around it. -/
def processImage (run : ImageRun) (engine : EngineState δ ν) : Bool × EngineState δ ν :=
  if run.prepared then
    let (inference, engine) := engine.runInference run
    (inference = .succeeded && run.finished, engine.clearCpuAllocators)
  else
    (false, engine.clearCpuAllocators)

/-- `process_single`: the images `process_with_tiling` hands to `process_rgb`, up to
the first that fails. -/
def processSingle (engine : EngineState δ ν) : List ImageRun → EngineState δ ν
  | [] => engine
  | run :: rest =>
      match engine.processImage run with
      | (true, engine) => processSingle engine rest
      | (false, engine) => engine

/-- `process_batch`. -/
def processBatch (engine : EngineState δ ν) (inputs : List (List ImageRun)) :
    EngineState δ ν :=
  inputs.foldl processSingle engine

/-- `clear_allocators`. -/
def clearAllocators (engine : EngineState δ ν) : EngineState δ ν :=
  if engine.useVulkan then
    (engine.recordFor .cleared .blob engine.blobVkallocator).recordFor .cleared .staging
      engine.stagingVkallocator
  else
    engine.record .poolsCleared

/-- `cleanup`. -/
def cleanup (engine : EngineState δ ν) : EngineState δ ν :=
  match engine.modelRoot with
  | none => engine
  | some _ =>
      let engine :=
        if engine.useVulkan then
          { engine with opt := { engine.opt with useVulkanCompute := false } }
        else engine
      let engine := engine.releaseVulkanAllocators.setUseVulkan false
      ({ engine with modelRoot := none }).clearCpuAllocators

/-! ## What the helpers leave alone -/

section Frames

variable (platform : Platform δ ν) (deviceId : Int) (engine : EngineState δ ν)

theorem applyCpuLowMemProfile_frame :
    let after := engine.applyCpuLowMemProfile
    after.useVulkan = engine.useVulkan ∧ after.log = engine.log ∧
      after.opt.useVulkanCompute = engine.opt.useVulkanCompute ∧
      (engine.opt.CpuPools → after.opt.CpuPools) ∧
      (engine.opt.NoVkAllocator → after.opt.NoVkAllocator) := by
  simp only [applyCpuLowMemProfile]
  split
  · exact ⟨rfl, rfl, rfl, id, id⟩
  · exact ⟨rfl, rfl, rfl, id, id⟩

theorem setupVulkanAllocators_frame :
    let after := engine.setupVulkanAllocators platform deviceId
    after.useVulkan = engine.useVulkan ∧
      after.opt.useVulkanCompute = engine.opt.useVulkanCompute := by
  simp only [setupVulkanAllocators]
  split
  · exact ⟨rfl, rfl⟩
  · split
    · exact ⟨rfl, rfl⟩
    · exact ⟨rfl, rfl⟩

theorem applyIgpuProfile_frame :
    let after := engine.applyIgpuProfile platform deviceId
    after.useVulkan = engine.useVulkan ∧
      after.opt.useVulkanCompute = engine.opt.useVulkanCompute := by
  simp only [applyIgpuProfile]
  split
  · exact ⟨rfl, rfl⟩
  · split
    · exact ⟨rfl, rfl⟩
    · exact ⟨rfl, rfl⟩

theorem fallBackToCpu_useVulkan :
    engine.fallBackToCpu.useVulkan = false :=
  (applyCpuLowMemProfile_frame _).1

end Frames

end EngineState

/-! ## Whole lives -/

/-- A call between `init` and the first `cleanup`. -/
inductive Call where
  | processRgb (run : ImageRun)
  | processSingle (runs : List ImageRun)
  | processBatch (inputs : List (List ImageRun))
  | clearAllocators
  deriving Repr

def perform (engine : EngineState δ ν) : Call → EngineState δ ν
  | .processRgb run => (engine.processImage run).2
  | .processSingle runs => engine.processSingle runs
  | .processBatch inputs => engine.processBatch inputs
  | .clearAllocators => engine.clearAllocators

/-- A newly constructed engine after `init` and a sequence of calls. -/
def service (platform : Platform δ ν) (opts : Options) (calls : List Call) :
    EngineState δ ν :=
  calls.foldl perform ((EngineState.start platform).init platform opts).2

/-- A whole life, with at least the destructor's `cleanup`. -/
def life (platform : Platform δ ν) (opts : Options) (calls : List Call) (cleanups : Nat) :
    EngineState δ ν :=
  EngineState.cleanup^[cleanups + 1] (service platform opts calls)

/-- The allocators as a ledger's resources. -/
def allocators (ν : Type) : Ledger (Event ν) (VkKind × ν) where
  acquired resource := .acquired resource.1 resource.2
  reclaimed resource := .reclaimed resource.1 resource.2
  acquired_injective := by
    intro resource other equal
    injection equal with kindEq allocatorEq
    exact Prod.ext kindEq allocatorEq
  reclaimed_injective := by
    intro resource other equal
    injection equal with kindEq allocatorEq
    exact Prod.ext kindEq allocatorEq
  acquired_ne_reclaimed := by
    intro resource other equal
    cases equal

end NcnnUpscaler.Engine
