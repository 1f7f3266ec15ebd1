import NcnnUpscaler.Engine.Lifecycle
import NcnnUpscaler.Image.Crop
import NcnnUpscaler.Tiling.Calls
import NcnnUpscaler.Tiling.Config

/-!
# An engine at work

The shared engine with its mode and the pixels it computes: `run_inference_impl` of the
two engines, `run_inference` with its fallback, `process_image`, `process_rgb` and
`process_single`.  ncnn is a parameter whose answers may change from call to call.
-/

namespace NcnnUpscaler.Service

open Raster Tiling
open Engine (EngineState NetOption ImageRun getScaleFactor)
open Image (NetResult padImage needsCrop cropResult defaultUpscalerPadding)

/-- How `Extractor::extract` ends: with a blob, with a nonzero code, or by an
exception. -/
inductive Extraction where
  | blob (result : NetResult)
  | error
  | raised

/-- `ncnn::Net` with a model loaded.  A world `ω` is whatever else the outcome of an
extraction depends on; an extraction may change it. -/
structure Net (ω ν : Type) where
  Extractor : Type
  createExtractor : ω → NetOption ν → Extractor
  input : Extractor → (blobName : String) → ImagePixels → Extractor × Int
  extract : ω → Extractor → (blobName : String) → ω × Extraction

variable {δ ν ω : Type}

/-- `run_inference_impl` of the two engines. -/
def Net.runInferenceImpl (net : Net ω ν) (engine : EngineType) (world : ω) (opt : NetOption ν)
    (padded : ImagePixels) : ω × Extraction :=
  match engine with
  | .realCUGAN =>
      let (ex, _) := net.input (net.createExtractor world opt) "in0" padded
      net.extract world ex "out0"
  | .realESRGAN =>
      let (ex, ret) := net.input (net.createExtractor world opt) "data" padded
      if ret ≠ 0 then
        let (ex, ret) := net.input (net.createExtractor world opt) "in0" padded
        if ret ≠ 0 then (world, .error) else net.extract world ex "out0"
      else
        net.extract world ex "output"

/-- The value is one of an `int`; to compute another is undefined. -/
def FitsInt (value : Int) : Prop := -2147483648 ≤ value ∧ value < 2147483648

instance (value : Int) : Decidable (FitsInt value) := inferInstanceAs (Decidable (_ ∧ _))

/-- The sizes that `process_image` computes from the result of an inference fit. -/
def CropFits (scale : Int) (decoded : ImagePixels) (result : NetResult) : Prop :=
  FitsInt (result.w * result.h * 3) ∧
    FitsInt (decoded.width * scale) ∧ FitsInt (decoded.height * scale) ∧
    (needsCrop result (decoded.width * scale) (decoded.height * scale) = true →
      FitsInt (decoded.width * scale * (decoded.height * scale) * 3))

instance (scale : Int) (decoded : ImagePixels) (result : NetResult) :
    Decidable (CropFits scale decoded result) := inferInstanceAs (Decidable (_ ∧ _))

/-- The size of the output that `process_with_tiling` computes for a decoded image
fits. -/
def OutputFits (config : TilingConfig) (source : ImagePixels) : Prop :=
  shouldEnableTiling source.width source.height config = true →
    FitsInt (source.width * config.scaleFactor * (source.height * config.scaleFactor) * 3)

instance (config : TilingConfig) (source : ImagePixels) : Decidable (OutputFits config source) :=
  inferInstanceAs (Decidable (_ → _))

/-- An engine at work: its members and the world.  The images given to
`run_inference_impl`, the latest first, and whether memory outside a buffer has been
accessed or an `int` has overflowed are kept beside them. -/
structure Machine (δ ν ω : Type) where
  engine : EngineState δ ν
  world : ω
  inputs : List ImagePixels := []
  faulted : Bool := false

/-- The outcome of an extraction, without the pixels. -/
def Extraction.outcome : Extraction → Engine.Inference
  | .blob _ => .succeeded
  | .error => .failed
  | .raised => .raised

namespace Machine

/-- A call of `run_inference_impl`. -/
def infer (net : Net ω ν) (padded : ImagePixels) (machine : Machine δ ν ω) :
    Extraction × Machine δ ν ω :=
  let (world, extraction) := net.runInferenceImpl machine.engine.currentOptions.engine
    machine.world machine.engine.opt padded
  (extraction,
    { machine with
      engine := machine.engine.runInferenceImpl
      world
      inputs := padded :: machine.inputs })

/-- `run_inference` with the fallback allowed. -/
def runInference (net : Net ω ν) (padded : ImagePixels) (machine : Machine δ ν ω) :
    Extraction × Machine δ ν ω :=
  match machine.infer net padded with
  | (.error, after) =>
      if after.engine.useVulkan then
        { after with engine := after.engine.fallBackToCpu.record .retried }.infer net padded
      else
        (.error, after)
  | done => done

/-- `clear_cpu_allocators`. -/
def clearCpuAllocators (machine : Machine δ ν ω) : Machine δ ν ω :=
  { machine with engine := machine.engine.clearCpuAllocators }

/-- `process_image`. -/
def processImage (net : Net ω ν) (decoded : ImagePixels) (machine : Machine δ ν ω) :
    Except Stop ImagePixels × Machine δ ν ω :=
  match padImage decoded defaultUpscalerPadding with
  | .error stop => (.error stop, machine.clearCpuAllocators)
  | .ok padded =>
      -- `from_pixels` reads three bytes for each pixel.
      if ¬FitsInt (padded.width * padded.height * 3) ∨
          (padded.pixels.length : Int) < padded.width * padded.height * 3 then
        (.error .fault, machine.clearCpuAllocators)
      else
        match machine.runInference net padded with
        | (.blob result, after) =>
            let scale := getScaleFactor after.engine.currentOptions
            (if CropFits scale decoded result then cropResult scale decoded result
              else .error .fault,
              after.clearCpuAllocators)
        | (_, after) => (.error .failed, after.clearCpuAllocators)

/-- `process_rgb`. -/
def processRgb (net : Net ω ν) (rgbData : Rgb) (width height : Int)
    (machine : Machine δ ν ω) : Except Stop ImagePixels × Machine δ ν ω :=
  if ¬FitsInt (width * height * 3) then
    (.error .fault, machine)
  else if width * height * 3 < 0 then
    (.error .failed, machine)
  else if (rgbData.length : Int) < width * height * 3 then
    (.error .fault, machine)
  else
    machine.processImage net
      { width, height, channels := 3, pixels := rgbData.take (width * height * 3).toNat }

/-- What a call leaves: its result, or that it failed; and that it faulted, if it did. -/
def settle {α : Type} (result : Except Stop α) (machine : Machine δ ν ω) :
    Machine δ ν ω × Option α :=
  match result with
  | .ok value => (machine, some value)
  | .error .failed => (machine, none)
  | .error .fault => ({ machine with faulted := true }, none)

/-- The engine as `process_with_tiling` calls it. -/
def rgbEngine (net : Net ω ν) : RgbEngine (Machine δ ν ω) where
  processRgb := fun machine rgbData width height =>
    let (result, after) := machine.processRgb net rgbData width height
    after.settle result

/-- `get_tiling_config`. -/
def tilingConfig (machine : Machine δ ν ω) : TilingConfig :=
  getTilingConfig machine.engine.currentOptions machine.engine.igpuProfile

/-- `process_single`. -/
def processSingle (net : Net ω ν) (codec : Codec) (inputData : List UInt8)
    (outputFormat : String) (machine : Machine δ ν ω) :
    Machine δ ν ω × Option (List UInt8) :=
  if ∀ source ∈ codec.decodeImage inputData, OutputFits machine.tilingConfig source then
    let done := processWithTiling (rgbEngine net) codec machine.tilingConfig inputData
      outputFormat machine
    done.engine.settle done.result
  else
    machine.settle (.error .fault)

/-- `process_batch`: the `data` of each output, empty where `process_single` failed. -/
def processBatch (net : Net ω ν) (codec : Codec) (outputFormat : String) :
    (inputs : List (List UInt8)) → Machine δ ν ω → Machine δ ν ω × List (List UInt8)
  | [], machine => (machine, [])
  | input :: inputs, machine =>
      let (after, output) := machine.processSingle net codec input outputFormat
      let (last, outputs) := processBatch net codec outputFormat inputs after
      (last, output.getD [] :: outputs)

/-- `clear_allocators`. -/
def clearAllocators (machine : Machine δ ν ω) : Machine δ ν ω :=
  { machine with engine := machine.engine.clearAllocators }

@[simp] theorem clearCpuAllocators_engine (machine : Machine δ ν ω) :
    machine.clearCpuAllocators.engine = machine.engine.clearCpuAllocators := rfl

@[simp] theorem settle_engine {α : Type} (result : Except Stop α) (machine : Machine δ ν ω) :
    (machine.settle result).1.engine = machine.engine := by
  cases result with
  | ok value => rfl
  | error stop => cases stop <;> rfl

@[simp] theorem settle_inputs {α : Type} (result : Except Stop α) (machine : Machine δ ν ω) :
    (machine.settle result).1.inputs = machine.inputs := by
  cases result with
  | ok value => rfl
  | error stop => cases stop <;> rfl

/-! ## The engine's own course -/

/-- What one inference does to the engine's mode and allocators. -/
theorem runInference_follows (net : Net ω ν) (padded : ImagePixels) (machine : Machine δ ν ω) :
    ∃ first retry, ∀ prepared finished,
      machine.engine.runInference ⟨prepared, first, retry, finished⟩ =
        ((machine.runInference net padded).1.outcome,
          (machine.runInference net padded).2.engine) := by
  let after := (machine.infer net padded).2
  let again := { after with engine := after.engine.fallBackToCpu.record .retried }.infer net padded
  refine ⟨(machine.infer net padded).1.outcome, again.1.outcome, ?_⟩
  intro prepared finished
  simp only [runInference]
  split
  · next failed inferEq =>
      have engineEq : failed.engine = machine.engine.runInferenceImpl :=
        (congrArg (fun done => done.2.engine) inferEq).symm
      simp only [EngineState.runInference, inferEq, Extraction.outcome, engineEq]
      split
      · next vulkan =>
          have afterEq : failed = after := (congrArg Prod.snd inferEq).symm
          simp only [again, ← afterEq, infer, engineEq]
      · simp only [engineEq]
  · next other =>
      cases inferEq : machine.infer net padded with
      | mk extraction done =>
          have engineEq : done.engine = machine.engine.runInferenceImpl :=
            (congrArg (fun done => done.2.engine) inferEq).symm
          cases extraction with
          | blob result => simp only [EngineState.runInference, Extraction.outcome, engineEq]
          | error => exact absurd inferEq (other done)
          | raised => simp only [EngineState.runInference, Extraction.outcome, engineEq]

/-- What `process_image` does to them, and when it returns true. -/
theorem processImage_follows (net : Net ω ν) (decoded : ImagePixels)
    (machine : Machine δ ν ω) :
    ∃ run : ImageRun, machine.engine.processImage run =
      ((machine.processImage net decoded).1.isOk, (machine.processImage net decoded).2.engine) := by
  simp only [processImage]
  split
  · exact ⟨⟨false, .failed, .failed, false⟩, rfl⟩
  · next padded _ =>
      split
      · exact ⟨⟨false, .failed, .failed, false⟩, rfl⟩
      · rcases machine.runInference_follows net padded with ⟨first, retry, follows⟩
        split
        · next result after inferredEq =>
            rw [inferredEq] at follows
            let scale := getScaleFactor after.engine.currentOptions
            refine ⟨⟨true, first, retry, (if CropFits scale decoded result then
              cropResult scale decoded result else .error .fault).isOk⟩, ?_⟩
            simp only [EngineState.processImage, if_true, follows, Extraction.outcome,
              decide_true, Bool.true_and, clearCpuAllocators_engine, scale]
        · next extraction after failed inferredEq =>
            rw [inferredEq] at follows
            refine ⟨⟨true, first, retry, false⟩, ?_⟩
            simp only [EngineState.processImage, if_true, follows, Bool.and_false,
              clearCpuAllocators_engine]
            rfl

end Machine

end NcnnUpscaler.Service
