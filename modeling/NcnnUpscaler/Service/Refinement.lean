import NcnnUpscaler.Service.Safety

/-!
# The engine as a function of its images

An engine whose network computes one function, on the GPU if that works and on the CPU
otherwise, returns for each image what a reference engine without a mode or a history
returns for it: `process_with_tiling` around a single inference.
-/

namespace NcnnUpscaler.Service

open Wire Raster Tiling KeepAlive LocalFilter
open Engine (EngineState Platform perform getScaleFactor)
open Image (DecodedImage Inference IsLocal padImage defaultUpscalerPadding)

variable {δ ν ω : Type}

/-- A blob is what `infer` computes for the input, and an extraction that does not use
Vulkan compute returns one; one that does may fail. -/
def Net.Computes (net : Net ω ν) (engine : EngineType) (infer : Inference) : Prop :=
  ∀ world opt padded, DecodedImage padded →
    (∃ result, (net.runInferenceImpl engine world opt padded).2 = .blob result ∧
      infer padded = some result) ∨
    (net.runInferenceImpl engine world opt padded).2 = .error ∧ opt.useVulkanCompute = true

/-- The function returns results of the input's size, magnified. -/
def Magnified (infer : Inference) (scale : Int) : Prop :=
  ∀ padded result, DecodedImage padded → infer padded = some result →
    result.w = scale * padded.width ∧ result.h = scale * padded.height

theorem Net.Computes.magnifies {net : Net ω ν} {engine : EngineType} {infer : Inference}
    {scale : Int} (computes : net.Computes engine infer) (magnified : Magnified infer scale) :
    net.Magnifies engine scale := by
  intro world opt padded result valid returned
  rcases computes world opt padded valid with ⟨other, otherReturned, inferred⟩ | ⟨failed, _⟩
  · rw [returned] at otherReturned
    cases otherReturned
    exact magnified padded result valid inferred
  · rw [returned] at failed
    cases failed

theorem magnified_of_isLocal {radius : Nat} {kernel : Kernel radius Pixel} {infer : Inference}
    {scale : Int} (isLocal : IsLocal infer kernel scale) : Magnified infer scale := by
  intro padded result valid inferred
  rcases isLocal padded valid with ⟨other, otherInferred, wEq, hEq, _⟩
  rw [inferred] at otherInferred
  cases otherInferred
  exact ⟨wEq, hEq⟩

/-- What the engine has become never uses Vulkan compute outside Vulkan mode. -/
def KeepsCpuMode (start : EngineState δ ν) : Prop :=
  ∀ calls : List Engine.Call, (calls.foldl perform start).useVulkan = false →
    (calls.foldl perform start).opt.useVulkanCompute = false

theorem boot_keepsCpuMode [DecidableEq ν] (platform : Platform δ ν) (opts : Options)
    (world : ω) : KeepsCpuMode (boot platform opts world).engine := by
  intro calls off
  exact ((Engine.serving_service platform opts calls).ready.cpu off).1

/-- What `process_single` returns for an image around one inference. -/
def reference (infer : Inference) (codec : Codec) (config : TilingConfig) (image : Bytes)
    (outputFormat : String) : Option Bytes :=
  match (processWithTiling (Image.rgbEngine infer config.scaleFactor) codec config image
      outputFormat ()).result with
  | .ok output => some output
  | .error _ => none

namespace Machine

section Computing

variable {net : Net ω ν} {infer : Inference} {start : EngineState δ ν} {cap : Int}
  {machine : Machine δ ν ω}

/-- With its fallback, an inference returns what `infer` computes. -/
theorem runInference_computes {padded : ImagePixels} (valid : DecodedImage padded)
    (computes : net.Computes machine.engine.currentOptions.engine infer)
    (cpu : machine.engine.useVulkan = false → machine.engine.opt.useVulkanCompute = false) :
    ∃ result, (machine.runInference net padded).1 = .blob result ∧
      infer padded = some result := by
  have first := computes machine.world machine.engine.opt padded valid
  simp only [runInference]
  split
  · next failed inferEq =>
      have failedEq : failed = (machine.infer net padded).2 := (congrArg Prod.snd inferEq).symm
      have errorEq : (net.runInferenceImpl machine.engine.currentOptions.engine machine.world
          machine.engine.opt padded).2 = .error := congrArg Prod.fst inferEq
      rcases first with ⟨result, returned, _⟩ | ⟨_, compute⟩
      · rw [errorEq] at returned
        cases returned
      · have vulkan : failed.engine.useVulkan = true := by
          rw [failedEq]
          cases on : machine.engine.useVulkan with
          | true => exact on
          | false =>
              rw [cpu on] at compute
              cases compute
        rw [if_pos vulkan]
        have options : failed.engine.fallBackToCpu.currentOptions =
            machine.engine.currentOptions := by
          rw [failedEq]
          exact (fallBackToCpu_configuration _).options
        have off : failed.engine.fallBackToCpu.opt.useVulkanCompute = false :=
          (EngineState.applyCpuLowMemProfile_frame _).2.2.1
        rw [← options] at computes
        rcases computes failed.world failed.engine.fallBackToCpu.opt padded valid with
          ⟨result, returned, inferred⟩ | ⟨_, again⟩
        · exact ⟨result, returned, inferred⟩
        · rw [off] at again
          cases again
  · next other =>
      rcases first with ⟨result, returned, inferred⟩ | ⟨failed, _⟩
      · exact ⟨result, returned, inferred⟩
      · have inferEq : machine.infer net padded = (.error, (machine.infer net padded).2) :=
          Prod.ext failed rfl
        exact absurd inferEq (other _)

/-- Within the cap `process_image` returns what it returns around one inference. -/
theorem processImage_computes {decoded : ImagePixels} (valid : DecodedImage decoded)
    (widthLe : decoded.width ≤ cap) (heightLe : decoded.height ≤ cap)
    (scalePos : 1 ≤ getScaleFactor machine.engine.currentOptions)
    (computes : net.Computes machine.engine.currentOptions.engine infer)
    (magnified : Magnified infer (getScaleFactor machine.engine.currentOptions))
    (fits : MagnifiedFits (getScaleFactor machine.engine.currentOptions) cap)
    (cpu : machine.engine.useVulkan = false → machine.engine.opt.useVulkanCompute = false) :
    (machine.processImage net decoded).1 =
      Image.processImage infer (getScaleFactor machine.engine.currentOptions) decoded := by
  rcases processImage_exact valid widthLe heightLe scalePos (computes.magnifies magnified) fits
    with ⟨padded, padding, paddedValid, exactly⟩
  rcases runInference_computes paddedValid computes cpu with ⟨result, returned, inferred⟩
  rw [exactly, returned, Image.processImage_eq valid padding, inferred]

/-- The engine returns what a single inference returns, whatever it has become. -/
theorem rgbEngine_simulates (suited : Suited net start cap) (keeps : KeepsCpuMode start)
    (computes : net.Computes start.currentOptions.engine infer)
    (magnified : Magnified infer (getScaleFactor start.currentOptions)) :
    (rgbEngine net).Simulates (Image.rgbEngine infer (getScaleFactor start.currentOptions))
      (CalledWithin cap) (fun (machine : Machine δ ν ω) _ => machine.Follows start) := by
  intro machine other rgbData width height call follows
  have options := follows.configuration.options
  have cpu : machine.engine.useVulkan = false →
      machine.engine.opt.useVulkanCompute = false := by
    rcases follows with ⟨calls, engineEq⟩
    rw [engineEq]
    exact keeps calls
  have scalePos := suited.scale_pos
  have fits := suited.fits
  have callFits := (padded_fits fits scalePos call.width_pos call.height_pos call.width_le
    call.height_le).2.2
  rw [← options] at scalePos fits computes magnified
  have same := processImage_computes call.decodedImage call.width_le call.height_le scalePos
    computes magnified fits cpu
  rw [options] at same
  refine ⟨?_, follows.processRgb net rgbData width height⟩
  simp only [rgbEngine, Image.rgbEngine, processRgb_eq call.size_eq, if_pos callFits,
    Image.processRgb_eq call.size_eq, same]
  cases Image.processImage infer (getScaleFactor start.currentOptions)
      ⟨width, height, 3, rgbData⟩ with
  | ok encoded => rfl
  | error stop => cases stop <;> rfl

/-- `process_single` returns what the reference does. -/
theorem processSingle_computes (suited : Suited net start cap) (keeps : KeepsCpuMode start)
    (computes : net.Computes start.currentOptions.engine infer)
    (magnified : Magnified infer (getScaleFactor start.currentOptions)) {codec : Codec}
    (decodes : DecodesImages codec) {image : Bytes}
    (fits : ∀ source ∈ codec.decodeImage image,
      OutputFits (getTilingConfig start.currentOptions start.igpuProfile) source)
    (outputFormat : String) (follows : machine.Follows start) :
    (machine.processSingle net codec image outputFormat).2 =
      reference infer codec (getTilingConfig start.currentOptions start.igpuProfile) image
        outputFormat := by
  have configEq := follows.tilingConfig_eq
  have only (source : ImagePixels) (decoded : codec.decodeImage image = some source) :=
    makesOnly_within suited.valid suited.within (decodes image source decoded)
  have same : (processWithTiling (rgbEngine net) codec
        (getTilingConfig start.currentOptions start.igpuProfile) image outputFormat
        machine).result =
      (processWithTiling (Image.rgbEngine infer (getScaleFactor start.currentOptions)) codec
        (getTilingConfig start.currentOptions start.igpuProfile) image outputFormat ()).result :=
    (processWithTiling_simulates (rgbEngine_simulates suited keeps computes magnified) only
      outputFormat follows).1
  simp only [Machine.processSingle, configEq, if_pos fits, same, reference,
    getTilingConfig_scaleFactor]
  generalize (processWithTiling (Image.rgbEngine infer (getScaleFactor start.currentOptions))
    codec (getTilingConfig start.currentOptions start.igpuProfile) image outputFormat
    ()).result = result
  cases result with
  | ok _ => rfl
  | error failure =>
      cases failure with
      | failed => rfl
      | fault => rfl

/-- Behind the keep-alive loop the engine simulates the reference, on images whose
outputs have sizes that fit. -/
theorem keepAliveEngine_simulates (suited : Suited net start cap) (keeps : KeepsCpuMode start)
    (computes : net.Computes start.currentOptions.engine infer)
    (magnified : Magnified infer (getScaleFactor start.currentOptions)) {codec : Codec}
    (decodes : DecodesImages codec) (outputFormat : String) :
    (keepAliveEngine net codec : KeepAlive.Engine (Machine δ ν ω)).Simulates
      (.ofFunction (reference infer codec
        (getTilingConfig start.currentOptions start.igpuProfile))) outputFormat
      (fun image => ∀ source ∈ codec.decodeImage image,
        OutputFits (getTilingConfig start.currentOptions start.igpuProfile) source)
      (fun machine _ => machine.Follows start) where
  output := by
    intro machine other image fits follows
    exact processSingle_computes suited keeps computes magnified decodes fits outputFormat
      follows
  related := by
    intro machine other image fits follows
    exact follows.processSingle net codec image outputFormat
  clearAllocators := by
    intro machine other follows
    exact follows.call .clearAllocators rfl

end Computing

end Machine

end NcnnUpscaler.Service
