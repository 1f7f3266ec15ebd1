import NcnnUpscaler.Service.Configuration
import NcnnUpscaler.Service.Sizes

/-!
# What a session does to memory

Whole sessions of an engine started on accepted options, for every byte stream and
whatever ncnn does.  The images the network is given are never larger than the options
allow, and as long as the network magnifies by the engine's scale no pixel memory is
accessed outside a buffer.
-/

namespace NcnnUpscaler.Service

open Wire Raster Tiling KeepAlive
open Engine (EngineState Platform getScaleFactor)
open Image (DecodedImage NetResult padImage paddedSize cropResult defaultUpscalerPadding)

variable {δ ν ω : Type}

/-- Every blob has the size of the input, magnified. -/
def Net.Magnifies (net : Net ω ν) (engine : EngineType) (scale : Int) : Prop :=
  ∀ world opt padded result, DecodedImage padded →
    (net.runInferenceImpl engine world opt padded).2 = .blob result →
    result.w = scale * padded.width ∧ result.h = scale * padded.height

/-- What the codec decodes is a nonempty image of three channels. -/
def DecodesImages (codec : Codec) : Prop :=
  ∀ data source, codec.decodeImage data = some source → DecodedImage source

namespace Machine

/-! ## One image -/

section Inference

variable (net : Net ω ν) (padded : ImagePixels) (machine : Machine δ ν ω)

/-- What an inference leaves alone, and what it adds. -/
theorem runInference_frame :
    let after := (machine.runInference net padded).2
    after.engine.currentOptions = machine.engine.currentOptions ∧
      after.faulted = machine.faulted ∧
      ∀ input ∈ after.inputs, input = padded ∨ input ∈ machine.inputs := by
  simp only [runInference]
  split
  · next failed inferEq =>
      have failedEq : failed = (machine.infer net padded).2 := (congrArg Prod.snd inferEq).symm
      split
      · refine ⟨?_, ?_, ?_⟩
        · rw [failedEq]
          exact (fallBackToCpu_configuration _).options
        · rw [failedEq]
          rfl
        · intro input member
          rw [failedEq] at member
          rcases List.mem_cons.mp member with again | before
          · exact .inl again
          · exact List.mem_cons.mp before
      · refine ⟨?_, ?_, ?_⟩
        · rw [failedEq]
          rfl
        · rw [failedEq]
          rfl
        · intro input member
          rw [failedEq] at member
          exact List.mem_cons.mp member
  · exact ⟨rfl, rfl, fun _ member => List.mem_cons.mp member⟩

/-- A blob is one that some call of `run_inference_impl` returned. -/
theorem runInference_blob {result : NetResult}
    (inferred : (machine.runInference net padded).1 = .blob result) :
    ∃ world opt, (net.runInferenceImpl machine.engine.currentOptions.engine world opt padded).2 =
      .blob result := by
  simp only [runInference] at inferred
  split at inferred
  · next failed inferEq =>
      have failedEq : failed = (machine.infer net padded).2 := (congrArg Prod.snd inferEq).symm
      split at inferred
      · have options : failed.engine.fallBackToCpu.currentOptions =
            machine.engine.currentOptions := by
          rw [failedEq]
          exact (fallBackToCpu_configuration _).options
        have again : (net.runInferenceImpl failed.engine.fallBackToCpu.currentOptions.engine
            failed.world failed.engine.fallBackToCpu.opt padded).2 = .blob result := inferred
        rw [options] at again
        exact ⟨_, _, again⟩
      · cases inferred
  · exact ⟨_, _, inferred⟩

/-- Such a blob has the size of the input, magnified. -/
theorem runInference_magnifies {scale : Int} (valid : DecodedImage padded)
    (magnifies : net.Magnifies machine.engine.currentOptions.engine scale) {result : NetResult}
    (inferred : (machine.runInference net padded).1 = .blob result) :
    result.w = scale * padded.width ∧ result.h = scale * padded.height := by
  rcases machine.runInference_blob net padded inferred with ⟨world, opt, returned⟩
  exact magnifies world opt padded result valid returned

end Inference

section Images

variable {net : Net ω ν} {decoded : ImagePixels} {machine : Machine δ ν ω}

/-- What `process_image` leaves alone, and what it adds. -/
theorem processImage_frame :
    let after := (machine.processImage net decoded).2
    after.faulted = machine.faulted ∧
      ∀ input ∈ after.inputs,
        padImage decoded defaultUpscalerPadding = .ok input ∨ input ∈ machine.inputs := by
  simp only [processImage]
  split
  · exact ⟨rfl, fun _ member => .inr member⟩
  · next padded padding =>
      split
      · exact ⟨rfl, fun _ member => .inr member⟩
      · rcases machine.runInference_frame net padded with ⟨_, faultedEq, inputs⟩
        have added : ∀ input ∈ (machine.runInference net padded).2.inputs,
            padImage decoded defaultUpscalerPadding = .ok input ∨ input ∈ machine.inputs := by
          intro input member
          rcases inputs input member with new | old
          · exact .inl (by rw [new]; exact padding)
          · exact .inr old
        split
        · next inferredEq =>
            rw [inferredEq] at faultedEq added
            exact ⟨faultedEq, added⟩
        · next inferredEq =>
            rw [inferredEq] at faultedEq added
            exact ⟨faultedEq, added⟩

/-- `process_image` on a decoded image, from the outcome of the inference. -/
theorem processImage_eq {padded : ImagePixels} (valid : DecodedImage padded)
    (padding : padImage decoded defaultUpscalerPadding = .ok padded) :
    let scale := getScaleFactor machine.engine.currentOptions
    (machine.processImage net decoded).1 =
      if FitsInt (padded.width * padded.height * 3) then
        match (machine.runInference net padded).1 with
        | .blob result =>
            if CropFits scale decoded result then cropResult scale decoded result
            else .error .fault
        | _ => .error .failed
      else
        .error .fault := by
  have sizeEq := valid.size_eq
  rw [valid.rgb] at sizeEq
  have whole : ¬(padded.pixels.length : Int) < padded.width * padded.height * 3 := by omega
  have optionsEq := (machine.runInference_frame net padded).1
  simp only [processImage, padding, whole, or_false]
  by_cases fits : FitsInt (padded.width * padded.height * 3)
  · simp only [fits, not_true_eq_false, if_false, if_true]
    generalize machine.runInference net padded = done at optionsEq
    rcases done with ⟨extraction, after⟩
    cases extraction with
    | blob result =>
        simp only at optionsEq
        simp only [optionsEq]
    | error => rfl
    | raised => rfl
  · simp only [fits, not_false_eq_true, if_true, if_false]

/-- An image that `process_image` returns for a decoded image has the scaled size. -/
theorem processImage_sized (valid : DecodedImage decoded)
    (scalePos : 1 ≤ getScaleFactor machine.engine.currentOptions)
    (magnifies : net.Magnifies machine.engine.currentOptions.engine
      (getScaleFactor machine.engine.currentOptions)) {encoded : ImagePixels}
    (returned : (machine.processImage net decoded).1 = .ok encoded) :
    let scale := getScaleFactor machine.engine.currentOptions
    encoded.width = decoded.width * scale ∧ encoded.height = decoded.height * scale ∧
      (encoded.pixels.length : Int) = encoded.width * encoded.height * 3 := by
  rcases Image.exists_padded valid with ⟨padded, padding, paddedValid, widthEq, heightEq, _⟩
  rw [processImage_eq paddedValid padding] at returned
  split at returned
  · split at returned
    · next result inferred =>
        split at returned
        · rcases cropResult_magnified valid scalePos widthEq heightEq
            (machine.runInference_magnifies net padded paddedValid magnifies inferred) with
            ⟨pixels, croppedEq, pixelsLength⟩
          rw [croppedEq] at returned
          cases returned
          exact ⟨rfl, rfl, pixelsLength⟩
        · cases returned
    · cases returned
  · cases returned

/-- Within the cap every size fits. -/
theorem processImage_exact {cap : Int} (valid : DecodedImage decoded)
    (widthLe : decoded.width ≤ cap) (heightLe : decoded.height ≤ cap)
    (scalePos : 1 ≤ getScaleFactor machine.engine.currentOptions)
    (magnifies : net.Magnifies machine.engine.currentOptions.engine
      (getScaleFactor machine.engine.currentOptions))
    (fits : MagnifiedFits (getScaleFactor machine.engine.currentOptions) cap) :
    ∃ padded, padImage decoded defaultUpscalerPadding = .ok padded ∧
      DecodedImage padded ∧
      (machine.processImage net decoded).1 =
        match (machine.runInference net padded).1 with
        | .blob result =>
            cropResult (getScaleFactor machine.engine.currentOptions) decoded result
        | _ => .error .failed := by
  rcases Image.exists_padded valid with ⟨padded, padding, paddedValid, widthEq, heightEq, _⟩
  refine ⟨padded, padding, paddedValid, ?_⟩
  have paddedFits := (padded_fits fits scalePos valid.width_pos valid.height_pos widthLe
    heightLe).2.1
  rw [← widthEq, ← heightEq] at paddedFits
  rw [processImage_eq paddedValid padding, if_pos paddedFits]
  split
  · next result inferred =>
      rcases machine.runInference_magnifies net padded paddedValid magnifies inferred with
        ⟨wEq, hEq⟩
      rw [widthEq] at wEq
      rw [heightEq] at hEq
      exact if_pos (crop_fits fits scalePos valid.width_pos valid.height_pos widthLe heightLe
        rfl rfl wEq hEq)
  · rfl

end Images

/-! ## Calls of process_rgb -/

section Calls

variable {net : Net ω ν} {machine : Machine δ ν ω} {rgbData : Rgb} {width height : Int}

/-- `process_rgb` on a buffer of exactly the size of its image. -/
theorem processRgb_eq (size : (rgbData.length : Int) = width * height * 3) :
    machine.processRgb net rgbData width height =
      if FitsInt (width * height * 3) then
        machine.processImage net ⟨width, height, 3, rgbData⟩
      else
        (.error .fault, machine) := by
  have nonneg : ¬width * height * 3 < 0 := by omega
  have enough : ¬(rgbData.length : Int) < width * height * 3 := by omega
  have whole : rgbData.take (width * height * 3).toNat = rgbData :=
    List.take_of_length_le (by omega)
  simp only [processRgb, if_neg nonneg, if_neg enough, whole]
  by_cases fits : FitsInt (width * height * 3)
  · rw [if_neg (not_not_intro fits), if_pos fits]
  · rw [if_pos fits, if_neg fits]

/-- A call of `process_rgb` on such a buffer returns the scaled image if it returns one. -/
theorem rgbEngine_sized (widthPos : 1 ≤ width) (heightPos : 1 ≤ height)
    (size : (rgbData.length : Int) = width * height * 3)
    (scalePos : 1 ≤ getScaleFactor machine.engine.currentOptions)
    (magnifies : net.Magnifies machine.engine.currentOptions.engine
      (getScaleFactor machine.engine.currentOptions)) {upscaled : ImagePixels}
    (produced : ((rgbEngine net).processRgb machine rgbData width height).2 = some upscaled) :
    let scale := getScaleFactor machine.engine.currentOptions
    upscaled.width = width * scale ∧ upscaled.height = height * scale ∧
      (upscaled.pixels.length : Int) = upscaled.width * upscaled.height * 3 := by
  have valid : DecodedImage ⟨width, height, 3, rgbData⟩ :=
    ⟨⟨widthPos, heightPos, (by decide : (1 : Int) ≤ 3), size⟩, rfl⟩
  simp only [rgbEngine, processRgb_eq size] at produced
  split at produced
  · cases returned : (machine.processImage net ⟨width, height, 3, rgbData⟩).1 with
    | ok encoded =>
        rw [returned] at produced
        cases produced
        exact processImage_sized valid scalePos magnifies returned
    | error stop =>
        rw [returned] at produced
        cases stop <;> cases produced
  · cases produced

/-- Within the cap it does not fault. -/
theorem rgbEngine_faultless {cap : Int} (call : CalledWithin cap rgbData width height)
    (scalePos : 1 ≤ getScaleFactor machine.engine.currentOptions)
    (magnifies : net.Magnifies machine.engine.currentOptions.engine
      (getScaleFactor machine.engine.currentOptions))
    (fits : MagnifiedFits (getScaleFactor machine.engine.currentOptions) cap) :
    ((rgbEngine net).processRgb machine rgbData width height).1.faulted = machine.faulted := by
  have valid := call.decodedImage
  have callFits := (padded_fits fits scalePos call.width_pos call.height_pos call.width_le
    call.height_le).2.2
  have frame := (@processImage_frame _ _ _ net ⟨width, height, 3, rgbData⟩ machine).1
  rcases Image.exists_padded valid with ⟨other, otherPadding, _, widthEq, heightEq, _⟩
  rcases processImage_exact valid call.width_le call.height_le scalePos magnifies fits with
    ⟨padded, padding, paddedValid, exactly⟩
  rw [otherPadding] at padding
  cases padding
  have noFault : (machine.processImage net ⟨width, height, 3, rgbData⟩).1 ≠ .error .fault := by
    rw [exactly]
    split
    · next result inferred =>
        rcases cropResult_magnified valid scalePos widthEq heightEq
          (machine.runInference_magnifies net other paddedValid magnifies inferred) with
          ⟨pixels, croppedEq, _⟩
        rw [croppedEq]
        simp
    · simp
  simp only [rgbEngine, processRgb_eq call.size_eq, if_pos callFits]
  generalize (machine.processImage net ⟨width, height, 3, rgbData⟩).1 = returned at noFault
  cases returned with
  | ok _ => exact frame
  | error failure =>
      cases failure with
      | failed => exact frame
      | fault => exact absurd rfl noFault

end Calls

/-! ## Calls of process_single -/

/-- What a started engine needs in order to be safe: a configuration to tile with, a
network that magnifies by its scale, and sizes that fit up to the cap. -/
structure Suited (net : Net ω ν) (start : EngineState δ ν) (cap : Int) : Prop where
  valid : (getTilingConfig start.currentOptions start.igpuProfile).Valid
  within : (getTilingConfig start.currentOptions start.igpuProfile).Within cap
  magnifies : net.Magnifies start.currentOptions.engine (getScaleFactor start.currentOptions)
  fits : MagnifiedFits (getScaleFactor start.currentOptions) cap

/-- The engine is one that `start` has become, and nothing has faulted yet. -/
structure Sane (start : EngineState δ ν) (machine : Machine δ ν ω) : Prop where
  follows : machine.Follows start
  faultless : machine.faulted = false

/-- The engine is one that `start` has become, and the network has been given nothing
larger than the cap. -/
structure Capped (start : EngineState δ ν) (cap : Int) (machine : Machine δ ν ω) : Prop where
  follows : machine.Follows start
  inputs : ∀ input ∈ machine.inputs, WithinCap cap input

section Singles

variable {net : Net ω ν} {codec : Codec} {start : EngineState δ ν} {machine : Machine δ ν ω}
  {cap : Int}

theorem Follows.tilingConfig_eq (follows : machine.Follows start) :
    machine.tilingConfig = getTilingConfig start.currentOptions start.igpuProfile := by
  rw [tilingConfig, follows.configuration.options, follows.configuration.igpu]

theorem getTilingConfig_scaleFactor (current : Options) (igpuProfile : Bool) :
    (getTilingConfig current igpuProfile).scaleFactor = getScaleFactor current := by
  simp only [getTilingConfig, baseTilingConfig]
  split
  · rfl
  · split <;> rfl

theorem Suited.scale_pos (suited : Suited net start cap) :
    1 ≤ getScaleFactor start.currentOptions := by
  rw [← getTilingConfig_scaleFactor start.currentOptions start.igpuProfile]
  exact suited.valid.scale_pos

theorem Follows.keeps (net : Net ω ν) (machine : Machine δ ν ω) (rgbData : Rgb)
    (width height : Int) (follows : machine.Follows start) :
    ((rgbEngine net).processRgb machine rgbData width height).1.Follows start :=
  follows.processRgb net rgbData width height

/-- In every state it can be in, the engine returns the buffers it reports. -/
theorem Suited.sound (suited : Suited net start cap) :
    ((rgbEngine net).restrict (@Follows.keeps _ _ _ start net)).Sound := by
  intro machine rgbData width height upscaled widthPos heightPos size produced
  have options := machine.property.configuration.options
  have scalePos := suited.scale_pos
  have magnifies := suited.magnifies
  rw [← options] at scalePos magnifies
  rcases rgbEngine_sized widthPos heightPos size scalePos magnifies produced with
    ⟨widthEq, heightEq, sizeEq⟩
  refine ⟨?_, ?_, sizeEq⟩
  · rw [widthEq]
    exact Int.mul_nonneg (by omega) (by omega)
  · rw [heightEq]
    exact Int.mul_nonneg (by omega) (by omega)

/-- A call of `process_single` does not fault on an image whose output has a size that
fits. -/
theorem Sane.processSingle (suited : Suited net start cap) (decodes : DecodesImages codec)
    (sane : Sane start machine) {image : Bytes}
    (fits : ∀ source ∈ codec.decodeImage image,
      OutputFits (getTilingConfig start.currentOptions start.igpuProfile) source)
    (outputFormat : String) :
    Sane start (machine.processSingle net codec image outputFormat).1 := by
  have configEq := sane.follows.tilingConfig_eq
  have valid : machine.tilingConfig.Valid := by
    rw [configEq]
    exact suited.valid
  have within : machine.tilingConfig.Within cap := by
    rw [configEq]
    exact suited.within
  rw [← configEq] at fits
  have wellFormed (source : ImagePixels) (decoded : codec.decodeImage image = some source) :=
    wellFormed_of_decoded (decodes image source decoded)
  have only (source : ImagePixels) (decoded : codec.decodeImage image = some source) :
      MakesOnly machine.tilingConfig source (CalledWithin cap) :=
    (makesOnly_within valid within (decodes image source decoded))
  have keeps (before : Machine δ ν ω) (rgbData : Rgb) (width height : Int)
      (call : CalledWithin cap rgbData width height) (holds : Sane start before) :
      Sane start ((rgbEngine net).processRgb before rgbData width height).1 := by
    refine ⟨holds.follows.processRgb net rgbData width height, ?_⟩
    have options := holds.follows.configuration.options
    have scalePos := suited.scale_pos
    have magnifies := suited.magnifies
    have sizesFit := suited.fits
    rw [← options] at scalePos magnifies sizesFit
    exact (rgbEngine_faultless call scalePos magnifies sizesFit).trans holds.faultless
  have after := processWithTiling_preserves only keeps outputFormat sane
  have noFault := processWithTiling_no_fault valid suited.sound wellFormed outputFormat
    ⟨machine, sane.follows⟩
  rw [← processWithTiling_restrict (Follows.keeps net)] at noFault
  simp only [Machine.processSingle, if_pos fits]
  generalize (processWithTiling (rgbEngine net) codec machine.tilingConfig image
    outputFormat machine).result = result at noFault
  cases result with
  | ok _ => exact after
  | error failure =>
      cases failure with
      | failed => exact after
      | fault => exact absurd rfl noFault

/-- What the network is given of a decoded image within the cap is within it. -/
theorem withinCap_of_padded {decoded padded : ImagePixels} (valid : DecodedImage decoded)
    (widthLe : decoded.width ≤ cap) (heightLe : decoded.height ≤ cap)
    (padding : padImage decoded defaultUpscalerPadding = .ok padded) : WithinCap cap padded := by
  rcases Image.exists_padded valid with ⟨other, otherPadding, otherValid, widthEq, heightEq, _⟩
  rw [padding] at otherPadding
  cases otherPadding
  have sizeEq := otherValid.size_eq
  rw [otherValid.rgb] at sizeEq
  refine ⟨?_, ?_, ?_, sizeEq⟩
  · rw [widthEq, heightEq]
    exact ⟨Image.paddedSize_even _ _, Image.paddedSize_even _ _⟩
  · rw [widthEq, heightEq]
    exact ⟨(paddedSize_mono valid.width_pos).2, (paddedSize_mono valid.height_pos).2⟩
  · rw [widthEq, heightEq]
    exact ⟨(paddedSize_mono widthLe).2, (paddedSize_mono heightLe).2⟩

/-- A call of `process_single` gives the network nothing larger than the cap. -/
theorem Capped.processSingle
    (valid : (getTilingConfig start.currentOptions start.igpuProfile).Valid)
    (within : (getTilingConfig start.currentOptions start.igpuProfile).Within cap)
    (decodes : DecodesImages codec) (capped : Capped start cap machine) (image : Bytes)
    (outputFormat : String) :
    Capped start cap (machine.processSingle net codec image outputFormat).1 := by
  rw [← capped.follows.tilingConfig_eq] at valid within
  have only (source : ImagePixels) (decoded : codec.decodeImage image = some source) :
      MakesOnly machine.tilingConfig source (CalledWithin cap) :=
    (makesOnly_within valid within (decodes image source decoded))
  have keeps (before : Machine δ ν ω) (rgbData : Rgb) (width height : Int)
      (call : CalledWithin cap rgbData width height) (holds : Capped start cap before) :
      Capped start cap ((rgbEngine net).processRgb before rgbData width height).1 := by
    refine ⟨holds.follows.processRgb net rgbData width height, ?_⟩
    simp only [rgbEngine, processRgb_eq call.size_eq, settle_inputs]
    split
    · intro input member
      rcases (processImage_frame).2 input member with padding | old
      · exact withinCap_of_padded call.decodedImage call.width_le call.height_le padding
      · exact holds.inputs input old
    · exact holds.inputs
  have after := processWithTiling_preserves only keeps outputFormat capped
  simp only [Machine.processSingle]
  split
  · refine ⟨?_, ?_⟩
    · rcases after.follows with ⟨calls, engineEq⟩
      exact ⟨calls, by rw [settle_engine, engineEq]⟩
    · rw [settle_inputs]
      exact after.inputs
  · exact ⟨capped.follows, capped.inputs⟩

end Singles

end Machine

end NcnnUpscaler.Service
