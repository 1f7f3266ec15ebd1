import NcnnUpscaler.Image.Padding
import NcnnUpscaler.Tiling.Seams

/-!
# process_image

`NcnnUpscalerEngine::process_image` and `process_rgb`: pad, run the network, cut the
padding off again.  The network is a parameter that gives a result of any size, with
the normalisation before it and the denormalisation after it.
-/

namespace NcnnUpscaler.Image

open Raster Tiling LocalFilter

/-- What inference leaves for a padded image: the size of `result`, and what
`to_pixels` writes for each of its pixels. -/
structure NetResult where
  w : Int
  h : Int
  toPixels : Int → Int → Pixel
  w_pos : 1 ≤ w
  h_pos : 1 ≤ h

/-- `from_pixels`, `substract_mean_normalize`, `run_inference` and the scaling back to
bytes; `none` when inference fails. -/
abbrev Inference := ImagePixels → Option NetResult

/-- `full_pixels`. -/
def NetResult.fullPixels (result : NetResult) : Rgb :=
  render 3 result.w.toNat result.h.toNat fun x y => result.toPixels x y

/-- `needs_crop`. -/
def needsCrop (result : NetResult) (desiredWidth desiredHeight : Int) : Bool :=
  result.w > desiredWidth || result.h > desiredHeight

/-- `start_x` and `start_y`. -/
def startOffset (scale fullSize finalSize : Int) : Int :=
  min (defaultUpscalerPadding * scale) (max 0 (fullSize - finalSize))

/-- The `memcpy` calls of the crop loop. -/
def cropCopies (scale : Int) (result : NetResult) (finalWidth finalHeight : Int) : List Copy :=
  let startX := startOffset scale result.w finalWidth
  let startY := startOffset scale result.h finalHeight
  (List.range finalHeight.toNat).map fun row : Nat =>
    { dst := row * finalWidth * 3
      src := ((startY + row) * result.w + startX) * 3
      len := finalWidth * 3 }

/-- `process_image` from the result of inference on, with sizes that do not overflow;
`cropResult32` is the same on machine integers. -/
def cropResult (scale : Int) (decoded : ImagePixels) (result : NetResult) :
    Except Stop ImagePixels :=
  let desiredWidth := decoded.width * scale
  let desiredHeight := decoded.height * scale
  if needsCrop result desiredWidth desiredHeight then
    match allocate (desiredWidth * desiredHeight * 3) with
    | .error stop => .error stop
    | .ok finalPixels =>
        match copyRows (cropCopies scale result desiredWidth desiredHeight) finalPixels
            result.fullPixels with
        | .error stop => .error stop
        | .ok pixels =>
            .ok { width := desiredWidth, height := desiredHeight, channels := 3, pixels }
  else
    .ok { width := result.w, height := result.h, channels := 3, pixels := result.fullPixels }

/-- `process_image`, where `scale` is `get_scale_factor()` and sizes do not overflow: the
image in `encoded` when it returns true.  `processImage32` is the same on machine
integers. -/
def processImage (infer : Inference) (scale : Int) (decoded : ImagePixels) :
    Except Stop ImagePixels :=
  match padImage decoded defaultUpscalerPadding with
  | .error stop => .error stop
  | .ok padded =>
      -- `from_pixels` reads three bytes for each pixel.
      if (padded.pixels.length : Int) < padded.width * padded.height * 3 then
        .error .fault
      else
        match infer padded with
        | none => .error .failed
        | some result => cropResult scale decoded result

/-- `process_rgb`. -/
def processRgb (infer : Inference) (scale : Int) (rgbData : Rgb) (width height : Int) :
    Except Stop ImagePixels :=
  if width * height * 3 < 0 then
    .error .failed
  else if (rgbData.length : Int) < width * height * 3 then
    .error .fault
  else
    processImage infer scale
      { width, height, channels := 3, pixels := rgbData.take (width * height * 3).toNat }

/-! ## What the crop reads -/

/-- The copies that `process_image` makes out of `full_pixels`. -/
def readsOf (scale : Int) (decoded : ImagePixels) (result : NetResult) : List Copy :=
  if needsCrop result (decoded.width * scale) (decoded.height * scale) then
    cropCopies scale result (decoded.width * scale) (decoded.height * scale)
  else
    []

/-- `process_image` fails or returns the scaled image: it does not fault, every byte it
reads of `full_pixels` is inside, and an image it returns has the scaled size. -/
def CropsSafely (infer : Inference) (scale : Int) (decoded : ImagePixels) : Prop :=
  processImage infer scale decoded ≠ .error .fault ∧
  (∀ padded result, padImage decoded defaultUpscalerPadding = .ok padded →
    infer padded = some result → ∀ copy ∈ readsOf scale decoded result,
      ∀ index, copy.src ≤ index → index < copy.src + copy.len →
        0 ≤ index ∧ index < result.w * result.h * 3) ∧
  ∀ encoded, processImage infer scale decoded = .ok encoded →
    encoded.width = decoded.width * scale ∧ encoded.height = decoded.height * scale ∧
      (encoded.pixels.length : Int) =
        decoded.width * scale * (decoded.height * scale) * 3

/-- The result covers the scaled image, or it is narrower but exceeds its height by so
much that the rows, read one width apart, still end inside. -/
def CoversCrop (scale : Int) (decoded : ImagePixels) (result : NetResult) : Prop :=
  (decoded.width * scale ≤ result.w ∧ decoded.height * scale ≤ result.h) ∨
    (result.w < decoded.width * scale ∧ decoded.height * scale < result.h ∧
      decoded.width * scale ≤
        result.w * (max 0 (result.h - decoded.height * scale -
          defaultUpscalerPadding * scale) + 1))

variable {infer : Inference} {scale : Int} {decoded : ImagePixels} {result : NetResult}

theorem fullPixels_length (result : NetResult) :
    (result.fullPixels.length : Int) = result.w * result.h * 3 := by
  have w_pos := result.w_pos
  have h_pos := result.h_pos
  exact (render_spec (by omega) (by omega) result.toPixels).1

theorem fullPixels_pixel {x y : Int} (xNonneg : 0 ≤ x) (xLt : x < result.w) (yNonneg : 0 ≤ y)
    (yLt : y < result.h) : pixel 3 result.w result.fullPixels x y = result.toPixels x y := by
  have w_pos := result.w_pos
  have h_pos := result.h_pos
  exact (render_spec (by omega) (by omega) result.toPixels).2 x y xNonneg xLt yNonneg yLt

theorem needsCrop_eq_true {desiredWidth desiredHeight : Int} :
    needsCrop result desiredWidth desiredHeight = true ↔
      desiredWidth < result.w ∨ desiredHeight < result.h := by
  simp only [needsCrop, Bool.or_eq_true, decide_eq_true_eq]

/-- What `decode_image` gives: a nonempty image of three channels. -/
structure DecodedImage (image : ImagePixels) : Prop extends Complete image where
  rgb : image.channels = 3

/-- A decoded image is padded, and inference is given all of the padded image. -/
theorem processImage_eq {padded : ImagePixels} (valid : DecodedImage decoded)
    (padding : padImage decoded defaultUpscalerPadding = .ok padded) :
    processImage infer scale decoded =
      match infer padded with
      | none => .error .failed
      | some result => cropResult scale decoded result := by
  rcases padImage_eq valid.toComplete (by decide : 1 ≤ defaultUpscalerPadding) with
    ⟨other, otherEq, _, _, channelsEq, sizeEq, _⟩
  have same : padded = other := Except.ok.inj (padding.symm.trans otherEq)
  subst same
  rw [channelsEq, valid.rgb] at sizeEq
  have enough : ¬(padded.pixels.length : Int) < padded.width * padded.height * 3 := by omega
  simp only [processImage, padding, if_neg enough]

/-! ## Where the reads stay inside -/

theorem startOffset_nonneg (scalePos : 1 ≤ scale) (fullSize finalSize : Int) :
    0 ≤ startOffset scale fullSize finalSize := by
  simp only [startOffset, defaultUpscalerPadding]
  omega

/-- The last row the crop reads ends inside `full_pixels`. -/
def LastRowInside (scale : Int) (result : NetResult) (finalWidth finalHeight : Int) : Prop :=
  (startOffset scale result.h finalHeight + finalHeight - 1) * result.w +
    startOffset scale result.w finalWidth + finalWidth ≤ result.w * result.h

section Reads

variable {finalWidth finalHeight : Int}

/-- A row of the crop starts inside and ends before the last one does. -/
theorem row_inside (inside : LastRowInside scale result finalWidth finalHeight)
    (scalePos : 1 ≤ scale) {row : Nat} (rowLt : (row : Int) < finalHeight) :
    0 ≤ (startOffset scale result.h finalHeight + row) * result.w +
        startOffset scale result.w finalWidth ∧
      (startOffset scale result.h finalHeight + row) * result.w +
          startOffset scale result.w finalWidth + finalWidth ≤ result.w * result.h := by
  have w_pos := result.w_pos
  have startX := startOffset_nonneg scalePos result.w finalWidth
  have startY := startOffset_nonneg scalePos result.h finalHeight
  have rowStart : 0 ≤ (startOffset scale result.h finalHeight + row) * result.w :=
    Int.mul_nonneg (by omega) (by omega)
  have rowLe : (startOffset scale result.h finalHeight + row) * result.w ≤
      (startOffset scale result.h finalHeight + finalHeight - 1) * result.w :=
    Int.mul_le_mul_of_nonneg_right (by omega) (by omega)
  simp only [LastRowInside] at inside
  omega

variable (widthPos : 1 ≤ finalWidth) (heightPos : 1 ≤ finalHeight) (scalePos : 1 ≤ scale)
include widthPos heightPos scalePos

/-- The reads stay inside exactly when those of the last row do. -/
theorem reads_inside_iff :
    (∀ copy ∈ cropCopies scale result finalWidth finalHeight, ∀ index, copy.src ≤ index →
        index < copy.src + copy.len → 0 ≤ index ∧ index < result.w * result.h * 3) ↔
      LastRowInside scale result finalWidth finalHeight := by
  simp only [cropCopies, List.mem_map, List.mem_range]
  constructor
  · intro reads
    have last := reads _ ⟨(finalHeight - 1).toNat, by omega, rfl⟩
    have rowEq : (((finalHeight - 1).toNat : Nat) : Int) = finalHeight - 1 :=
      Int.toNat_of_nonneg (by omega)
    simp only [rowEq] at last
    have ending := (last (((startOffset scale result.h finalHeight + (finalHeight - 1)) * result.w +
      startOffset scale result.w finalWidth) * 3 + finalWidth * 3 - 1) (by omega) (by omega)).2
    simp only [LastRowInside, Int.add_sub_assoc]
    omega
  · intro inside copy member index lower upper
    rcases member with ⟨row, rowLt, copyEq⟩
    subst copyEq
    have bounds := row_inside inside scalePos (by omega : (row : Int) < finalHeight)
    simp only at lower upper
    omega

/-- Then so do the copies: they fill the final image. -/
theorem cropCopies_inBounds (inside : LastRowInside scale result finalWidth finalHeight)
    {size : Nat} (sizeEq : (size : Int) = finalWidth * finalHeight * 3) :
    ∀ copy ∈ cropCopies scale result finalWidth finalHeight,
      copy.InBounds size result.fullPixels.length := by
  intro copy member
  simp only [cropCopies, List.mem_map, List.mem_range] at member
  rcases member with ⟨row, rowLt, copyEq⟩
  subst copyEq
  have bounds := row_inside inside scalePos (by omega : (row : Int) < finalHeight)
  have fullLength := fullPixels_length result
  have start : 0 ≤ (row : Int) * finalWidth := Int.mul_nonneg (by omega) (by omega)
  have rows : ((row : Int) + 1) * finalWidth ≤ finalHeight * finalWidth :=
    Int.mul_le_mul_of_nonneg_right (by omega) (by omega)
  rw [Int.add_mul, Int.one_mul, Int.mul_comm finalHeight] at rows
  constructor
  · simp only
    omega
  · simp only
    omega
  · simp only
    omega
  · simp only
    omega
  · simp only
    omega

omit heightPos in
/-- In terms of the two sizes: nothing is wrong with the width, or enough rows follow. -/
theorem lastRowInside_iff
    (cropped : finalWidth < result.w ∨ finalHeight < result.h) :
    LastRowInside scale result finalWidth finalHeight ↔
      (finalWidth ≤ result.w ∧ finalHeight ≤ result.h) ∨
        (result.w < finalWidth ∧ finalHeight < result.h ∧
          finalWidth ≤ result.w *
            (max 0 (result.h - finalHeight - defaultUpscalerPadding * scale) + 1)) := by
  have w_pos := result.w_pos
  have padded : 0 ≤ defaultUpscalerPadding * scale := by
    simp only [defaultUpscalerPadding]
    omega
  have area : result.w * result.h = result.h * result.w := Int.mul_comm ..
  simp only [LastRowInside, startOffset]
  by_cases wide : finalWidth ≤ result.w
  · by_cases high : finalHeight ≤ result.h
    · have above := Int.mul_le_mul_of_nonneg_right
        (by omega : min (defaultUpscalerPadding * scale) (max 0 (result.h - finalHeight)) +
          finalHeight - 1 ≤ result.h - 1) (by omega : 0 ≤ result.w)
      rw [Int.sub_mul result.h, Int.one_mul] at above
      refine ⟨fun _ => .inl ⟨wide, high⟩, fun _ => ?_⟩
      omega
    · have below := Int.mul_le_mul_of_nonneg_right
        (by omega : result.h ≤ min (defaultUpscalerPadding * scale)
          (max 0 (result.h - finalHeight)) + finalHeight - 1) (by omega : 0 ≤ result.w)
      constructor
      · intro inside
        omega
      · intro covers
        omega
  · have startX : min (defaultUpscalerPadding * scale) (max 0 (result.w - finalWidth)) = 0 := by
      omega
    have startY : min (defaultUpscalerPadding * scale) (max 0 (result.h - finalHeight)) +
        finalHeight - 1 =
          result.h - (max 0 (result.h - finalHeight - defaultUpscalerPadding * scale) + 1) := by
      omega
    rw [startX, startY, Int.sub_mul, Int.mul_comm (_ + 1), area]
    constructor
    · intro inside
      exact .inr ⟨by omega, by omega, by omega⟩
    · intro covers
      rcases covers with both | sheared
      · exact absurd both.1 wide
      · omega

end Reads

/-! ## When process_image keeps its contract -/

section Contract

variable (valid : DecodedImage decoded) (scalePos : 1 ≤ scale)
include valid scalePos

theorem scaled_pos : 1 ≤ decoded.width * scale ∧ 1 ≤ decoded.height * scale := by
  have width := Int.mul_pos (by have := valid.width_pos; omega : 0 < decoded.width)
    (by omega : 0 < scale)
  have height := Int.mul_pos (by have := valid.height_pos; omega : 0 < decoded.height)
    (by omega : 0 < scale)
  omega

/-- A result that covers the crop is cut to the scaled size. -/
theorem cropResult_of_covers (covers : CoversCrop scale decoded result) :
    ∃ pixels, cropResult scale decoded result =
        .ok ⟨decoded.width * scale, decoded.height * scale, 3, pixels⟩ ∧
      (pixels.length : Int) = decoded.width * scale * (decoded.height * scale) * 3 := by
  rcases scaled_pos valid scalePos with ⟨widthPos, heightPos⟩
  by_cases crop : needsCrop result (decoded.width * scale) (decoded.height * scale) = true
  · have inside := (lastRowInside_iff widthPos scalePos (needsCrop_eq_true.mp crop)).mpr covers
    have area : 0 ≤ decoded.width * scale * (decoded.height * scale) * 3 :=
      Int.mul_nonneg (Int.mul_nonneg (by omega) (by omega)) (by omega)
    rcases allocate_ok area with ⟨buffer, allocateEq, bufferLength⟩
    rcases runAll_of_inBounds
        (cropCopies_inBounds widthPos heightPos scalePos inside bufferLength) with
      ⟨pixels, runEq, pixelsLength, _⟩
    refine ⟨pixels, ?_, by rw [pixelsLength, bufferLength]⟩
    simp only [cropResult, crop, if_true, allocateEq, copyRows, runEq]
  · have smaller := mt needsCrop_eq_true.mpr crop
    have widthEq : result.w = decoded.width * scale := by
      simp only [CoversCrop] at covers
      omega
    have heightEq : result.h = decoded.height * scale := by
      simp only [CoversCrop] at covers
      omega
    refine ⟨result.fullPixels, ?_, ?_⟩
    · simp only [cropResult, if_neg crop, widthEq, heightEq]
    · rw [fullPixels_length, widthEq, heightEq]

theorem readsOf_inside (covers : CoversCrop scale decoded result) :
    ∀ copy ∈ readsOf scale decoded result, ∀ index, copy.src ≤ index →
      index < copy.src + copy.len → 0 ≤ index ∧ index < result.w * result.h * 3 := by
  rcases scaled_pos valid scalePos with ⟨widthPos, heightPos⟩
  simp only [readsOf]
  split
  · next crop =>
      have inside := (lastRowInside_iff widthPos scalePos (needsCrop_eq_true.mp crop)).mpr covers
      exact (reads_inside_iff widthPos heightPos scalePos).mpr inside
  · intro copy none
    exact absurd none List.not_mem_nil

/-- Reads inside and a returned image of the scaled size leave no other result. -/
theorem covers_of_safe {padded : ImagePixels}
    (padding : padImage decoded defaultUpscalerPadding = .ok padded)
    (inferred : infer padded = some result) (safe : CropsSafely infer scale decoded) :
    CoversCrop scale decoded result := by
  rcases safe with ⟨_, reads, sizes⟩
  rcases scaled_pos valid scalePos with ⟨widthPos, heightPos⟩
  by_cases crop : needsCrop result (decoded.width * scale) (decoded.height * scale) = true
  · have inside := reads padded result padding inferred
    simp only [readsOf, crop, if_true] at inside
    exact (lastRowInside_iff widthPos scalePos (needsCrop_eq_true.mp crop)).mp
      ((reads_inside_iff widthPos heightPos scalePos).mp inside)
  · have returned : processImage infer scale decoded =
        .ok ⟨result.w, result.h, 3, result.fullPixels⟩ := by
      rw [processImage_eq valid padding, inferred]
      simp only [cropResult, if_neg crop]
    rcases sizes _ returned with ⟨widthEq, heightEq, _⟩
    exact .inl ⟨Int.le_of_eq widthEq.symm, Int.le_of_eq heightEq.symm⟩

end Contract

/-- `process_image` keeps its contract exactly when the result of inference covers the
scaled image (or, narrower, exceeds its height by enough). -/
theorem crops_safely_iff {decoded : ImagePixels} (valid : DecodedImage decoded) {scale : Int}
    (scalePos : 1 ≤ scale) (infer : Inference) :
    CropsSafely infer scale decoded ↔
      ∀ padded result, padImage decoded defaultUpscalerPadding = .ok padded →
        infer padded = some result → CoversCrop scale decoded result := by
  constructor
  · intro safe padded result padding inferred
    exact covers_of_safe valid scalePos padding inferred safe
  · intro covers
    rcases padImage_eq valid.toComplete (by decide : 1 ≤ defaultUpscalerPadding) with
      ⟨padded, padding, _⟩
    have processed := @processImage_eq infer scale decoded padded valid padding
    cases inferred : infer padded with
    | none =>
        rw [inferred] at processed
        refine ⟨by rw [processed]; simp, ?_, ?_⟩
        · intro other result otherEq produced
          have same : padded = other := Except.ok.inj (padding.symm.trans otherEq)
          rw [same, produced] at inferred
          cases inferred
        · intro encoded returned
          rw [processed] at returned
          cases returned
    | some result =>
        have covered := covers padded result padding inferred
        rcases cropResult_of_covers valid scalePos covered with ⟨pixels, croppedEq, pixelsLength⟩
        rw [inferred] at processed
        simp only [croppedEq] at processed
        refine ⟨by rw [processed]; simp, ?_, ?_⟩
        · intro other result' otherEq produced
          exact readsOf_inside valid scalePos (covers other result' otherEq produced)
        · intro encoded returned
          rw [processed] at returned
          cases returned
          exact ⟨rfl, rfl, pixelsLength⟩

/-- A network that magnifies twice and paints everything grey. -/
def doubling : Inference := fun padded =>
  if positive : 1 ≤ padded.width ∧ 1 ≤ padded.height then
    some
      { w := padded.width * 2, h := padded.height * 2, toPixels := fun _ _ _ => 128
        w_pos := by omega, h_pos := by omega }
  else
    none

/-- That network at scale two, on one pixel. -/
theorem crops_safely_iff_doubling :
    CropsSafely doubling 2 ⟨1, 1, 3, [1, 2, 3]⟩ ↔
      ∀ padded result, padImage ⟨1, 1, 3, [1, 2, 3]⟩ defaultUpscalerPadding = .ok padded →
        doubling padded = some result → CoversCrop 2 ⟨1, 1, 3, [1, 2, 3]⟩ result :=
  crops_safely_iff ⟨⟨by decide, by decide, by decide, by decide⟩, by decide⟩ (by decide) doubling

/-- That network at scale four, on a row of 38 pixels: the result is narrower and higher
than the scaled image, and the crop reads behind its end. -/
theorem crop_reads_outside :
    ¬CropsSafely doubling 4 ⟨38, 1, 3, List.replicate 114 255⟩ := by
  have valid : DecodedImage ⟨38, 1, 3, List.replicate 114 255⟩ :=
    ⟨⟨by decide, by decide, by decide, by simp⟩, by decide⟩
  rcases padImage_eq valid.toComplete (by decide : 1 ≤ defaultUpscalerPadding) with
    ⟨padded, padding, widthEq, heightEq, _⟩
  have width : padded.width = 74 := widthEq.trans (by decide)
  have height : padded.height = 38 := heightEq.trans (by decide)
  have positive : 1 ≤ padded.width ∧ 1 ≤ padded.height := by omega
  have inferred : doubling padded = some
      { w := padded.width * 2, h := padded.height * 2, toPixels := fun _ _ _ => 128
        w_pos := by omega, h_pos := by omega } := dif_pos positive
  intro safe
  have covers := covers_of_safe valid (by decide : (1 : Int) ≤ 4) padding inferred safe
  simp only [CoversCrop, defaultUpscalerPadding, width, height] at covers
  omega

end NcnnUpscaler.Image
