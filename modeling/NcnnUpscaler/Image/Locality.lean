import NcnnUpscaler.Image.Crop

/-!
# Padding and cropping cancel

A network whose pixels depend on a window of the padded image, wherever that window
lies inside it, is made into a local filter of the image itself: the padding, the
rounding to even sizes and the crop offsets leave no trace.  Sizes do not overflow here;
`Image.Wrapping` says what becomes of this on machine integers.
-/

namespace NcnnUpscaler.Image

open Raster Tiling LocalFilter

variable {infer : Inference} {scale : Int} {decoded : ImagePixels} {result : NetResult}

/-! ## The crop, pixel by pixel -/

/-- The copies of the crop loop are a rectangle of the result. -/
def cropBlock (scale : Int) (result : NetResult) (finalWidth finalHeight : Int) : Block :=
  { dstX := 0, dstY := 0
    srcX := startOffset scale result.w finalWidth
    srcY := startOffset scale result.h finalHeight
    width := finalWidth, height := finalHeight }

theorem cropCopies_eq (scale : Int) (result : NetResult) (finalWidth finalHeight : Int) :
    cropCopies scale result finalWidth finalHeight =
      (cropBlock scale result finalWidth finalHeight).copies 3 finalWidth result.w := by
  simp only [cropCopies, cropBlock, Block.copies, Int.zero_add, Int.add_zero]
  rfl

/-- A result that is larger than the scaled image in both dimensions is cut to it at the
crop offsets. -/
theorem cropResult_pixels (valid : DecodedImage decoded) (scalePos : 1 ≤ scale)
    (wide : decoded.width * scale < result.w) (high : decoded.height * scale ≤ result.h) :
    ∃ pixels, cropResult scale decoded result =
        .ok ⟨decoded.width * scale, decoded.height * scale, 3, pixels⟩ ∧
      (pixels.length : Int) = decoded.width * scale * (decoded.height * scale) * 3 ∧
      ∀ x y, 0 ≤ x → x < decoded.width * scale → 0 ≤ y → y < decoded.height * scale →
        pixel 3 (decoded.width * scale) pixels x y =
          result.toPixels (x + startOffset scale result.w (decoded.width * scale))
            (y + startOffset scale result.h (decoded.height * scale)) := by
  rcases scaled_pos valid scalePos with ⟨widthPos, heightPos⟩
  have crop : needsCrop result (decoded.width * scale) (decoded.height * scale) = true :=
    needsCrop_eq_true.mpr (.inl wide)
  have area : 0 ≤ decoded.width * scale * (decoded.height * scale) * 3 :=
    Int.mul_nonneg (Int.mul_nonneg (by omega) (by omega)) (by omega)
  rcases allocate_ok area with ⟨buffer, allocateEq, bufferLength⟩
  have startX := startOffset_nonneg scalePos result.w (decoded.width * scale)
  have startY := startOffset_nonneg scalePos result.h (decoded.height * scale)
  have endX : startOffset scale result.w (decoded.width * scale) + decoded.width * scale ≤
      result.w := by
    simp only [startOffset]
    omega
  have endY : startOffset scale result.h (decoded.height * scale) + decoded.height * scale ≤
      result.h := by
    simp only [startOffset]
    omega
  have w_pos := result.w_pos
  have fits : (cropBlock scale result (decoded.width * scale) (decoded.height * scale)).Fits 3
      (decoded.width * scale) result.w buffer.length result.fullPixels.length := by
    constructor <;> simp only [cropBlock, Int.zero_add, Nat.cast_ofNat] <;> try omega
    · rw [bufferLength, Int.mul_comm (decoded.height * scale)]
    · rw [fullPixels_length, Int.mul_comm result.w]
      have rows := Int.mul_le_mul_of_nonneg_right endY (by omega : 0 ≤ result.w)
      omega
  rcases copyRows_block fits with ⟨pixels, copyEq, pixelsLength, pixelsAt⟩
  refine ⟨pixels, ?_, by rw [pixelsLength, bufferLength], ?_⟩
  · rw [← cropCopies_eq] at copyEq
    simp only [cropResult, crop, if_true, allocateEq, copyEq]
  · intro x y xNonneg xLt yNonneg yLt
    have contained : (cropBlock scale result (decoded.width * scale)
        (decoded.height * scale)).Contains x y := by
      simp only [Block.Contains, cropBlock]
      omega
    rw [pixelsAt x y xNonneg xLt yNonneg, if_pos contained]
    simp only [cropBlock, Int.sub_zero]
    exact fullPixels_pixel (by omega) (by omega) (by omega) (by omega)

/-! ## Local networks -/

/-- The window around a position lies inside an image. -/
def WindowInside (radius : Nat) (image : ImagePixels) (x y : Int) : Prop :=
  (radius ≤ x ∧ x + radius < image.width) ∧ radius ≤ y ∧ y + radius < image.height

/-- The network magnifies a padded image `scale` times, and where the window of a pixel
lies inside the padded image the pixel is the kernel's, of its phase and that window. -/
def IsLocal {radius : Nat} (infer : Inference) (kernel : Kernel radius Pixel) (scale : Int) :
    Prop :=
  ∀ padded, DecodedImage padded → ∃ result, infer padded = some result ∧
    result.w = scale * padded.width ∧ result.h = scale * padded.height ∧
    ∀ x y, 0 ≤ x → x < result.w → 0 ≤ y → y < result.h →
      WindowInside radius padded (x / scale) (y / scale) →
      result.toPixels x y = kernel (x % scale) (y % scale) fun row column =>
        padded.at (x / scale + column.val - radius) (y / scale + row.val - radius)

theorem at_eq_byteAt {image : ImagePixels} (rgb : image.channels = 3) (x y : Int) :
    image.at x y = fun channel : Fin 3 => byteAt image x y channel.val := by
  funext channel
  simp only [ImagePixels.at, pixel, byteAt, rgb]
  rfl

/-- Away from the column that rounding adds, a padded decoded image has the pixels of the
source's edge replication. -/
theorem exists_padded (valid : DecodedImage decoded) :
    ∃ padded, padImage decoded defaultUpscalerPadding = .ok padded ∧ DecodedImage padded ∧
      padded.width = paddedSize decoded.width defaultUpscalerPadding ∧
      padded.height = paddedSize decoded.height defaultUpscalerPadding ∧
      ∀ x y, 0 ≤ x → x < decoded.width + 2 * defaultUpscalerPadding → 0 ≤ y →
        y < padded.height → padded.at x y =
          decoded.at (clamp decoded.width (x - defaultUpscalerPadding))
            (clamp decoded.height (y - defaultUpscalerPadding)) := by
  rcases padImage_eq valid.toComplete (by decide : 1 ≤ defaultUpscalerPadding) with
    ⟨padded, padding, widthEq, heightEq, channelsEq, sizeEq, bytes⟩
  have rgb := channelsEq.trans valid.rgb
  have widthPos := valid.width_pos
  have heightPos := valid.height_pos
  have wide := paddedSize_eq decoded.width defaultUpscalerPadding
  have high := paddedSize_eq decoded.height defaultUpscalerPadding
  simp only [defaultUpscalerPadding] at wide high
  refine ⟨padded, padding, ⟨⟨?_, ?_, ?_, sizeEq⟩, rgb⟩, widthEq, heightEq, ?_⟩
  · rw [widthEq]
    simp only [defaultUpscalerPadding]
    omega
  · rw [heightEq]
    simp only [defaultUpscalerPadding]
    omega
  · omega
  · intro x y xNonneg xLt yNonneg yLt
    rw [at_eq_byteAt rgb, at_eq_byteAt valid.rgb]
    funext channel
    have inside : x < padded.width := by
      rw [widthEq]
      simp only [defaultUpscalerPadding] at xLt ⊢
      omega
    have byte := bytes x y channel.val xNonneg inside yNonneg yLt (Int.natCast_nonneg _) (by
      rw [valid.rgb]
      have := channel.isLt
      omega)
    rw [if_pos xLt] at byte
    exact byte

/-- The crop offset is the whole padding when the result has all of it. -/
theorem startOffset_padded (scalePos : 1 ≤ scale) (size : Int) :
    startOffset scale (scale * paddedSize size defaultUpscalerPadding) (size * scale) =
      defaultUpscalerPadding * scale := by
  have wide := paddedSize_eq size defaultUpscalerPadding
  have excess : scale * paddedSize size defaultUpscalerPadding - size * scale =
      scale * (2 * defaultUpscalerPadding + size % 2) := by
    rw [wide]
    ring
  have parity : 0 ≤ scale * (size % 2) := Int.mul_nonneg (by omega) (by omega)
  simp only [startOffset, excess]
  rw [Int.mul_add, defaultUpscalerPadding]
  omega

/-- The result of a padded image has room for the scaled image behind the padding. -/
theorem padded_room (scalePos : 1 ≤ scale) (size : Int) :
    size * scale + defaultUpscalerPadding * scale ≤
      scale * paddedSize size defaultUpscalerPadding := by
  have wide := paddedSize_eq size defaultUpscalerPadding
  rw [← Int.add_mul, Int.mul_comm scale]
  apply Int.mul_le_mul_of_nonneg_right
  · simp only [defaultUpscalerPadding] at wide ⊢
    omega
  · omega

/-- Positions of the scaled image come from the source, and the padding shifts them by
itself. -/
theorem scaled_position {size position : Int} (scalePos : 1 ≤ scale) (nonneg : 0 ≤ position)
    (inside : position < size * scale) :
    (0 ≤ position / scale ∧ position / scale < size) ∧
      (position + defaultUpscalerPadding * scale) / scale =
        position / scale + defaultUpscalerPadding ∧
      (position + defaultUpscalerPadding * scale) % scale = position % scale :=
  ⟨⟨Int.ediv_nonneg nonneg (by omega), Int.ediv_lt_of_lt_mul (by omega) inside⟩,
    Int.add_mul_ediv_right _ _ (by omega), Int.add_mul_emod_self_right ..⟩

/-- What the kernel sees of the padded image, away from its border, is the window of the
source. -/
theorem padded_window {padded : ImagePixels} {radius : Nat} (radiusLe : radius ≤ 18)
    (heightEq : padded.height = paddedSize decoded.height defaultUpscalerPadding)
    (replicated : ∀ x y, 0 ≤ x → x < decoded.width + 2 * defaultUpscalerPadding → 0 ≤ y →
      y < padded.height → padded.at x y =
        decoded.at (clamp decoded.width (x - defaultUpscalerPadding))
          (clamp decoded.height (y - defaultUpscalerPadding)))
    {x y : Int} (column : 0 ≤ x ∧ x < decoded.width) (row : 0 ≤ y ∧ y < decoded.height) :
    (fun (i j : Fin (2 * radius + 1)) =>
        padded.at (x + defaultUpscalerPadding + j.val - radius)
          (y + defaultUpscalerPadding + i.val - radius)) =
      window radius decoded.width decoded.height decoded.at x y := by
  have high := paddedSize_eq decoded.height defaultUpscalerPadding
  simp only [defaultUpscalerPadding] at high heightEq replicated ⊢
  funext i j
  have iLt := i.isLt
  have jLt := j.isLt
  rw [replicated _ _ (by omega) (by omega) (by omega) (by omega)]
  simp only [window]
  congr 2
  · omega
  · omega

/-- With a local network `process_image` returns the buffer of the filtered source. -/
theorem processImage_local (valid : DecodedImage decoded) (scalePos : 1 ≤ scale)
    {radius : Nat} (radiusLe : radius ≤ 18) {kernel : Kernel radius Pixel}
    (isLocal : IsLocal infer kernel scale) :
    ∃ pixels, processImage infer scale decoded =
        .ok ⟨decoded.width * scale, decoded.height * scale, 3, pixels⟩ ∧
      (pixels.length : Int) = decoded.width * scale * (decoded.height * scale) * 3 ∧
      ∀ x y, 0 ≤ x → x < decoded.width * scale → 0 ≤ y → y < decoded.height * scale →
        pixel 3 (decoded.width * scale) pixels x y =
          filter kernel scale decoded.width decoded.height decoded.at x y := by
  rcases exists_padded valid with ⟨padded, padding, paddedValid, widthEq, heightEq, replicated⟩
  rcases isLocal padded paddedValid with ⟨result, inferred, wEq, hEq, shows⟩
  rw [widthEq] at wEq
  rw [heightEq] at hEq
  have roomX := padded_room scalePos decoded.width
  have roomY := padded_room scalePos decoded.height
  have border : 1 ≤ defaultUpscalerPadding * scale := by
    simp only [defaultUpscalerPadding]
    omega
  rcases cropResult_pixels valid scalePos (by omega : decoded.width * scale < result.w)
      (by omega : decoded.height * scale ≤ result.h) with
    ⟨pixels, croppedEq, pixelsLength, pixelsAt⟩
  have processed := @processImage_eq infer scale decoded padded valid padding
  simp only [inferred, croppedEq] at processed
  refine ⟨pixels, processed, pixelsLength, ?_⟩
  intro x y xNonneg xLt yNonneg yLt
  rcases scaled_position scalePos xNonneg xLt with ⟨column, columnEq, columnPhase⟩
  rcases scaled_position scalePos yNonneg yLt with ⟨row, rowEq, rowPhase⟩
  have inside : WindowInside radius padded (x / scale + defaultUpscalerPadding)
      (y / scale + defaultUpscalerPadding) := by
    have wide := paddedSize_eq decoded.width defaultUpscalerPadding
    have high := paddedSize_eq decoded.height defaultUpscalerPadding
    simp only [WindowInside, widthEq, heightEq]
    simp only [defaultUpscalerPadding] at wide high ⊢
    omega
  have shown := shows (x + defaultUpscalerPadding * scale) (y + defaultUpscalerPadding * scale)
    (by omega) (by omega) (by omega) (by omega) (by rw [columnEq, rowEq]; exact inside)
  rw [pixelsAt x y xNonneg xLt yNonneg yLt, wEq, hEq, startOffset_padded scalePos,
    startOffset_padded scalePos, shown, columnEq, rowEq, columnPhase, rowPhase,
    padded_window radiusLe heightEq replicated column row]
  rfl

/-- The network that shows, at twice the size, each pixel's left neighbour. -/
def leftNeighbours : Inference := fun padded =>
  if positive : 1 ≤ padded.width ∧ 1 ≤ padded.height then
    some
      { w := 2 * padded.width, h := 2 * padded.height
        toPixels := fun x y => padded.at (x / 2 - 1) (y / 2)
        w_pos := by omega, h_pos := by omega }
  else
    none

theorem leftNeighbours_isLocal :
    IsLocal leftNeighbours (fun _ _ (window : Window 1 Pixel) => window 1 0) 2 := by
  intro padded valid
  refine ⟨_, dif_pos ⟨valid.width_pos, valid.height_pos⟩, rfl, rfl, ?_⟩
  intro x y _ _ _ _ _
  have row : y / 2 + 1 - 1 = y / 2 := Int.add_sub_cancel ..
  simp [row]

/-! ## The engine of the tile loop -/

/-- `process_rgb` as the tile loop calls it. -/
def rgbEngine (infer : Inference) (scale : Int) : RgbEngine Unit where
  processRgb := fun _ rgbData width height =>
    ((), match processRgb infer scale rgbData width height with
      | .ok output => some output
      | .error _ => none)

/-- `process_rgb` on a buffer of exactly the size of its image. -/
theorem processRgb_eq {rgbData : Rgb} {width height : Int}
    (size : (rgbData.length : Int) = width * height * 3) :
    processRgb infer scale rgbData width height =
      processImage infer scale ⟨width, height, 3, rgbData⟩ := by
  have nonneg : ¬width * height * 3 < 0 := by omega
  have enough : ¬(rgbData.length : Int) < width * height * 3 := by omega
  have whole : rgbData.take (width * height * 3).toNat = rgbData :=
    List.take_of_length_le (by omega)
  simp only [processRgb, if_neg nonneg, if_neg enough, whole]

/-- With a local network, what the tile loop calls is a local filter that scales
exactly. -/
theorem rgbEngine_applies (scalePos : 1 ≤ scale) {radius : Nat} (radiusLe : radius ≤ 18)
    {kernel : Kernel radius Pixel} (isLocal : IsLocal infer kernel scale) :
    (rgbEngine infer scale).Applies kernel scale := by
  intro state rgbData width height widthPos heightPos size
  have valid : DecodedImage ⟨width, height, 3, rgbData⟩ :=
    ⟨⟨widthPos, heightPos, (by decide : (1 : Int) ≤ 3), size⟩, rfl⟩
  rcases processImage_local valid scalePos radiusLe isLocal with
    ⟨pixels, processed, pixelsLength, pixelsAt⟩
  refine ⟨⟨width * scale, height * scale, 3, pixels⟩, ?_, rfl, rfl, pixelsLength, pixelsAt⟩
  simp only [rgbEngine, processRgb_eq size, processed]

end NcnnUpscaler.Image
