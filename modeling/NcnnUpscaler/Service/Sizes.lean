import NcnnUpscaler.Image.Locality
import NcnnUpscaler.Service.Inference

/-!
# Sizes within a cap

The cap that the options put on what the network is given, and when it keeps the sizes
that `process_image` computes within an `int`.
-/

namespace NcnnUpscaler.Service

open Raster Tiling
open Image (DecodedImage NetResult paddedSize cropResult defaultUpscalerPadding)

/-- An input of the network: an image of even dimensions, padded from one whose width and
height are at most `cap`. -/
structure WithinCap (cap : Int) (padded : ImagePixels) : Prop where
  even : padded.width % 2 = 0 ∧ padded.height % 2 = 0
  lower : paddedSize 1 defaultUpscalerPadding ≤ padded.width ∧
    paddedSize 1 defaultUpscalerPadding ≤ padded.height
  upper : padded.width ≤ paddedSize cap defaultUpscalerPadding ∧
    padded.height ≤ paddedSize cap defaultUpscalerPadding
  size_eq : (padded.pixels.length : Int) = padded.width * padded.height * 3

/-- A padded image of width and height `cap`, magnified, has a size that fits. -/
def MagnifiedFits (scale cap : Int) : Prop :=
  FitsInt (scale * paddedSize cap defaultUpscalerPadding *
    (scale * paddedSize cap defaultUpscalerPadding) * 3)

instance (scale cap : Int) : Decidable (MagnifiedFits scale cap) :=
  inferInstanceAs (Decidable (FitsInt _))

/-! ## Sizes -/

theorem FitsInt.of_le {value bound : Int} (fits : FitsInt bound) (nonneg : 0 ≤ value)
    (le : value ≤ bound) : FitsInt value := by
  have upper := fits.2
  exact ⟨by omega, by omega⟩

theorem bytes_le {width height wider higher : Int} (widthNonneg : 0 ≤ width)
    (heightNonneg : 0 ≤ height) (widthLe : width ≤ wider) (heightLe : height ≤ higher) :
    width * height * 3 ≤ wider * higher * 3 := by
  have area := Int.mul_le_mul widthLe heightLe heightNonneg (by omega)
  omega

theorem bytes_nonneg {width height : Int} (widthNonneg : 0 ≤ width) (heightNonneg : 0 ≤ height) :
    0 ≤ width * height * 3 :=
  Int.mul_nonneg (Int.mul_nonneg widthNonneg heightNonneg) (by decide)

theorem le_bytes {width height : Int} (widthPos : 1 ≤ width) (heightPos : 1 ≤ height) :
    width ≤ width * height * 3 ∧ height ≤ width * height * 3 := by
  have wide : width ≤ width * height := le_mul_of_one_le_right (by omega) heightPos
  have high : height ≤ width * height := le_mul_of_one_le_left (by omega) widthPos
  omega

theorem paddedSize_mono {size bound : Int} (le : size ≤ bound) :
    size ≤ paddedSize size defaultUpscalerPadding ∧
      paddedSize size defaultUpscalerPadding ≤ paddedSize bound defaultUpscalerPadding := by
  simp only [paddedSize, Image.clearLowBit, defaultUpscalerPadding]
  omega

section Sizes

variable {scale cap : Int} (fits : MagnifiedFits scale cap) (scalePos : 1 ≤ scale)
  {width height : Int} (widthPos : 1 ≤ width) (heightPos : 1 ≤ height) (widthLe : width ≤ cap)
  (heightLe : height ≤ cap)
include fits scalePos widthPos heightPos widthLe heightLe

/-- Within the cap, a padded image and the network's result for it have sizes that fit. -/
theorem padded_fits :
    let paddedWidth := paddedSize width defaultUpscalerPadding
    let paddedHeight := paddedSize height defaultUpscalerPadding
    FitsInt (scale * paddedWidth * (scale * paddedHeight) * 3) ∧
      FitsInt (paddedWidth * paddedHeight * 3) ∧ FitsInt (width * height * 3) := by
  rcases paddedSize_mono widthLe with ⟨widthPad, widthCap⟩
  rcases paddedSize_mono heightLe with ⟨heightPad, heightCap⟩
  have magnify (size : Int) (nonneg : 0 ≤ size) : size ≤ scale * size :=
    le_mul_of_one_le_left nonneg scalePos
  have wide := magnify _ (by omega : 0 ≤ paddedSize width defaultUpscalerPadding)
  have high := magnify _ (by omega : 0 ≤ paddedSize height defaultUpscalerPadding)
  have magnified := fits.of_le (bytes_nonneg (by omega) (by omega))
    (bytes_le (by omega) (by omega)
      (Int.mul_le_mul_of_nonneg_left widthCap (by omega))
      (Int.mul_le_mul_of_nonneg_left heightCap (by omega)))
  have padded := magnified.of_le (bytes_nonneg (by omega) (by omega))
    (bytes_le (by omega) (by omega) wide high)
  exact ⟨magnified, padded, padded.of_le (bytes_nonneg (by omega) (by omega))
    (bytes_le (by omega) (by omega) widthPad heightPad)⟩

/-- So has the crop of that result. -/
theorem crop_fits {decoded : ImagePixels} (decodedWidth : decoded.width = width)
    (decodedHeight : decoded.height = height) {result : NetResult}
    (wEq : result.w = scale * paddedSize width defaultUpscalerPadding)
    (hEq : result.h = scale * paddedSize height defaultUpscalerPadding) :
    CropFits scale decoded result := by
  rcases padded_fits fits scalePos widthPos heightPos widthLe heightLe with ⟨magnified, _, _⟩
  have roomX := Image.padded_room scalePos width
  have roomY := Image.padded_room scalePos height
  have scaledWidth : 1 ≤ width * scale := one_le_mul_of_one_le_of_one_le widthPos scalePos
  have scaledHeight : 1 ≤ height * scale := one_le_mul_of_one_le_of_one_le heightPos scalePos
  simp only [defaultUpscalerPadding] at roomX roomY magnified wEq hEq
  have scaled := magnified.of_le (bytes_nonneg (by omega) (by omega))
    (bytes_le (by omega : 0 ≤ width * scale) (by omega : 0 ≤ height * scale) (by omega)
      (by omega))
  rcases le_bytes scaledWidth scaledHeight with ⟨wide, high⟩
  rw [CropFits, decodedWidth, decodedHeight, wEq, hEq]
  exact ⟨magnified, scaled.of_le (by omega) wide, scaled.of_le (by omega) high, fun _ => scaled⟩

end Sizes

/-- The result of a padded image, magnified exactly, is cut to the scaled size. -/
theorem cropResult_magnified {scale : Int} {decoded padded : ImagePixels} {result : NetResult}
    (valid : DecodedImage decoded) (scalePos : 1 ≤ scale)
    (widthEq : padded.width = paddedSize decoded.width defaultUpscalerPadding)
    (heightEq : padded.height = paddedSize decoded.height defaultUpscalerPadding)
    (magnified : result.w = scale * padded.width ∧ result.h = scale * padded.height) :
    ∃ pixels : Rgb, cropResult scale decoded result =
        .ok ⟨decoded.width * scale, decoded.height * scale, 3, pixels⟩ ∧
      (pixels.length : Int) = decoded.width * scale * (decoded.height * scale) * 3 := by
  rcases magnified with ⟨wEq, hEq⟩
  have roomX := Image.padded_room scalePos decoded.width
  have roomY := Image.padded_room scalePos decoded.height
  rw [widthEq] at wEq
  rw [heightEq] at hEq
  simp only [defaultUpscalerPadding] at roomX roomY wEq hEq
  apply Image.cropResult_of_covers valid scalePos
  exact .inl ⟨by omega, by omega⟩

/-! ## Calls within the cap -/

theorem wellFormed_of_decoded {source : ImagePixels} (valid : DecodedImage source) :
    source.WellFormed ∧ 1 ≤ source.width ∧ 1 ≤ source.height := by
  have sizeEq := valid.size_eq
  rw [valid.rgb] at sizeEq
  have widthPos := valid.width_pos
  have heightPos := valid.height_pos
  exact ⟨⟨by omega, by omega, sizeEq⟩, widthPos, heightPos⟩

/-- The arguments of a call to `process_rgb` with the whole buffer of an image within the
cap. -/
structure CalledWithin (cap : Int) (rgbData : Rgb) (width height : Int) : Prop where
  width_pos : 1 ≤ width
  height_pos : 1 ≤ height
  width_le : width ≤ cap
  height_le : height ≤ cap
  size_eq : (rgbData.length : Int) = width * height * 3

theorem CalledWithin.decodedImage {cap width height : Int} {rgbData : Rgb}
    (call : CalledWithin cap rgbData width height) :
    DecodedImage ⟨width, height, 3, rgbData⟩ :=
  ⟨⟨call.width_pos, call.height_pos, (by decide : (1 : Int) ≤ 3), call.size_eq⟩, rfl⟩

/-- Under a configuration within the cap, the calls for a decoded image are. -/
theorem makesOnly_within {config : TilingConfig} {cap : Int} (valid : config.Valid)
    (within : config.Within cap) {source : ImagePixels} (decoded : DecodedImage source) :
    MakesOnly config source (CalledWithin cap) := by
  rcases wellFormed_of_decoded decoded with ⟨wellFormed, widthPos, heightPos⟩
  have only := makesOnly_callFor valid wellFormed widthPos heightPos
  have inCap {rgbData : Rgb} {width height : Int}
      (call : CallFor config source rgbData width height) :
      CalledWithin cap rgbData width height :=
    ⟨call.width_pos, call.height_pos, (call.within within).1, (call.within within).2,
      call.size_eq⟩
  exact ⟨fun untiled => inCap (only.whole untiled),
    fun tile member tileRgb extracted => inCap (only.tiles tile member tileRgb extracted)⟩

end NcnnUpscaler.Service
