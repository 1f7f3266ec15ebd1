import NcnnUpscaler.Image.Crop
import NcnnUpscaler.Library.MachineInt
import NcnnUpscaler.Library.Wire
import NcnnUpscaler.Options

/-!
# image_io

`decode_image` and `encode_image`, which choose and check around stb_image,
stb_image_write and libwebp.  What these libraries do with the bytes is a parameter; a
null pointer or a zero from them is `none` or `false`.
-/

namespace NcnnUpscaler.Image

open Raster Tiling Wire

/-- What `stbi_load_from_memory` returns when it is asked for three channels. -/
structure StbImage where
  width : Int
  height : Int
  pixels : Rgb

/-- The functions of the image libraries, where a `ρ` is a `WebPPicture` with its
pixels. -/
structure Libraries (ρ : Type) where
  stbiLoadFromMemory : (data : Bytes) → (size : Int) → Option StbImage
  webpConfigInit : Bool
  webpPictureInit : Bool
  webpPictureImportRgb : (width height : Int) → Rgb → (stride : Int) → Option ρ
  webpEncode : (quality : Int) → ρ → Option Bytes
  stbiWritePngToFunc : (width height channels : Int) → Rgb → (stride : Int) → Option Bytes
  stbiWriteJpgToFunc : (width height channels : Int) → Rgb → (quality : Int) → Option Bytes

/-- `WEBP_MAX_DIMENSION`. -/
def webpMaxDimension : Int := 16383

/-- `quality`. -/
def encodeQuality : Int := 90

variable {ρ : Type} (libraries : Libraries ρ)

/-- `decode_image`.  The empty buffer stands for a null pointer too. -/
def decodeImage (data : Bytes) : Option ImagePixels :=
  if data = [] then
    none
  else
    match libraries.stbiLoadFromMemory data (MachineInt.signed 32 data.length) with
    | none => none
    | some image =>
        some
          { width := image.width
            height := image.height
            channels := 3
            pixels := image.pixels.take (image.width * image.height * 3).toNat }

/-- `fmt` before the size of the image is looked at. -/
def requestedFormat (format : String) : String := toLower (if format = "" then "webp" else format)

/-- `fmt`, which is PNG for an image that is too large for WebP. -/
def chosenFormat (image : ImagePixels) (format : String) : String :=
  if requestedFormat format = "webp" ∧
      (image.width > webpMaxDimension ∨ image.height > webpMaxDimension) then
    "png"
  else
    requestedFormat format

/-- `encode_image`: the bytes in `out` when it returns true. -/
def encodeImage (image : ImagePixels) (format : String) : Option Bytes :=
  let fmt := chosenFormat image format
  if fmt = "webp" then
    if ¬libraries.webpConfigInit then
      none
    else if ¬libraries.webpPictureInit then
      none
    else
      match libraries.webpPictureImportRgb image.width image.height image.pixels
          (image.width * image.channels) with
      | none => none
      | some picture => libraries.webpEncode encodeQuality picture
  else if fmt = "png" then
    libraries.stbiWritePngToFunc image.width image.height image.channels image.pixels
      (image.width * image.channels)
  else if fmt = "jpg" ∨ fmt = "jpeg" then
    libraries.stbiWriteJpgToFunc image.width image.height image.channels image.pixels
      encodeQuality
  else
    none

/-- `image_io`, for `process_with_tiling`. -/
def imageIo : Codec where
  decodeImage := decodeImage libraries
  encodeImage := encodeImage libraries

theorem imageIo_encodeImage : (imageIo libraries).encodeImage = encodeImage libraries := by
  simp only [imageIo]

/-! ## What the libraries are relied on for -/

variable {libraries}

/-- stb_image returns nonempty images with a buffer of their size. -/
def Libraries.LoadsImages (libraries : Libraries ρ) : Prop :=
  ∀ data size image, libraries.stbiLoadFromMemory data size = some image →
    1 ≤ image.width ∧ 1 ≤ image.height ∧
      (image.pixels.length : Int) = image.width * image.height * 3

/-- The libraries encode every image that the format has room for. -/
structure Libraries.Encodes (libraries : Libraries ρ) : Prop where
  initialised : libraries.webpConfigInit = true ∧ libraries.webpPictureInit = true
  webp : ∀ image, DecodedImage image → image.width ≤ webpMaxDimension →
    image.height ≤ webpMaxDimension →
    ∃ picture bytes,
      libraries.webpPictureImportRgb image.width image.height image.pixels
          (image.width * 3) = some picture ∧
        libraries.webpEncode encodeQuality picture = some bytes
  png : ∀ image, DecodedImage image → ∃ bytes,
    libraries.stbiWritePngToFunc image.width image.height 3 image.pixels (image.width * 3) =
      some bytes
  jpg : ∀ image, DecodedImage image → ∃ bytes,
    libraries.stbiWriteJpgToFunc image.width image.height 3 image.pixels encodeQuality =
      some bytes

/-- A format that `encode_image` knows. -/
def KnownFormat (format : String) : Prop :=
  requestedFormat format ∈ ["webp", "png", "jpg", "jpeg"]

instance (format : String) : Decidable (KnownFormat format) :=
  inferInstanceAs (Decidable (_ ∈ _))

/-- What `decode_image` returns is a nonempty image of three channels. -/
theorem decodeImage_decoded (loads : libraries.LoadsImages) {data : Bytes} {image : ImagePixels}
    (decoded : decodeImage libraries data = some image) : DecodedImage image := by
  simp only [decodeImage] at decoded
  split at decoded
  · cases decoded
  · split at decoded
    · cases decoded
    · next loaded loadedEq =>
        cases decoded
        rcases loads _ _ _ loadedEq with ⟨widthPos, heightPos, sizeEq⟩
        have whole : loaded.pixels.take (loaded.width * loaded.height * 3).toNat =
            loaded.pixels := List.take_of_length_le (by omega)
        refine ⟨⟨widthPos, heightPos, (by decide : (1 : Int) ≤ 3), ?_⟩, rfl⟩
        simp only [whole]
        exact sizeEq

/-- An unknown format encodes nothing. -/
theorem encodeImage_unknown (image : ImagePixels) {format : String}
    (unknown : ¬KnownFormat format) : encodeImage libraries image format = none := by
  simp only [KnownFormat, List.mem_cons, List.not_mem_nil, or_false, not_or] at unknown
  rcases unknown with ⟨notWebp, notPng, notJpg, notJpeg⟩
  have chosen : chosenFormat image format = requestedFormat format := by
    simp only [chosenFormat, notWebp, false_and, if_false]
  simp only [encodeImage, chosen, notWebp, notPng, notJpg, notJpeg, or_false, if_false]

/-- In a known format every decoded image is encoded. -/
theorem encodeImage_known (encodes : libraries.Encodes) {image : ImagePixels}
    (valid : DecodedImage image) {format : String} (known : KnownFormat format) :
    ∃ bytes, encodeImage libraries image format = some bytes := by
  rcases encodes.initialised with ⟨config, picture⟩
  simp only [encodeImage, valid.rgb, config, picture, not_true_eq_false, if_false]
  by_cases webp : chosenFormat image format = "webp"
  · have small : image.width ≤ webpMaxDimension ∧ image.height ≤ webpMaxDimension := by
      simp only [chosenFormat] at webp
      split at webp
      · exact absurd webp (by decide)
      · next fits =>
          have small := mt (And.intro webp) fits
          omega
    rcases encodes.webp image valid small.1 small.2 with ⟨picture, bytes, imported, encoded⟩
    simp only [if_pos webp, imported]
    exact ⟨bytes, encoded⟩
  · rw [if_neg webp]
    by_cases png : chosenFormat image format = "png"
    · rw [if_pos png]
      exact encodes.png image valid
    · have jpg : chosenFormat image format = "jpg" ∨ chosenFormat image format = "jpeg" := by
        simp only [KnownFormat, List.mem_cons, List.not_mem_nil, or_false] at known
        simp only [chosenFormat] at webp png ⊢
        split
        · next large => exact absurd (if_pos large) png
        · next fits =>
            rw [if_neg fits] at webp png
            exact (known.resolve_left webp).resolve_left png
      rw [if_neg png, if_pos jpg]
      exact encodes.jpg image valid

end NcnnUpscaler.Image
