import NcnnUpscaler.Image.Locality
import NcnnUpscaler.Tiling.Int32

/-!
# Padding and cropping on machine integers

`pad_image` and `process_image` with sizes and offsets computed as 32-bit `int`.  A
padded image of `2 ^ 31` bytes or more has no buffer of its size, and neither has a
result of inference.  Below that, the functions are those of the exact arithmetic:
`pad_image` replicates the edges but in the column that rounding adds, and padding and
cropping cancel.
-/

namespace NcnnUpscaler.Image

open Raster Tiling LocalFilter

/-- `padded.width` and `padded.height`, from the source's. -/
def paddedSize32 (size padding : Int) : Int := clearLowBit (int32 (size + padding * 2 + 1))

/-- The `memcpy` calls for one row of the padded image: the left padding, the source
row and the right padding. -/
def rowCopies32 (src : ImagePixels) (padding : Int) (y : Nat) : List Copy :=
  let ch := src.channels
  let srcRowBytes := int32 (src.width * ch)
  let dstRowBytes := int32 (paddedSize32 src.width padding * ch)
  let dstRow := int32 (y * dstRowBytes)
  let srcRow := int32 (sourceRow src padding y * srcRowBytes)
  let rightPx := srcRow + int32 ((src.width - 1) * ch)
  ((List.range padding.toNat).map fun x : Nat =>
      { dst := dstRow + int32 (x * ch), src := srcRow, len := sizeT ch }) ++
    { dst := dstRow + int32 (padding * ch), src := srcRow, len := sizeT srcRowBytes } ::
      (List.range padding.toNat).map fun x : Nat =>
        { dst := dstRow + int32 ((padding + src.width + x) * ch), src := rightPx
          len := sizeT ch }

/-- All `memcpy` calls, row by row. -/
def padCopies32 (src : ImagePixels) (padding : Int) : List Copy :=
  (List.range (paddedSize32 src.height padding).toNat).flatMap (rowCopies32 src padding)

/-- `pad_image`. -/
def padImage32 (src : ImagePixels) (padding : Int) : Except Stop ImagePixels :=
  if src.width ≤ 0 ∨ src.height ≤ 0 ∨ padding ≤ 0 then
    .ok src
  else
    let width := paddedSize32 src.width padding
    let height := paddedSize32 src.height padding
    match allocate (int32 (width * height * src.channels)) with
    | .error stop => .error stop
    | .ok buffer =>
        match copyRows (padCopies32 src padding) buffer src.pixels with
        | .error stop => .error stop
        | .ok pixels => .ok { width, height, channels := src.channels, pixels }

/-- `start_x` and `start_y`. -/
def startOffset32 (scale fullSize finalSize : Int) : Int :=
  min (int32 (defaultUpscalerPadding * scale)) (max 0 (int32 (fullSize - finalSize)))

/-- The `memcpy` calls of the crop loop. -/
def cropCopies32 (scale : Int) (result : NetResult) (finalWidth finalHeight : Int) :
    List Copy :=
  let startX := startOffset32 scale result.w finalWidth
  let startY := startOffset32 scale result.h finalHeight
  (List.range finalHeight.toNat).map fun row : Nat =>
    wrapCopy
      { dst := row * finalWidth * 3
        src := ((startY + row) * result.w + startX) * 3
        len := finalWidth * 3 }

/-- `process_image` from `full_pixels` on. -/
def cropPixels32 (scale : Int) (decoded : ImagePixels) (result : NetResult) :
    Except Stop ImagePixels :=
  let desiredWidth := int32 (decoded.width * scale)
  let desiredHeight := int32 (decoded.height * scale)
  if needsCrop result desiredWidth desiredHeight then
    match allocate (int32 (desiredWidth * desiredHeight * 3)) with
    | .error stop => .error stop
    | .ok finalPixels =>
        match copyRows (cropCopies32 scale result desiredWidth desiredHeight) finalPixels
            result.fullPixels with
        | .error stop => .error stop
        | .ok pixels =>
            .ok { width := desiredWidth, height := desiredHeight, channels := 3, pixels }
  else
    .ok { width := result.w, height := result.h, channels := 3, pixels := result.fullPixels }

/-- `process_image` from the result of inference on. -/
def cropResult32 (scale : Int) (decoded : ImagePixels) (result : NetResult) :
    Except Stop ImagePixels :=
  match allocate (int32 (result.w * result.h * 3)) with
  | .error stop => .error stop
  | .ok fullPixels =>
      -- `to_pixels` writes three bytes for each pixel.
      if (fullPixels.length : Int) < result.w * result.h * 3 then
        .error .fault
      else
        cropPixels32 scale decoded result

/-- `process_image`, where `scale` is `get_scale_factor()`: the image in `encoded` when
it returns true. -/
def processImage32 (infer : Inference) (scale : Int) (decoded : ImagePixels) :
    Except Stop ImagePixels :=
  match padImage32 decoded defaultUpscalerPadding with
  | .error stop => .error stop
  | .ok padded =>
      -- `from_pixels` reads three bytes for each pixel.
      if (padded.pixels.length : Int) < padded.width * padded.height * 3 then
        .error .fault
      else
        match infer padded with
        | none => .error .failed
        | some result => cropResult32 scale decoded result

variable {src : ImagePixels} {padding : Int}

/-! ## Padded images that fit -/

/-- The size of the padded image, in bytes. -/
def paddedBytes (src : ImagePixels) (padding : Int) : Int :=
  paddedSize src.width padding * paddedSize src.height padding * src.channels

section Complete

variable (complete : Complete src) (paddingPos : 1 ≤ padding)
  (small : paddedBytes src padding < 2 ^ 31)

include complete in
theorem paddedBytes_nonneg (paddingPos : 1 ≤ padding) : 0 ≤ paddedBytes src padding := by
  rcases complete with ⟨widthPos, heightPos, channelsPos, _⟩
  have wide := paddedSize_eq src.width padding
  have high := paddedSize_eq src.height padding
  exact Int.mul_nonneg (Int.mul_nonneg (by omega) (by omega)) (by omega)

include complete small

/-- Offsets to a row of a padded image of fewer than `2 ^ 31` bytes fit an `int`. -/
theorem int32_row {rows columns : Int} (rowsNonneg : 0 ≤ rows)
    (rowsLe : rows ≤ paddedSize src.height padding) (columnsNonneg : 0 ≤ columns)
    (columnsLe : columns ≤ paddedSize src.width padding) :
    int32 (rows * (columns * src.channels)) = rows * (columns * src.channels) := by
  rcases complete with ⟨widthPos, heightPos, channelsPos, _⟩
  have columnsBytes : 0 ≤ columns * src.channels := Int.mul_nonneg columnsNonneg (by omega)
  have columnsFit : columns * src.channels ≤ paddedSize src.width padding * src.channels :=
    Int.mul_le_mul_of_nonneg_right columnsLe (by omega)
  have offset : 0 ≤ rows * (columns * src.channels) := Int.mul_nonneg rowsNonneg columnsBytes
  have fits : rows * (columns * src.channels) < 2147483648 := by
    calc rows * (columns * src.channels)
        ≤ paddedSize src.height padding * (paddedSize src.width padding * src.channels) :=
          Int.mul_le_mul rowsLe columnsFit columnsBytes (by omega)
      _ = paddedBytes src padding := by
          simp only [paddedBytes]
          ring
      _ < 2147483648 := small
  exact int32_eq_self (by omega) fits

include paddingPos

/-- So do those into a row. -/
theorem int32_column {columns : Int} (nonneg : 0 ≤ columns)
    (columnsLe : columns ≤ paddedSize src.width padding) :
    int32 (columns * src.channels) = columns * src.channels := by
  have heightPos := complete.height_pos
  have high := paddedSize_eq src.height padding
  have row := int32_row complete small (by decide : (0 : Int) ≤ 1) (by omega) nonneg columnsLe
  rw [Int.one_mul] at row
  exact row

/-- The lengths of a row's parts are computed as they are. -/
theorem sizeT_column {columns : Int} (nonneg : 0 ≤ columns)
    (columnsLe : columns ≤ paddedSize src.width padding) :
    sizeT (columns * src.channels) = columns * src.channels := by
  have channelsPos := complete.channels_pos
  have computed := int32_lt (columns * src.channels)
  rw [int32_column complete paddingPos small nonneg columnsLe] at computed
  exact sizeT_eq_self (Int.mul_nonneg nonneg (by omega)) (by omega)

theorem paddedSize32_eq :
    paddedSize32 src.width padding = paddedSize src.width padding ∧
      paddedSize32 src.height padding = paddedSize src.height padding := by
  rcases complete with ⟨widthPos, heightPos, channelsPos, _⟩
  have wide := paddedSize_eq src.width padding
  have high := paddedSize_eq src.height padding
  have area : paddedSize src.width padding * paddedSize src.height padding ≤
      paddedBytes src padding :=
    le_mul_of_one_le_right (Int.mul_nonneg (by omega) (by omega)) channelsPos
  have widthLe : paddedSize src.width padding * 2 ≤
      paddedSize src.width padding * paddedSize src.height padding :=
    Int.mul_le_mul_of_nonneg_left (by omega) (by omega)
  have heightLe : 2 * paddedSize src.height padding ≤
      paddedSize src.width padding * paddedSize src.height padding :=
    Int.mul_le_mul_of_nonneg_right (by omega) (by omega)
  constructor
  · rw [paddedSize32, int32_eq_self (by omega) (by omega), paddedSize]
  · rw [paddedSize32, int32_eq_self (by omega) (by omega), paddedSize]

/-- The rows are copied as by the exact arithmetic. -/
theorem rowCopies32_eq {y : Nat} (yLt : (y : Int) < paddedSize src.height padding) :
    rowCopies32 src padding y = rowCopies src padding y := by
  rcases paddedSize32_eq complete paddingPos small with ⟨widthEq, _⟩
  have widthPos := complete.width_pos
  have heightPos := complete.height_pos
  have wide := paddedSize_eq src.width padding
  have high := paddedSize_eq src.height padding
  have inRow {columns : Int} (nonneg : 0 ≤ columns) :=
    @int32_column src padding complete paddingPos small columns nonneg
  have row : 0 ≤ sourceRow src padding y ∧ sourceRow src padding y < src.height :=
    LocalFilter.clamp_mem _ (by omega)
  have dstRow := int32_row complete small (by omega) (by omega : (y : Int) ≤ _)
    (by omega : 0 ≤ paddedSize src.width padding) (by omega)
  have srcRow := int32_row complete small row.1 (by omega) (by omega : 0 ≤ src.width) (by omega)
  have rowLength := sizeT_column complete paddingPos small (by omega : 0 ≤ src.width) (by omega)
  have oneLength := sizeT_column complete paddingPos small (by decide : (0 : Int) ≤ 1) (by omega)
  rw [Int.one_mul] at oneLength
  simp only [rowCopies32, rowCopies, widthEq, inRow (by omega : 0 ≤ src.width) (by omega),
    inRow (by omega : 0 ≤ paddedSize src.width padding) (by omega), dstRow, srcRow, oneLength,
    rowLength, inRow (by omega : 0 ≤ src.width - 1) (by omega),
    inRow (by omega : 0 ≤ padding) (by omega)]
  congr 1
  · apply List.map_congr_left
    intro x inRange
    have xLt := List.mem_range.mp inRange
    rw [inRow (by omega) (by omega)]
  · congr 1
    apply List.map_congr_left
    intro x inRange
    have xLt := List.mem_range.mp inRange
    rw [inRow (by omega) (by omega)]

/-- Padding is that of the exact arithmetic. -/
theorem padImage32_eq : padImage32 src padding = padImage src padding := by
  rcases paddedSize32_eq complete paddingPos small with ⟨widthEq, heightEq⟩
  have copiesEq : padCopies32 src padding = padCopies src padding := by
    simp only [padCopies32, padCopies, heightEq]
    apply List.flatMap_congr
    intro y inRange
    have yLt := List.mem_range.mp inRange
    exact rowCopies32_eq complete paddingPos small (by omega)
  have bytesEq : int32 (paddedSize src.width padding * paddedSize src.height padding *
      src.channels) =
        paddedSize src.width padding * paddedSize src.height padding * src.channels := by
    exact (int32_eq_self_iff (paddedBytes_nonneg complete paddingPos)).mpr small
  have widthPos := complete.width_pos
  have heightPos := complete.height_pos
  have nonempty : ¬(src.width ≤ 0 ∨ src.height ≤ 0 ∨ padding ≤ 0) := by omega
  cases allocated : allocate (paddedSize src.width padding * paddedSize src.height padding *
    src.channels) with
  | error stop =>
      simp only [padImage32, padImage, if_neg nonempty, widthEq, heightEq, bytesEq, allocated]
  | ok buffer =>
      cases copied : copyRows (padCopies src padding) buffer src.pixels with
      | error stop =>
          simp only [padImage32, padImage, if_neg nonempty, widthEq, heightEq, bytesEq, copiesEq,
            allocated, copied]
      | ok pixels =>
          simp only [padImage32, padImage, if_neg nonempty, widthEq, heightEq, bytesEq, copiesEq,
            allocated, copied]

end Complete

/-! ## Edge replication -/

/-- `pad_image` replicates the edges on the whole padded rectangle: a buffer of even
dimensions that exceed the border by at most one, copies that stay inside their rows, and
at every pixel the source pixel nearest to it. -/
def PadsByReplication (src : ImagePixels) (padding : Int) : Prop :=
  ∃ padded, padImage32 src padding = .ok padded ∧
    (padded.width % 2 = 0 ∧ padded.height % 2 = 0) ∧
    (src.width + 2 * padding ≤ padded.width ∧
      padded.width ≤ src.width + 2 * padding + 1) ∧
    (src.height + 2 * padding ≤ padded.height ∧
      padded.height ≤ src.height + 2 * padding + 1) ∧
    (padded.channels = src.channels ∧
      (padded.pixels.length : Int) = padded.width * padded.height * padded.channels) ∧
    (∀ y : Nat, (y : Int) < padded.height → ∀ copy ∈ rowCopies32 src padding y,
      InRow src padding y copy) ∧
    ∀ x y channel, 0 ≤ x → x < padded.width → 0 ≤ y → y < padded.height → 0 ≤ channel →
      channel < src.channels → byteAt padded x y channel =
        byteAt src (LocalFilter.clamp src.width (x - padding))
          (LocalFilter.clamp src.height (y - padding)) channel

/-- The last column of the image is black. -/
def BlackRightEdge (src : ImagePixels) : Prop :=
  ∀ y channel, 0 ≤ y → y < src.height → 0 ≤ channel → channel < src.channels →
    byteAt src (src.width - 1) y channel = 0

/-- A padded image that comes with a buffer of its size was allocated as computed. -/
theorem padImage32_length (complete : Complete src) (paddingPos : 1 ≤ padding)
    {padded : ImagePixels} (padding32 : padImage32 src padding = .ok padded) :
    padded.width = paddedSize32 src.width padding ∧
      padded.height = paddedSize32 src.height padding ∧ padded.channels = src.channels ∧
      (padded.pixels.length : Int) = int32 (padded.width * padded.height * src.channels) := by
  have widthPos := complete.width_pos
  have heightPos := complete.height_pos
  have nonempty : ¬(src.width ≤ 0 ∨ src.height ≤ 0 ∨ padding ≤ 0) := by omega
  simp only [padImage32, if_neg nonempty] at padding32
  split at padding32
  · cases padding32
  · next buffer allocateEq =>
      split at padding32
      · cases padding32
      · next pixels copied =>
          cases padding32
          rw [(copyRows_inBounds copied).1, allocate_size allocateEq]
          exact ⟨rfl, rfl, rfl, rfl⟩

/-- A size between the border and one more that is even is the one that rounding gives. -/
theorem eq_paddedSize {size rounded : Int} (even : rounded % 2 = 0)
    (lower : size + 2 * padding ≤ rounded) (upper : rounded ≤ size + 2 * padding + 1) :
    rounded = paddedSize size padding := by
  have wide := paddedSize_eq size padding
  omega

/-- Edge replication needs a buffer of the size of the padded image. -/
theorem small_of_replication (complete : Complete src) (paddingPos : 1 ≤ padding)
    (replication : PadsByReplication src padding) : paddedBytes src padding < 2 ^ 31 := by
  rcases replication with
    ⟨padded, padding32, ⟨evenWidth, evenHeight⟩, ⟨widthGe, widthLe⟩, ⟨heightGe, heightLe⟩,
      ⟨channelsEq, sizeEq⟩, _⟩
  have widthEq := eq_paddedSize evenWidth widthGe widthLe
  have heightEq := eq_paddedSize evenHeight heightGe heightLe
  have allocated := (padImage32_length complete paddingPos padding32).2.2.2
  rw [sizeEq, channelsEq, widthEq, heightEq] at allocated
  exact (int32_eq_self_iff (paddedBytes_nonneg complete paddingPos)).mp allocated.symm

/-- In an image of odd width the column that rounding adds should repeat the right edge,
and is zero. -/
theorem blackRightEdge_of_replication (complete : Complete src) (paddingPos : 1 ≤ padding)
    (odd : src.width % 2 = 1) (replication : PadsByReplication src padding) :
    BlackRightEdge src := by
  have small := small_of_replication complete paddingPos replication
  intro y channel yNonneg yLt channelNonneg channelLt
  rcases padImage_eq complete paddingPos with
    ⟨padded, paddedEq, widthEq, heightEq, _, _, bytes⟩
  rcases replication with ⟨other, otherEq, _, _, _, _, _, nearest⟩
  rw [padImage32_eq complete paddingPos small] at otherEq
  have same : padded = other := Except.ok.inj (paddedEq.symm.trans otherEq)
  subst same
  have wide := paddedSize_eq src.width padding
  have high := paddedSize_eq src.height padding
  have widthPos := complete.width_pos
  have column : LocalFilter.clamp src.width (src.width + 2 * padding - padding) =
      src.width - 1 := by
    simp only [LocalFilter.clamp]
    omega
  have row : LocalFilter.clamp src.height (y + padding - padding) = y := by
    simp only [LocalFilter.clamp]
    omega
  have zero := bytes (src.width + 2 * padding) (y + padding) channel (by omega) (by omega)
    (by omega) (by omega) channelNonneg channelLt
  have edge := nearest (src.width + 2 * padding) (y + padding) channel (by omega) (by omega)
    (by omega) (by omega) channelNonneg channelLt
  rw [if_neg (Int.lt_irrefl _)] at zero
  rw [column, row] at edge
  exact edge.symm.trans zero

/-- Padding is edge replication exactly when the padded image has fewer than `2 ^ 31`
bytes, and the width is even or the last column of the image is black. -/
theorem pads_by_replication_iff {src : ImagePixels} (complete : Complete src) {padding : Int}
    (paddingPos : 1 ≤ padding) :
    PadsByReplication src padding ↔
      paddedBytes src padding < 2 ^ 31 ∧ (src.width % 2 = 0 ∨ BlackRightEdge src) := by
  have wide := paddedSize_eq src.width padding
  have high := paddedSize_eq src.height padding
  constructor
  · intro replication
    refine ⟨small_of_replication complete paddingPos replication, ?_⟩
    by_cases even : src.width % 2 = 0
    · exact .inl even
    · exact .inr (blackRightEdge_of_replication complete paddingPos (by omega) replication)
  · intro condition
    rcases condition with ⟨small, harmless⟩
    rcases padImage_eq complete paddingPos with
      ⟨padded, paddedEq, widthEq, heightEq, channelsEq, sizeEq, bytes⟩
    have evenWidth := paddedSize_even src.width padding
    have evenHeight := paddedSize_even src.height padding
    refine ⟨padded, (padImage32_eq complete paddingPos small).trans paddedEq, by omega, by omega,
      by omega, ⟨channelsEq, sizeEq⟩, ?_, ?_⟩
    · intro y yLt copy member
      rw [rowCopies32_eq complete paddingPos small (by omega)] at member
      exact inRow_of_mem complete paddingPos member
    · intro x y channel xNonneg xLt yNonneg yLt channelNonneg channelLt
      rw [bytes x y channel xNonneg xLt yNonneg yLt channelNonneg channelLt]
      by_cases inside : x < src.width + 2 * padding
      · rw [if_pos inside]
      · have widthPos := complete.width_pos
        have heightPos := complete.height_pos
        have black := harmless.resolve_left (by omega)
        have row := LocalFilter.clamp_mem (y - padding) (by omega : 0 < src.height)
        have column : LocalFilter.clamp src.width (x - padding) = src.width - 1 := by
          simp only [LocalFilter.clamp]
          omega
        rw [if_neg inside, column]
        exact (black _ channel row.1 row.2 channelNonneg channelLt).symm

/-- A white image of two by one pixels. -/
theorem pads_by_replication_iff_white :
    PadsByReplication ⟨2, 1, 3, List.replicate 6 255⟩ defaultUpscalerPadding ↔
      paddedBytes ⟨2, 1, 3, List.replicate 6 255⟩ defaultUpscalerPadding < 2 ^ 31 ∧
        ((2 : Int) % 2 = 0 ∨ BlackRightEdge ⟨2, 1, 3, List.replicate 6 255⟩) :=
  pads_by_replication_iff ⟨by decide, by decide, by decide, by decide⟩ (by decide)

/-- A white image of one pixel: its last padded column is black. -/
theorem alignment_column_black :
    ¬PadsByReplication ⟨1, 1, 3, List.replicate 3 255⟩ defaultUpscalerPadding := by
  intro replication
  have black := blackRightEdge_of_replication
    ⟨by decide, by decide, by decide, by decide⟩ (by decide) (by decide) replication
  exact absurd (black 0 0 (by decide) (by decide) (by decide) (by decide)) (by decide)

/-! ## Padding and cropping -/

variable {infer : Inference} {scale : Int} {decoded : ImagePixels} {result : NetResult}

/-- The size of what a network that magnifies `scale` times makes of the padded image, in
bytes. -/
def resultBytes (scale : Int) (decoded : ImagePixels) : Int :=
  scale * paddedSize decoded.width defaultUpscalerPadding *
    (scale * paddedSize decoded.height defaultUpscalerPadding) * 3

/-- Padding and cropping cancel out: `process_image` returns the image that the kernel
computes from the edge replication of the source, at `scale` times its size. -/
def CancelsPadding {radius : Nat} (infer : Inference) (kernel : Kernel radius Pixel)
    (scale : Int) (decoded : ImagePixels) : Prop :=
  ∃ encoded, processImage32 infer scale decoded = .ok encoded ∧
    encoded.width = scale * decoded.width ∧ encoded.height = scale * decoded.height ∧
    (encoded.pixels.length : Int) = encoded.width * encoded.height * 3 ∧
    ∀ x y, 0 ≤ x → x < encoded.width → 0 ≤ y → y < encoded.height →
      encoded.at x y = filter kernel scale decoded.width decoded.height decoded.at x y

/-- The crop loop copies as by the exact arithmetic, with the offsets and lengths of its
calls computed as `int`. -/
theorem cropCopies32_eq (scalePos : 1 ≤ scale) {finalWidth finalHeight : Int}
    (widthFits : 0 ≤ result.w - finalWidth ∧ result.w - finalWidth < 2 ^ 31)
    (heightFits : 0 ≤ result.h - finalHeight ∧ result.h - finalHeight < 2 ^ 31)
    (border : defaultUpscalerPadding * scale < 2 ^ 31) :
    cropCopies32 scale result finalWidth finalHeight =
      (cropCopies scale result finalWidth finalHeight).map wrapCopy := by
  have padPixels : int32 (defaultUpscalerPadding * scale) = defaultUpscalerPadding * scale := by
    simp only [defaultUpscalerPadding] at border ⊢
    exact int32_eq_self (by omega) (by omega)
  have overX : int32 (result.w - finalWidth) = result.w - finalWidth :=
    int32_eq_self (by omega) (by omega)
  have overY : int32 (result.h - finalHeight) = result.h - finalHeight :=
    int32_eq_self (by omega) (by omega)
  simp only [cropCopies32, cropCopies, startOffset32, startOffset, padPixels, overX, overY,
    List.map_map]
  rfl

/-- Where the result fits, the crop is that of the exact arithmetic. -/
theorem cropResult32_eq (valid : DecodedImage decoded) (scalePos : 1 ≤ scale)
    (small : result.w * result.h * 3 < 2 ^ 31) (wide : decoded.width * scale < result.w)
    (high : decoded.height * scale ≤ result.h)
    (border : defaultUpscalerPadding * scale < result.w) :
    cropResult32 scale decoded result = cropResult scale decoded result := by
  have wPos := result.w_pos
  have hPos := result.h_pos
  rcases scaled_pos valid scalePos with ⟨widthPos, heightPos⟩
  rcases Tiling.extents_lt wPos hPos small with ⟨wLt, hLt⟩
  rcases cropResult_pixels valid scalePos wide high with ⟨pixels, croppedEq, pixelsLength, _⟩
  have pixelsLe : decoded.width * scale * (decoded.height * scale) ≤ result.w * result.h :=
    Int.mul_le_mul (Int.le_of_lt wide) high (by omega) (by omega)
  have area : 0 ≤ result.w * result.h := Int.mul_nonneg (by omega) (by omega)
  rcases allocate_ok (by omega : 0 ≤ result.w * result.h * 3) with
    ⟨fullPixels, fullAllocated, fullLength⟩
  have full : ¬(fullPixels.length : Int) < result.w * result.h * 3 := by omega
  have fullSize : int32 (result.w * result.h * 3) = result.w * result.h * 3 :=
    int32_eq_self (by omega) (by omega)
  have crop : needsCrop result (decoded.width * scale) (decoded.height * scale) = true :=
    needsCrop_eq_true.mpr (.inl wide)
  have widthEq : int32 (decoded.width * scale) = decoded.width * scale :=
    int32_eq_self (by omega) (by omega)
  have heightEq : int32 (decoded.height * scale) = decoded.height * scale :=
    int32_eq_self (by omega) (by omega)
  have copiesEq := cropCopies32_eq scalePos
    (by omega : 0 ≤ result.w - decoded.width * scale ∧ result.w - decoded.width * scale < 2 ^ 31)
    (by omega : 0 ≤ result.h - decoded.height * scale ∧
      result.h - decoded.height * scale < 2 ^ 31) (by omega)
  simp only [cropResult, crop, if_true] at croppedEq
  split at croppedEq
  · cases croppedEq
  · next buffer allocateEq =>
      split at croppedEq
      · cases croppedEq
      · next cropped copied =>
          cases croppedEq
          have fullSmall : (result.fullPixels.length : Int) < 2 ^ 31 := by
            rw [fullPixels_length]
            exact small
          rcases fill_wrapped allocateEq copied (by omega) fullSmall with ⟨allocated, filled⟩
          simp only [cropResult32, fullSize, fullAllocated, if_neg full, cropPixels32, cropResult,
            widthEq, heightEq, crop, if_true, copiesEq, allocated, filled, allocateEq, copied]

/-- A result that fits has room for the padded image, which is then padded as by the exact
arithmetic. -/
theorem paddedBytes_of_resultBytes (valid : DecodedImage decoded) (scalePos : 1 ≤ scale)
    (small : resultBytes scale decoded < 2 ^ 31) :
    paddedBytes decoded defaultUpscalerPadding < 2 ^ 31 := by
  have widthPos := valid.width_pos
  have heightPos := valid.height_pos
  have wide := paddedSize_eq decoded.width defaultUpscalerPadding
  have high := paddedSize_eq decoded.height defaultUpscalerPadding
  simp only [defaultUpscalerPadding] at wide high
  have widthLe : paddedSize decoded.width defaultUpscalerPadding ≤
      scale * paddedSize decoded.width defaultUpscalerPadding :=
    le_mul_of_one_le_left (by simp only [defaultUpscalerPadding]; omega) scalePos
  have heightLe : paddedSize decoded.height defaultUpscalerPadding ≤
      scale * paddedSize decoded.height defaultUpscalerPadding :=
    le_mul_of_one_le_left (by simp only [defaultUpscalerPadding]; omega) scalePos
  have area := Int.mul_le_mul widthLe heightLe
    (by simp only [defaultUpscalerPadding]; omega)
    (Int.mul_nonneg (by omega) (by simp only [defaultUpscalerPadding]; omega))
  simp only [resultBytes] at small
  rw [paddedBytes, valid.rgb]
  omega

/-- Inference is given all of a padded image that fits. -/
theorem processImage32_of_padded (valid : DecodedImage decoded)
    (small : paddedBytes decoded defaultUpscalerPadding < 2 ^ 31) {padded : ImagePixels}
    (padding : padImage decoded defaultUpscalerPadding = .ok padded)
    (paddedValid : DecodedImage padded) :
    processImage32 infer scale decoded =
      match infer padded with
      | none => .error .failed
      | some result => cropResult32 scale decoded result := by
  have sizeEq := paddedValid.size_eq
  rw [paddedValid.rgb] at sizeEq
  have enough : ¬(padded.pixels.length : Int) < padded.width * padded.height * 3 := by omega
  have padding32 := (padImage32_eq valid.toComplete (by decide) small).trans padding
  simp only [processImage32, padding32, if_neg enough]

/-- Where the result fits, `process_image` is that of the exact arithmetic. -/
theorem processImage32_eq (valid : DecodedImage decoded) (scalePos : 1 ≤ scale) {radius : Nat}
    {kernel : Kernel radius Pixel} (isLocal : IsLocal infer kernel scale)
    (small : resultBytes scale decoded < 2 ^ 31) :
    processImage32 infer scale decoded = processImage infer scale decoded := by
  rcases exists_padded valid with ⟨padded, padding, paddedValid, widthEq, heightEq, _⟩
  rcases isLocal padded paddedValid with ⟨result, inferred, wEq, hEq, _⟩
  rw [widthEq] at wEq
  rw [heightEq] at hEq
  have resultSmall : result.w * result.h * 3 < 2 ^ 31 := by
    rw [wEq, hEq]
    exact small
  have roomX := padded_room scalePos decoded.width
  have roomY := padded_room scalePos decoded.height
  have border : 1 ≤ defaultUpscalerPadding * scale := by
    simp only [defaultUpscalerPadding]
    omega
  rcases scaled_pos valid scalePos with ⟨widthPos, heightPos⟩
  rw [processImage_eq valid padding, processImage32_of_padded valid
    (paddedBytes_of_resultBytes valid scalePos small) padding paddedValid, inferred]
  exact cropResult32_eq valid scalePos resultSmall (by omega) (by omega) (by omega)

/-- Where the size of the result wraps to a negative one, `process_image` fails. -/
theorem processImage32_fails (valid : DecodedImage decoded) {radius : Nat}
    {kernel : Kernel radius Pixel} (isLocal : IsLocal infer kernel scale)
    (small : paddedBytes decoded defaultUpscalerPadding < 2 ^ 31)
    (negative : int32 (resultBytes scale decoded) < 0) :
    processImage32 infer scale decoded = .error .failed := by
  rcases exists_padded valid with ⟨padded, padding, paddedValid, widthEq, heightEq, _⟩
  rcases isLocal padded paddedValid with ⟨result, inferred, wEq, hEq, _⟩
  rw [widthEq] at wEq
  rw [heightEq] at hEq
  rw [processImage32_of_padded valid small padding paddedValid, inferred]
  have failed : allocate (int32 (result.w * result.h * 3)) = .error .failed := by
    rw [wEq, hEq]
    exact if_pos negative
  simp only [cropResult32, failed]

/-- An image that `process_image` returns has fewer than `2 ^ 31` bytes, and so has the
result of inference it is cut from. -/
theorem cropResult32_small {encoded : ImagePixels}
    (cropped : cropResult32 scale decoded result = .ok encoded) :
    result.w * result.h * 3 < 2 ^ 31 ∧ (encoded.pixels.length : Int) < 2 ^ 31 := by
  simp only [cropResult32] at cropped
  split at cropped
  · cases cropped
  · next fullPixels allocateEq =>
      split at cropped
      · cases cropped
      · next full =>
          have computed := int32_lt (result.w * result.h * 3)
          rw [← allocate_size allocateEq] at computed
          have small : result.w * result.h * 3 < 2 ^ 31 := by omega
          refine ⟨small, ?_⟩
          simp only [cropPixels32] at cropped
          split at cropped
          · split at cropped
            · cases cropped
            · next buffer bufferEq =>
                split at cropped
                · cases cropped
                · next pixels copied =>
                    cases cropped
                    rw [(copyRows_inBounds copied).1, allocate_size bufferEq]
                    exact int32_lt _
          · cases cropped
            rw [fullPixels_length]
            exact small

/-- What `process_image` went through when it returns true. -/
theorem processImage32_ok {encoded : ImagePixels}
    (processed : processImage32 infer scale decoded = .ok encoded) :
    ∃ padded result, padImage32 decoded defaultUpscalerPadding = .ok padded ∧
      padded.width * padded.height * 3 ≤ padded.pixels.length ∧ infer padded = some result ∧
      cropResult32 scale decoded result = .ok encoded := by
  simp only [processImage32] at processed
  split at processed
  · cases processed
  · next padded padding32 =>
      split at processed
      · cases processed
      · next enough =>
          split at processed
          · cases processed
          · next result inferred =>
              exact ⟨padded, result, padding32, by omega, inferred, processed⟩

/-- A padded image with a buffer of its size, where the source's dimensions leave room for
the border. -/
theorem decodedImage_padded (valid : DecodedImage decoded) {padded : ImagePixels}
    (padding32 : padImage32 decoded defaultUpscalerPadding = .ok padded)
    (widthLt : decoded.width < 2 ^ 30) (heightLt : decoded.height < 2 ^ 30)
    (enough : padded.width * padded.height * 3 ≤ padded.pixels.length) :
    DecodedImage padded ∧
      padded.width = paddedSize decoded.width defaultUpscalerPadding ∧
      padded.height = paddedSize decoded.height defaultUpscalerPadding := by
  have widthPos := valid.width_pos
  have heightPos := valid.height_pos
  have extent {size : Int} (sizePos : 1 ≤ size) (sizeLt : size < 2 ^ 30) :
      paddedSize32 size defaultUpscalerPadding = paddedSize size defaultUpscalerPadding ∧
        1 ≤ paddedSize size defaultUpscalerPadding := by
    have wide := paddedSize_eq size defaultUpscalerPadding
    simp only [defaultUpscalerPadding] at wide ⊢
    rw [paddedSize32, int32_eq_self (by omega) (by omega), wide]
    refine ⟨?_, by omega⟩
    rw [← wide, paddedSize]
  rcases padImage32_length valid.toComplete (by decide) padding32 with
    ⟨widthEq, heightEq, channelsEq, sizeEq⟩
  rcases extent widthPos widthLt with ⟨width32, paddedWidthPos⟩
  rcases extent heightPos heightLt with ⟨height32, paddedHeightPos⟩
  rw [width32] at widthEq
  rw [height32] at heightEq
  rw [valid.rgb] at channelsEq sizeEq
  have area : 0 ≤ padded.width * padded.height := Int.mul_nonneg (by omega) (by omega)
  have computed := int32_lt (padded.width * padded.height * 3)
  have same : int32 (padded.width * padded.height * 3) = padded.width * padded.height * 3 :=
    int32_eq_self (by omega) (by omega)
  refine ⟨⟨⟨by omega, by omega, by omega, ?_⟩, channelsEq⟩, widthEq, heightEq⟩
  rw [sizeEq, same, channelsEq]

/-- An image of the scaled size is returned only for a result that fits. -/
theorem small_of_cancels (valid : DecodedImage decoded) (scalePos : 1 ≤ scale) {radius : Nat}
    {kernel : Kernel radius Pixel} (isLocal : IsLocal infer kernel scale)
    (cancels : CancelsPadding infer kernel scale decoded) :
    resultBytes scale decoded < 2 ^ 31 := by
  rcases cancels with ⟨encoded, processed, encodedWidth, encodedHeight, encodedSize, _⟩
  rcases processImage32_ok processed with
    ⟨padded, result, padding32, enough, inferred, cropped⟩
  rcases cropResult32_small cropped with ⟨resultSmall, encodedSmall⟩
  have widthPos := valid.width_pos
  have heightPos := valid.height_pos
  have scaledWidth : decoded.width ≤ scale * decoded.width :=
    le_mul_of_one_le_left (by omega) scalePos
  have scaledHeight : decoded.height ≤ scale * decoded.height :=
    le_mul_of_one_le_left (by omega) scalePos
  have widthLe : scale * decoded.width ≤ scale * decoded.width * (scale * decoded.height) :=
    le_mul_of_one_le_right (by omega) (by omega)
  have heightLe : scale * decoded.height ≤ scale * decoded.width * (scale * decoded.height) :=
    le_mul_of_one_le_left (by omega) (by omega)
  rw [encodedSize, encodedWidth, encodedHeight] at encodedSmall
  rcases decodedImage_padded valid padding32 (by omega) (by omega) enough with
    ⟨paddedValid, widthEq, heightEq⟩
  rcases isLocal padded paddedValid with ⟨other, otherEq, wEq, hEq, _⟩
  rw [inferred] at otherEq
  cases otherEq
  rw [wEq, hEq, widthEq, heightEq] at resultSmall
  exact resultSmall

/-- Padding and cropping cancel, for a local network of radius at most the padding,
exactly when the result of inference has fewer than `2 ^ 31` bytes: then `process_image`
returns the image that the network's kernel computes from the edge replication of the
source, without a shift and whatever the parities of the sizes. -/
theorem cancels_padding_iff (valid : DecodedImage decoded) (scalePos : 1 ≤ scale)
    {radius : Nat} (radiusLe : radius ≤ 18) {kernel : Kernel radius Pixel}
    (isLocal : IsLocal infer kernel scale) :
    CancelsPadding infer kernel scale decoded ↔ resultBytes scale decoded < 2 ^ 31 := by
  constructor
  · exact small_of_cancels valid scalePos isLocal
  · intro small
    rcases processImage_local valid scalePos radiusLe isLocal with
      ⟨pixels, processed, pixelsLength, pixelsAt⟩
    rw [← processImage32_eq valid scalePos isLocal small] at processed
    exact ⟨_, processed, Int.mul_comm .., Int.mul_comm .., pixelsLength, pixelsAt⟩

/-- The network that shows each pixel's left neighbour, on an image of one pixel. -/
theorem cancels_padding_iff_one :
    CancelsPadding leftNeighbours (fun _ _ (window : Window 1 Pixel) => window 1 0) 2
        ⟨1, 1, 3, [1, 2, 3]⟩ ↔
      resultBytes 2 ⟨1, 1, 3, [1, 2, 3]⟩ < 2 ^ 31 :=
  cancels_padding_iff ⟨⟨by decide, by decide, by decide, by decide⟩, by decide⟩ (by decide)
    (by decide) leftNeighbours_isLocal

/-- That network on a page of 13400 by 13400 pixels, which the decoder lets through: the
result of inference has 2166313152 bytes, and `process_image` returns false. -/
theorem large_page_lost :
    let page : ImagePixels := ⟨13400, 13400, 3, List.replicate 538680000 0⟩
    let kernel : Kernel 1 Pixel := fun _ _ window => window 1 0
    (DecodedImage page ∧ page.width ≤ 2 ^ 24 ∧ page.width * page.height * 3 < 2 ^ 31) ∧
      IsLocal leftNeighbours kernel 2 ∧ resultBytes 2 page = 2166313152 ∧
      processImage32 leftNeighbours 2 page = .error .failed ∧
      ¬CancelsPadding leftNeighbours kernel 2 page := by
  intro page kernel
  have valid : DecodedImage page :=
    ⟨⟨by decide, by decide, by decide, by simp only [page, List.length_replicate]; decide⟩, rfl⟩
  have failed : processImage32 leftNeighbours 2 page = .error .failed :=
    processImage32_fails valid leftNeighbours_isLocal (by decide) (by decide)
  refine ⟨⟨valid, by decide, by decide⟩, leftNeighbours_isLocal, by decide, failed, ?_⟩
  intro cancels
  rcases cancels with ⟨encoded, processed, _⟩
  rw [failed] at processed
  cases processed

end NcnnUpscaler.Image
