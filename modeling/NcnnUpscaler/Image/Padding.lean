import NcnnUpscaler.Library.LocalFilter
import NcnnUpscaler.Tiling.Tiles

/-!
# pad_image

`image_padding.hpp`: an image with a border of replicated edge pixels, with even
dimensions.  Rows are filled by block copies, as there; sizes are unbounded integers,
and `Image.Wrapping` has them as the machine's.
-/

namespace NcnnUpscaler.Image

open Raster Tiling

/-- `kDefaultUpscalerPadding`. -/
def defaultUpscalerPadding : Int := 18

/-- `n & ~1`. -/
def clearLowBit (n : Int) : Int := n - n % 2

/-- `padded.width` and `padded.height`, from the source's. -/
def paddedSize (size padding : Int) : Int := clearLowBit (size + padding * 2 + 1)

/-- `src_y`. -/
def sourceRow (src : ImagePixels) (padding y : Int) : Int :=
  LocalFilter.clamp src.height (y - padding)

/-- The `memcpy` calls for one row of the padded image: the left padding, the source
row and the right padding. -/
def rowCopies (src : ImagePixels) (padding : Int) (y : Nat) : List Copy :=
  let ch := src.channels
  let srcRowBytes := src.width * ch
  let dstRowBytes := paddedSize src.width padding * ch
  let dstRow := y * dstRowBytes
  let srcRow := sourceRow src padding y * srcRowBytes
  let rightPx := srcRow + (src.width - 1) * ch
  ((List.range padding.toNat).map fun x : Nat =>
      { dst := dstRow + x * ch, src := srcRow, len := ch }) ++
    { dst := dstRow + padding * ch, src := srcRow, len := srcRowBytes } ::
      (List.range padding.toNat).map fun x : Nat =>
        { dst := dstRow + (padding + src.width + x) * ch, src := rightPx, len := ch }

/-- All `memcpy` calls, row by row. -/
def padCopies (src : ImagePixels) (padding : Int) : List Copy :=
  (List.range (paddedSize src.height padding).toNat).flatMap (rowCopies src padding)

/-- `pad_image`, with sizes that do not overflow; `padImage32` is the same on machine
integers. -/
def padImage (src : ImagePixels) (padding : Int) : Except Stop ImagePixels :=
  if src.width ≤ 0 ∨ src.height ≤ 0 ∨ padding ≤ 0 then
    .ok src
  else
    let width := paddedSize src.width padding
    let height := paddedSize src.height padding
    match allocate (width * height * src.channels) with
    | .error stop => .error stop
    | .ok buffer =>
        match copyRows (padCopies src padding) buffer src.pixels with
        | .error stop => .error stop
        | .ok pixels => .ok { width, height, channels := src.channels, pixels }

/-- The byte of a channel of the pixel at column `x` and row `y`. -/
def byteAt (image : ImagePixels) (x y channel : Int) : UInt8 :=
  get image.pixels ((y * image.width + x) * image.channels + channel)

/-- A nonempty image with a buffer of its size. -/
structure Complete (image : ImagePixels) : Prop where
  width_pos : 1 ≤ image.width
  height_pos : 1 ≤ image.height
  channels_pos : 1 ≤ image.channels
  size_eq : (image.pixels.length : Int) = image.width * image.height * image.channels

/-! ## Sizes -/

theorem paddedSize_even (size padding : Int) : paddedSize size padding % 2 = 0 := by
  simp only [paddedSize, clearLowBit]
  omega

theorem paddedSize_eq (size padding : Int) :
    paddedSize size padding = size + 2 * padding + size % 2 := by
  simp only [paddedSize, clearLowBit]
  omega

/-! ## The copies of a row -/

/-- Columns of the padded image that one copy fills, and the first column of the source
it takes them from. -/
structure Segment where
  column : Int
  extent : Int
  sourceColumn : Int

/-- The segments of a row: the left padding pixel by pixel, the source row, and the
right padding pixel by pixel. -/
def segments (src : ImagePixels) (padding : Int) : List Segment :=
  ((List.range padding.toNat).map fun x : Nat => ⟨x, 1, 0⟩) ++
    ⟨padding, src.width, 0⟩ ::
      (List.range padding.toNat).map fun x : Nat => ⟨padding + src.width + x, 1, src.width - 1⟩

/-- The copy of a segment into a row of the padded image. -/
def segmentCopy (src : ImagePixels) (padding y : Int) (segment : Segment) : Copy :=
  { dst := (y * paddedSize src.width padding + segment.column) * src.channels
    src := (sourceRow src padding y * src.width + segment.sourceColumn) * src.channels
    len := segment.extent * src.channels }

theorem rowCopies_eq (src : ImagePixels) (padding : Int) (y : Nat) :
    rowCopies src padding y = (segments src padding).map (segmentCopy src padding y) := by
  simp only [rowCopies, segments, List.map_append, List.map_cons, List.map_map]
  congr 1
  · apply List.map_congr_left
    intro x _
    simp only [Function.comp_apply, segmentCopy, Copy.mk.injEq]
    refine ⟨?_, ?_, ?_⟩ <;> ring
  · congr 1
    · simp only [segmentCopy, Copy.mk.injEq, and_true]
      refine ⟨?_, ?_⟩ <;> ring
    · apply List.map_congr_left
      intro x _
      simp only [Function.comp_apply, segmentCopy, Copy.mk.injEq]
      refine ⟨?_, ?_, ?_⟩ <;> ring

/-- The segment lies inside its rows, and each of its columns is taken from the source
column nearest to it. -/
structure Segment.Replicates (src : ImagePixels) (padding : Int) (segment : Segment) : Prop where
  column_nonneg : 0 ≤ segment.column
  extent_pos : 0 < segment.extent
  column_le : segment.column + segment.extent ≤ src.width + 2 * padding
  source_nonneg : 0 ≤ segment.sourceColumn
  source_le : segment.sourceColumn + segment.extent ≤ src.width
  nearest : ∀ x, segment.column ≤ x → x < segment.column + segment.extent →
    LocalFilter.clamp src.width (x - padding) = segment.sourceColumn + (x - segment.column)

variable {src : ImagePixels} {padding : Int} {segment : Segment}

theorem replicates_of_mem (widthPos : 1 ≤ src.width) (paddingPos : 1 ≤ padding)
    (member : segment ∈ segments src padding) : segment.Replicates src padding := by
  simp only [segments, List.mem_append, List.mem_cons, List.mem_map, List.mem_range] at member
  rcases member with ⟨x, xLt, segmentEq⟩ | segmentEq | ⟨x, xLt, segmentEq⟩
  · subst segmentEq
    refine ⟨by simp, by simp, by simp only; omega, by simp, by simp only; omega, ?_⟩
    intro column _ _
    simp only [LocalFilter.clamp] at *
    omega
  · subst segmentEq
    refine ⟨by simp only; omega, by simp only; omega, by simp only; omega, by simp,
      by simp, ?_⟩
    intro column _ _
    simp only [LocalFilter.clamp] at *
    omega
  · subst segmentEq
    refine ⟨by simp only; omega, by simp, by simp only; omega, by simp only; omega, by simp, ?_⟩
    intro column _ _
    simp only [LocalFilter.clamp] at *
    omega

/-- Every column of a row is in one of its segments, but the column that rounding the
width adds. -/
theorem exists_segment {x : Int} (xNonneg : 0 ≤ x) (xLt : x < src.width + 2 * padding) :
    ∃ segment ∈ segments src padding,
      segment.column ≤ x ∧ x < segment.column + segment.extent := by
  simp only [segments, List.mem_append, List.mem_cons, List.mem_map, List.mem_range]
  by_cases left : x < padding
  · refine ⟨_, .inl ⟨x.toNat, by omega, rfl⟩, ?_⟩
    simp only
    omega
  · by_cases center : x < padding + src.width
    · refine ⟨_, .inr (.inl rfl), ?_⟩
      simp only
      omega
    · refine ⟨_, .inr (.inr ⟨(x - padding - src.width).toNat, by omega, rfl⟩), ?_⟩
      simp only
      omega

/-- A copy writes one row of the padded image and reads the row of the source that
belongs to it. -/
structure InRow (src : ImagePixels) (padding y : Int) (copy : Copy) : Prop where
  dst_ge : y * (paddedSize src.width padding * src.channels) ≤ copy.dst
  dst_le : copy.dst + copy.len ≤ (y + 1) * (paddedSize src.width padding * src.channels)
  src_ge : sourceRow src padding y * (src.width * src.channels) ≤ copy.src
  src_le : copy.src + copy.len ≤
    (sourceRow src padding y + 1) * (src.width * src.channels)

theorem Segment.Replicates.inRow (replicates : segment.Replicates src padding)
    (channelsPos : 1 ≤ src.channels) (y : Int) :
    InRow src padding y (segmentCopy src padding y segment) := by
  rcases replicates with ⟨columnNonneg, extentPos, columnLe, sourceNonneg, sourceLe, _⟩
  have wide := paddedSize_eq src.width padding
  have inPadded : segment.column + segment.extent ≤ paddedSize src.width padding := by omega
  constructor
  · simp only [segmentCopy]
    nlinarith
  · simp only [segmentCopy]
    nlinarith
  · simp only [segmentCopy]
    nlinarith
  · simp only [segmentCopy]
    nlinarith

/-- What the copy of a segment writes to a pixel: the source pixel nearest to it. -/
theorem Segment.Replicates.get_eq {x y channel : Int} (replicates : segment.Replicates src padding)
    (lower : segment.column ≤ x) (upper : x < segment.column + segment.extent) :
    Raster.get src.pixels
        ((y * paddedSize src.width padding + x) * src.channels + channel -
            (segmentCopy src padding y segment).dst + (segmentCopy src padding y segment).src) =
      byteAt src (LocalFilter.clamp src.width (x - padding)) (sourceRow src padding y)
        channel := by
  simp only [byteAt, segmentCopy, replicates.nearest x lower upper]
  apply congrArg (Raster.get src.pixels)
  ring

/-- The copy of a segment covers the channels of the pixels of its columns. -/
theorem Segment.Replicates.covers_iff {x y row channel : Int}
    (replicates : segment.Replicates src padding) (xNonneg : 0 ≤ x)
    (xLt : x < paddedSize src.width padding) (channelNonneg : 0 ≤ channel)
    (channelLt : channel < src.channels) :
    (segmentCopy src padding row segment).Covers
        ((y * paddedSize src.width padding + x) * src.channels + channel) ↔
      y = row ∧ segment.column ≤ x ∧ x < segment.column + segment.extent := by
  have channelsEq : src.channels = (src.channels.toNat : Int) :=
    (Int.toNat_of_nonneg (by omega)).symm
  have channelEq : (channel.toNat : Int) = channel := Int.toNat_of_nonneg channelNonneg
  have wide := paddedSize_eq src.width padding
  have columnLe := replicates.column_le
  have inRow : segment.column + segment.extent ≤ paddedSize src.width padding := by omega
  have inRange : channel.toNat < src.channels.toNat := by omega
  have covers := @segment_covers_iff src.channels.toNat _ x y row _ _ ⟨channel.toNat, inRange⟩
    xNonneg xLt replicates.column_nonneg inRow
    ((sourceRow src padding row * src.width + segment.sourceColumn) * src.channels)
  rw [← channelsEq, channelEq] at covers
  exact covers

/-! ## The padded image -/

theorem mem_rowCopies {y : Nat} {copy : Copy} :
    copy ∈ rowCopies src padding y ↔
      ∃ segment ∈ segments src padding, segmentCopy src padding y segment = copy := by
  rw [rowCopies_eq, List.mem_map]

theorem mem_padCopies {copy : Copy} :
    copy ∈ padCopies src padding ↔
      ∃ y : Nat, (y : Int) < paddedSize src.height padding ∧ copy ∈ rowCopies src padding y := by
  simp only [padCopies, List.mem_flatMap, List.mem_range]
  constructor
  · intro inside
    rcases inside with ⟨y, yLt, member⟩
    exact ⟨y, by omega, member⟩
  · intro inside
    rcases inside with ⟨y, yLt, member⟩
    exact ⟨y, by omega, member⟩

section Complete

variable (complete : Complete src) (paddingPos : 1 ≤ padding)
include complete paddingPos

/-- Every copy stays inside a row of the padded image and a row of the source. -/
theorem inRow_of_mem {y : Nat} {copy : Copy} (member : copy ∈ rowCopies src padding y) :
    InRow src padding y copy := by
  rcases mem_rowCopies.mp member with ⟨segment, inSegments, copyEq⟩
  rw [← copyEq]
  exact (replicates_of_mem complete.width_pos paddingPos inSegments).inRow
    complete.channels_pos y

theorem padCopies_inBounds {size : Nat}
    (sizeEq : (size : Int) =
      paddedSize src.width padding * paddedSize src.height padding * src.channels) :
    ∀ copy ∈ padCopies src padding, copy.InBounds size src.pixels.length := by
  intro copy member
  rcases mem_padCopies.mp member with ⟨y, yLt, inRow⟩
  rcases mem_rowCopies.mp inRow with ⟨segment, inSegments, copyEq⟩
  have replicates := replicates_of_mem complete.width_pos paddingPos inSegments
  rcases inRow_of_mem complete paddingPos inRow with ⟨dstGe, dstLe, srcGe, srcLe⟩
  rcases complete with ⟨widthPos, heightPos, channelsPos, srcSize⟩
  have row := LocalFilter.clamp_mem (y - padding : Int) (by omega : 0 < src.height)
  have wide := paddedSize_eq src.width padding
  have dstRow : 0 ≤ paddedSize src.width padding * src.channels :=
    Int.mul_nonneg (by omega) (by omega)
  have srcRow : 0 ≤ src.width * src.channels := Int.mul_nonneg (by omega) (by omega)
  have dstRows : ((y : Int) + 1) * (paddedSize src.width padding * src.channels) ≤
      paddedSize src.height padding * (paddedSize src.width padding * src.channels) :=
    Int.mul_le_mul_of_nonneg_right yLt dstRow
  have srcRows : (sourceRow src padding y + 1) * (src.width * src.channels) ≤
      src.height * (src.width * src.channels) :=
    Int.mul_le_mul_of_nonneg_right row.2 srcRow
  constructor
  · rw [← copyEq]
    exact Int.mul_nonneg (Int.le_of_lt replicates.extent_pos) (by omega)
  · exact Int.le_trans (Int.mul_nonneg (Int.natCast_nonneg y) dstRow) dstGe
  · rw [sizeEq, Int.mul_comm (paddedSize src.width padding), Int.mul_assoc]
    exact Int.le_trans dstLe dstRows
  · exact Int.le_trans (Int.mul_nonneg row.1 srcRow) srcGe
  · rw [srcSize, Int.mul_comm src.width, Int.mul_assoc]
    exact Int.le_trans srcLe srcRows

variable {x y channel : Int} (xNonneg : 0 ≤ x) (xLt : x < paddedSize src.width padding)
  (channelNonneg : 0 ≤ channel) (channelLt : channel < src.channels)
include xNonneg xLt channelNonneg channelLt

/-- Whatever copy covers a channel writes the one of the nearest source pixel. -/
theorem padCopies_agree : ∀ copy ∈ padCopies src padding,
    copy.Covers ((y * paddedSize src.width padding + x) * src.channels + channel) →
      Raster.get src.pixels
          ((y * paddedSize src.width padding + x) * src.channels + channel - copy.dst +
            copy.src) =
        byteAt src (LocalFilter.clamp src.width (x - padding))
          (LocalFilter.clamp src.height (y - padding)) channel := by
  intro copy member covers
  rcases mem_padCopies.mp member with ⟨row, _, inRow⟩
  rcases mem_rowCopies.mp inRow with ⟨segment, inSegments, copyEq⟩
  have replicates := replicates_of_mem complete.width_pos paddingPos inSegments
  subst copyEq
  rcases (replicates.covers_iff xNonneg xLt channelNonneg channelLt).mp covers with
    ⟨rowEq, lower, upper⟩
  subst rowEq
  exact replicates.get_eq lower upper

/-- The copies cover every column but the one that rounding the width adds. -/
theorem padCopies_cover_iff (yNonneg : 0 ≤ y) (yLt : y < paddedSize src.height padding) :
    (∃ copy ∈ padCopies src padding,
        copy.Covers ((y * paddedSize src.width padding + x) * src.channels + channel)) ↔
      x < src.width + 2 * padding := by
  constructor
  · intro covered
    rcases covered with ⟨copy, member, covers⟩
    rcases mem_padCopies.mp member with ⟨row, _, inRow⟩
    rcases mem_rowCopies.mp inRow with ⟨segment, inSegments, copyEq⟩
    have replicates := replicates_of_mem complete.width_pos paddingPos inSegments
    subst copyEq
    have inside := (replicates.covers_iff xNonneg xLt channelNonneg channelLt).mp covers
    have columnLe := replicates.column_le
    omega
  · intro inside
    rcases exists_segment xNonneg inside with ⟨segment, inSegments, lower, upper⟩
    have replicates := replicates_of_mem complete.width_pos paddingPos inSegments
    have rowEq : y = (y.toNat : Int) := (Int.toNat_of_nonneg yNonneg).symm
    refine ⟨segmentCopy src padding y.toNat segment, ?_, ?_⟩
    · refine mem_padCopies.mpr ⟨y.toNat, by omega, mem_rowCopies.mpr ⟨segment, inSegments, rfl⟩⟩
    · exact (replicates.covers_iff xNonneg xLt channelNonneg channelLt).mpr
        ⟨rowEq, lower, upper⟩

end Complete

/-- The padded image: every pixel is the source pixel nearest to it, but for a column of
zeros that rounding the width adds. -/
theorem padImage_eq (complete : Complete src) (paddingPos : 1 ≤ padding) :
    ∃ padded, padImage src padding = .ok padded ∧
      padded.width = paddedSize src.width padding ∧
      padded.height = paddedSize src.height padding ∧ padded.channels = src.channels ∧
      (padded.pixels.length : Int) = padded.width * padded.height * padded.channels ∧
      ∀ x y channel, 0 ≤ x → x < padded.width → 0 ≤ y → y < padded.height → 0 ≤ channel →
        channel < src.channels → byteAt padded x y channel =
          if x < src.width + 2 * padding then
            byteAt src (LocalFilter.clamp src.width (x - padding))
              (LocalFilter.clamp src.height (y - padding)) channel
          else 0 := by
  have widthPos := complete.width_pos
  have heightPos := complete.height_pos
  have channelsPos := complete.channels_pos
  have wide := paddedSize_eq src.width padding
  have high := paddedSize_eq src.height padding
  have padded : ¬(src.width ≤ 0 ∨ src.height ≤ 0 ∨ padding ≤ 0) := by omega
  have area : 0 ≤ paddedSize src.width padding * paddedSize src.height padding *
      src.channels :=
    Int.mul_nonneg (Int.mul_nonneg (by omega) (by omega)) (by omega)
  rcases allocate_ok area with ⟨buffer, allocateEq, bufferLength⟩
  rcases runAll_of_inBounds (padCopies_inBounds complete paddingPos bufferLength) with
    ⟨pixels, runEq, pixelsLength, pixelsGet⟩
  refine ⟨⟨paddedSize src.width padding, paddedSize src.height padding, src.channels, pixels⟩,
    ?_, rfl, rfl, rfl, ?_, ?_⟩
  · simp only [padImage, if_neg padded, allocateEq, copyRows, runEq]
  · simp only [pixelsLength, bufferLength]
  · intro x y channel xNonneg xLt yNonneg yLt channelNonneg channelLt
    have rowNonneg : 0 ≤ y * paddedSize src.width padding := Int.mul_nonneg yNonneg (by omega)
    have pixelNonneg : 0 ≤ (y * paddedSize src.width padding + x) * src.channels :=
      Int.mul_nonneg (by omega) (by omega)
    have written := pixelsGet _ _
      (Int.add_nonneg pixelNonneg channelNonneg)
      (padCopies_agree (y := y) complete paddingPos xNonneg xLt channelNonneg channelLt)
    simp only [padCopies_cover_iff complete paddingPos xNonneg xLt channelNonneg channelLt
      yNonneg yLt, get_allocate allocateEq] at written
    exact written

end NcnnUpscaler.Image
