import Mathlib.Algebra.Order.Ring.Int
import Mathlib.Tactic.Linarith
import Mathlib.Tactic.Ring

/-!
# Block copies between row-major rasters

A buffer is a list of elements.  A block copy moves a range of one buffer over a
range of another and fails when either range leaves its buffer.  A raster is a
buffer read as rows of pixels of a fixed number of channels; a rectangle of it is
copied row by row, and what such a copy does is stated pixel by pixel.
-/

namespace Raster

variable {α : Type}

/-- The element at an offset, or the default outside the buffer. -/
def get [Inhabited α] (buffer : List α) (offset : Int) : α :=
  buffer.getD offset.toNat default

/-! ## Block copies -/

/-- The arguments of one block copy, as offsets from the two buffers. -/
structure Copy where
  dst : Int
  src : Int
  len : Int
  deriving DecidableEq, Repr

namespace Copy

/-- Both ranges lie inside their buffers. -/
structure InBounds (copy : Copy) (dstSize srcSize : Nat) : Prop where
  len_nonneg : 0 ≤ copy.len
  dst_nonneg : 0 ≤ copy.dst
  dst_le : copy.dst + copy.len ≤ dstSize
  src_nonneg : 0 ≤ copy.src
  src_le : copy.src + copy.len ≤ srcSize

instance (copy : Copy) (dstSize srcSize : Nat) : Decidable (copy.InBounds dstSize srcSize) :=
  decidable_of_iff
    (0 ≤ copy.len ∧ 0 ≤ copy.dst ∧ copy.dst + copy.len ≤ dstSize ∧ 0 ≤ copy.src ∧
      copy.src + copy.len ≤ srcSize)
    ⟨fun ⟨len, dst, dstLe, src, srcLe⟩ => ⟨len, dst, dstLe, src, srcLe⟩,
      fun ⟨len, dst, dstLe, src, srcLe⟩ => ⟨len, dst, dstLe, src, srcLe⟩⟩

/-- The copy writes the element at an offset of its destination. -/
def Covers (copy : Copy) (offset : Int) : Prop :=
  copy.dst ≤ offset ∧ offset < copy.dst + copy.len

instance (copy : Copy) (offset : Int) : Decidable (copy.Covers offset) :=
  inferInstanceAs (Decidable (_ ∧ _))

/-- The destination after the copy; `none` when a range leaves its buffer. -/
def run (copy : Copy) (dst src : List α) : Option (List α) :=
  if copy.InBounds dst.length src.length then
    some (dst.take copy.dst.toNat ++ (src.drop copy.src.toNat).take copy.len.toNat ++
      dst.drop (copy.dst + copy.len).toNat)
  else
    none

/-- A copy inside its buffers replaces exactly the range it covers. -/
theorem run_of_inBounds [Inhabited α] {copy : Copy} {dst src : List α}
    (inBounds : copy.InBounds dst.length src.length) :
    ∃ out, copy.run dst src = some out ∧ out.length = dst.length ∧
      ∀ offset, 0 ≤ offset → get out offset =
        if copy.Covers offset then get src (offset - copy.dst + copy.src)
        else get dst offset := by
  refine ⟨_, if_pos inBounds, ?_, ?_⟩
  · rcases inBounds with ⟨_, _, _, _, _⟩
    simp only [List.length_append, List.length_take, List.length_drop]
    omega
  · rcases inBounds with ⟨_, _, _, _, _⟩
    intro offset nonneg
    have headLength : (dst.take copy.dst.toNat).length = copy.dst.toNat := by
      rw [List.length_take]
      omega
    have middleLength : ((src.drop copy.src.toNat).take copy.len.toNat).length =
        copy.len.toNat := by
      rw [List.length_take, List.length_drop]
      omega
    simp only [get, List.getD_eq_getElem?_getD, Covers]
    rw [List.append_assoc]
    by_cases before : offset < copy.dst
    · rw [if_neg (by omega), List.getElem?_append_left (by omega), List.getElem?_take,
        if_pos (by omega)]
    · rw [List.getElem?_append_right (by omega), headLength]
      by_cases inside : offset < copy.dst + copy.len
      · rw [if_pos (by omega), List.getElem?_append_left (by omega), List.getElem?_take,
          if_pos (by omega), List.getElem?_drop]
        have position : copy.src.toNat + (offset.toNat - copy.dst.toNat) =
            (offset - copy.dst + copy.src).toNat := by omega
        rw [position]
      · rw [if_neg (by omega), List.getElem?_append_right (by omega), middleLength,
          List.getElem?_drop]
        have position : (copy.dst + copy.len).toNat +
            (offset.toNat - copy.dst.toNat - copy.len.toNat) = offset.toNat := by omega
        rw [position]

/-- A copy that succeeds lies inside its buffers. -/
theorem inBounds_of_run {copy : Copy} {dst src out : List α} (done : copy.run dst src = some out) :
    out.length = dst.length ∧ copy.InBounds dst.length src.length := by
  simp only [run] at done
  split at done
  · next inBounds =>
      cases done
      refine ⟨?_, inBounds⟩
      rcases inBounds with ⟨_, _, _, _, _⟩
      simp only [List.length_append, List.length_take, List.length_drop]
      omega
  · cases done

end Copy

/-- Copies from one buffer to another, one after the other. -/
def runAll (copies : List Copy) (dst src : List α) : Option (List α) :=
  copies.foldlM (fun buffer copy => copy.run buffer src) dst

theorem runAll_append (earlier later : List Copy) (dst src : List α) :
    runAll (earlier ++ later) dst src =
      (runAll earlier dst src).bind fun middle => runAll later middle src := by
  simp only [runAll, List.foldlM_append]
  rfl

theorem runAll_singleton (copy : Copy) (dst src : List α) :
    runAll [copy] dst src = copy.run dst src := by
  simp [runAll]

/-- Copies that succeed all lie inside their buffers. -/
theorem inBounds_of_runAll {copies : List Copy} {dst src out : List α}
    (done : runAll copies dst src = some out) :
    out.length = dst.length ∧ ∀ copy ∈ copies, copy.InBounds dst.length src.length := by
  induction copies generalizing dst with
  | nil =>
      simp only [runAll, List.foldlM_nil, Option.pure_def, Option.some.injEq] at done
      exact ⟨by rw [done], fun copy member => absurd member List.not_mem_nil⟩
  | cons first copies ih =>
      simp only [runAll, List.foldlM_cons, Option.bind_eq_bind, Option.bind_eq_some_iff] at done
      rcases done with ⟨middle, firstEq, rest⟩
      rcases Copy.inBounds_of_run firstEq with ⟨middleLength, firstInBounds⟩
      rcases ih rest with ⟨outLength, restInBounds⟩
      refine ⟨outLength.trans middleLength, ?_⟩
      intro copy member
      rcases List.mem_cons.mp member with same | later
      · rw [same]
        exact firstInBounds
      · rw [← middleLength]
        exact restInBounds copy later

/-- Copies inside their buffers: an element that some of them cover is what they write
there, if they agree on it, and any other is as it was. -/
theorem runAll_of_inBounds [Inhabited α] {copies : List Copy} {dst src : List α}
    (inBounds : ∀ copy ∈ copies, copy.InBounds dst.length src.length) :
    ∃ out, runAll copies dst src = some out ∧ out.length = dst.length ∧
      ∀ offset value, 0 ≤ offset →
        (∀ copy ∈ copies, copy.Covers offset →
          get src (offset - copy.dst + copy.src) = value) →
        get out offset =
          if ∃ copy ∈ copies, copy.Covers offset then value else get dst offset := by
  induction copies generalizing dst with
  | nil =>
      refine ⟨dst, rfl, rfl, ?_⟩
      intro offset value _ _
      rw [if_neg (by simp)]
  | cons copy copies ih =>
      rcases Copy.run_of_inBounds (inBounds copy List.mem_cons_self) with
        ⟨middle, runEq, middleLength, middleGet⟩
      have rest : ∀ other ∈ copies, other.InBounds middle.length src.length := by
        intro other member
        rw [middleLength]
        exact inBounds other (List.mem_cons_of_mem _ member)
      rcases ih rest with ⟨out, restEq, outLength, outGet⟩
      refine ⟨out, ?_, outLength.trans middleLength, ?_⟩
      · simp only [runAll, List.foldlM_cons, runEq, Option.bind_eq_bind, Option.bind_some]
        exact restEq
      · intro offset value nonneg agree
        have later := outGet offset value nonneg fun other member =>
          agree other (List.mem_cons_of_mem _ member)
        rw [later, middleGet offset nonneg]
        by_cases covered : ∃ other ∈ copies, other.Covers offset
        · rcases covered with ⟨other, member, covers⟩
          rw [if_pos ⟨other, member, covers⟩,
            if_pos ⟨other, List.mem_cons_of_mem _ member, covers⟩]
        · rw [if_neg covered]
          by_cases first : copy.Covers offset
          · rw [if_pos first, if_pos ⟨copy, List.mem_cons_self, first⟩]
            exact agree copy List.mem_cons_self first
          · rw [if_neg first, if_neg]
            intro found
            rcases found with ⟨other, member, covers⟩
            rcases List.mem_cons.mp member with same | inRest
            · exact first (same ▸ covers)
            · exact covered ⟨other, inRest, covers⟩

/-! ## Pixels -/

/-- The channels of the pixel at column `x` and row `y`. -/
def pixel [Inhabited α] (channels : Nat) (width : Int) (buffer : List α) (x y : Int) :
    Fin channels → α :=
  fun channel => get buffer ((y * width + x) * channels + channel.val)

/-- A rectangle to copy: its corners in both rasters and its extent. -/
structure Block where
  dstX : Int
  dstY : Int
  srcX : Int
  srcY : Int
  width : Int
  height : Int
  deriving DecidableEq, Repr

namespace Block

/-- The copies of a rectangle, one for each row. -/
def copies (block : Block) (channels : Nat) (dstWidth srcWidth : Int) : List Copy :=
  (List.range block.height.toNat).map fun row : Nat =>
    { dst := ((block.dstY + row) * dstWidth + block.dstX) * channels
      src := ((block.srcY + row) * srcWidth + block.srcX) * channels
      len := block.width * channels }

/-- The pixel of the destination lies in the rectangle. -/
def Contains (block : Block) (x y : Int) : Prop :=
  (block.dstX ≤ x ∧ x < block.dstX + block.width) ∧
    block.dstY ≤ y ∧ y < block.dstY + block.height

instance (block : Block) (x y : Int) : Decidable (block.Contains x y) :=
  inferInstanceAs (Decidable ((_ ∧ _) ∧ _ ∧ _))

/-- The rectangle lies inside both rasters. -/
structure Fits (block : Block) (channels : Nat) (dstWidth srcWidth : Int)
    (dstSize srcSize : Nat) : Prop where
  width_nonneg : 0 ≤ block.width
  height_nonneg : 0 ≤ block.height
  dstX_nonneg : 0 ≤ block.dstX
  dstX_le : block.dstX + block.width ≤ dstWidth
  dstY_nonneg : 0 ≤ block.dstY
  dstY_le : (block.dstY + block.height) * dstWidth * channels ≤ dstSize
  srcX_nonneg : 0 ≤ block.srcX
  srcX_le : block.srcX + block.width ≤ srcWidth
  srcY_nonneg : 0 ≤ block.srcY
  srcY_le : (block.srcY + block.height) * srcWidth * channels ≤ srcSize

end Block

/-- A position in a row-major raster lies in a segment of one row exactly when it
is in that row and between the segment's columns. -/
theorem index_mem_segment {width x y row left length : Int} (xNonneg : 0 ≤ x)
    (xLt : x < width) (leftNonneg : 0 ≤ left) (inRow : left + length ≤ width) :
    (row * width + left ≤ y * width + x ∧ y * width + x < row * width + left + length) ↔
      y = row ∧ left ≤ x ∧ x < left + length := by
  constructor
  · intro bounds
    rcases bounds with ⟨lower, upper⟩
    have notBelow : ¬y < row := by
      intro below
      nlinarith
    have notAbove : ¬row < y := by
      intro above
      nlinarith
    have same : y = row := by omega
    subst same
    exact ⟨rfl, by omega, by omega⟩
  · intro inRow
    rcases inRow with ⟨same, lower, upper⟩
    subst same
    exact ⟨by omega, by omega⟩

/-- Grouping elements into pixels does not change which of them a range of whole
pixels holds. -/
theorem channel_mem_range {channels : Nat} {position start length : Int}
    (channel : Fin channels) :
    (start * channels ≤ position * channels + channel.val ∧
        position * channels + channel.val < start * channels + length * channels) ↔
      start ≤ position ∧ position < start + length := by
  have channelLt : (channel.val : Int) < channels := by exact_mod_cast channel.isLt
  have channelNonneg : (0 : Int) ≤ channel.val := Int.natCast_nonneg _
  constructor
  · intro bounds
    rcases bounds with ⟨lower, upper⟩
    constructor
    · by_contra below
      nlinarith
    · by_contra above
      nlinarith
  · intro bounds
    rcases bounds with ⟨lower, upper⟩
    constructor
    · nlinarith
    · nlinarith

/-- A copy of whole pixels inside one row covers exactly the channels of these. -/
theorem segment_covers_iff {channels : Nat} {width x y row left length : Int}
    (channel : Fin channels) (xNonneg : 0 ≤ x) (xLt : x < width) (leftNonneg : 0 ≤ left)
    (inRow : left + length ≤ width) (src : Int) :
    Copy.Covers
        { dst := (row * width + left) * channels, src, len := length * channels }
        ((y * width + x) * channels + channel.val) ↔
      y = row ∧ left ≤ x ∧ x < left + length := by
  simp only [Copy.Covers]
  rw [channel_mem_range, index_mem_segment xNonneg xLt leftNonneg inRow]

namespace Block

variable {block : Block} {channels : Nat} {dstWidth srcWidth : Int}

/-- The rows of a rectangle cover exactly the channels of its pixels. -/
theorem row_covers_iff {x y row : Int} (channel : Fin channels) (xNonneg : 0 ≤ x)
    (xLt : x < dstWidth) (leftNonneg : 0 ≤ block.dstX)
    (inRow : block.dstX + block.width ≤ dstWidth) (src : Int) :
    Copy.Covers
        { dst := ((block.dstY + row) * dstWidth + block.dstX) * channels, src
          len := block.width * channels }
        ((y * dstWidth + x) * channels + channel.val) ↔
      y = block.dstY + row ∧ block.dstX ≤ x ∧ x < block.dstX + block.width :=
  segment_covers_iff channel xNonneg xLt leftNonneg inRow src

theorem exists_covers_iff {x y : Int} (channel : Fin channels) (xNonneg : 0 ≤ x)
    (xLt : x < dstWidth) (leftNonneg : 0 ≤ block.dstX)
    (inRow : block.dstX + block.width ≤ dstWidth) :
    (∃ copy ∈ block.copies channels dstWidth srcWidth,
        copy.Covers ((y * dstWidth + x) * channels + channel.val)) ↔
      block.Contains x y := by
  simp only [copies, List.mem_map, List.mem_range, Contains]
  constructor
  · intro covered
    rcases covered with ⟨copy, ⟨row, rowLt, copyEq⟩, covers⟩
    subst copyEq
    rcases (row_covers_iff channel xNonneg xLt leftNonneg inRow _).mp covers with
      ⟨rowEq, lower, upper⟩
    omega
  · intro inside
    rcases inside with ⟨⟨lower, upper⟩, top, bottom⟩
    refine ⟨_, ⟨(y - block.dstY).toNat, by omega, rfl⟩, ?_⟩
    exact (row_covers_iff channel xNonneg xLt leftNonneg inRow _).mpr
      ⟨by omega, lower, upper⟩

theorem pixel_index_nonneg {width x y : Int} (channel : Fin channels) (xNonneg : 0 ≤ x)
    (xLt : x < width) (yNonneg : 0 ≤ y) : 0 ≤ (y * width + x) * channels + channel.val := by
  have widthNonneg : 0 ≤ width := by omega
  positivity

/-- A segment of a row above `rows` ends before row `rows` begins. -/
theorem segment_end_le {width row rows left length : Int} {size : Nat} (left_nonneg : 0 ≤ left)
    (length_nonneg : 0 ≤ length) (inRow : left + length ≤ width) (above : row < rows)
    (fits : rows * width * channels ≤ size) :
    (row * width + left) * channels + length * channels ≤ size := by
  have rowEnd : row * width + left + length ≤ rows * width := by nlinarith
  have channelsNonneg : (0 : Int) ≤ channels := Int.natCast_nonneg channels
  calc (row * width + left) * channels + length * channels
      = (row * width + left + length) * channels := by ring
    _ ≤ rows * width * channels := Int.mul_le_mul_of_nonneg_right rowEnd channelsNonneg
    _ ≤ size := fits

theorem segment_start_nonneg {width row left : Int} (rowNonneg : 0 ≤ row)
    (widthNonneg : 0 ≤ width) (leftNonneg : 0 ≤ left) :
    0 ≤ (row * width + left) * (channels : Int) := by positivity

variable {dst src : List α}

theorem row_inBounds (fits : block.Fits channels dstWidth srcWidth dst.length src.length)
    {row : Nat} (rowLt : (row : Int) < block.height) :
    Copy.InBounds
      { dst := ((block.dstY + row) * dstWidth + block.dstX) * channels
        src := ((block.srcY + row) * srcWidth + block.srcX) * channels
        len := block.width * channels } dst.length src.length := by
  rcases fits with ⟨width, _, dstX, dstXLe, dstY, dstYLe, srcX, srcXLe, srcY, srcYLe⟩
  have rowNonneg : (0 : Int) ≤ row := Int.natCast_nonneg row
  constructor
  · simp only
    positivity
  · exact segment_start_nonneg (by omega) (by omega) dstX
  · exact segment_end_le dstX width dstXLe (by omega) dstYLe
  · exact segment_start_nonneg (by omega) (by omega) srcX
  · exact segment_end_le srcX width srcXLe (by omega) srcYLe

variable [Inhabited α]

/-- Copying a rectangle that lies inside both rasters gives each pixel of the
rectangle its source pixel and leaves every other pixel as it was. -/
theorem run_copies (fits : block.Fits channels dstWidth srcWidth dst.length src.length) :
    ∃ out, runAll (block.copies channels dstWidth srcWidth) dst src = some out ∧
      out.length = dst.length ∧
      ∀ x y, 0 ≤ x → x < dstWidth → 0 ≤ y → pixel channels dstWidth out x y =
        if block.Contains x y then
          pixel channels srcWidth src (x - block.dstX + block.srcX) (y - block.dstY + block.srcY)
        else pixel channels dstWidth dst x y := by
  have rows (count : Nat) (countLe : (count : Int) ≤ block.height) :
      ∃ out, runAll ({ block with height := count }.copies channels dstWidth srcWidth) dst src =
          some out ∧ out.length = dst.length ∧
        ∀ x y, 0 ≤ x → x < dstWidth → 0 ≤ y → pixel channels dstWidth out x y =
          if Contains { block with height := count } x y then
            pixel channels srcWidth src (x - block.dstX + block.srcX)
              (y - block.dstY + block.srcY)
          else pixel channels dstWidth dst x y := by
    induction count with
    | zero =>
        refine ⟨dst, rfl, rfl, ?_⟩
        intro x y _ _ _
        rw [if_neg]
        intro contains
        simp only [Contains, Int.natCast_zero] at contains
        omega
    | succ count ih =>
        rcases ih (by omega) with ⟨middle, runEq, lengthEq, pixelEq⟩
        have rowLt : (count : Int) < block.height := by omega
        have inBounds := row_inBounds fits rowLt
        rw [← lengthEq] at inBounds
        rcases Copy.run_of_inBounds inBounds with ⟨out, rowEq, outLength, getEq⟩
        refine ⟨out, ?_, outLength.trans lengthEq, ?_⟩
        · simp only [copies, Int.toNat_natCast, List.range_succ, List.map_append,
            List.map_cons, List.map_nil] at runEq ⊢
          rw [runAll_append, runEq, Option.bind_some, runAll_singleton, rowEq]
        · intro x y xNonneg xLt yNonneg
          funext channel
          have before := congrFun (pixelEq x y xNonneg xLt yNonneg) channel
          have position := getEq ((y * dstWidth + x) * channels + channel.val)
            (pixel_index_nonneg channel xNonneg xLt yNonneg)
          have covers := @row_covers_iff block channels dstWidth x y count channel xNonneg xLt
            fits.dstX_nonneg fits.dstX_le
            (((block.srcY + count) * srcWidth + block.srcX) * channels)
          simp only [pixel] at before ⊢
          rw [position]
          by_cases inRow : y = block.dstY + count ∧ block.dstX ≤ x ∧ x < block.dstX + block.width
          · rcases inRow with ⟨rowEq, left, right⟩
            have contains : Contains { block with height := (count + 1 : Nat) } x y := by
              simp only [Contains]
              omega
            rw [if_pos (covers.mpr ⟨rowEq, left, right⟩), if_pos contains, rowEq]
            apply congrArg (get src)
            ring
          · have same : Contains { block with height := (count + 1 : Nat) } x y ↔
                Contains { block with height := (count : Nat) } x y := by
              simp only [Contains]
              omega
            rw [if_neg (fun covered => inRow (covers.mp covered)), before]
            simp only [same]
  have heightEq : ((block.height.toNat : Nat) : Int) = block.height :=
    Int.toNat_of_nonneg fits.height_nonneg
  have whole := rows block.height.toNat (by omega)
  rw [heightEq] at whole
  exact whole

end Block

/-! ## Rasters as functions -/

section Render

variable {channels width height : Nat}

/-- The raster whose pixels a function gives. -/
def render (channels width height : Nat) (pixels : Nat → Nat → Fin channels → α) : List α :=
  List.ofFn fun index : Fin (height * width * channels) =>
    pixels (index.val / channels % width) (index.val / channels / width)
      ⟨index.val % channels, Nat.mod_lt _ (Nat.pos_of_ne_zero (by
        intro zero
        subst zero
        exact absurd index.isLt (Nat.not_lt_zero _)))⟩

@[simp] theorem render_length (pixels : Nat → Nat → Fin channels → α) :
    (render channels width height pixels).length = height * width * channels :=
  List.length_ofFn

/-- A position inside a raster, split back into its row, its column and its
channel. -/
theorem position_split {x y : Nat} (channel : Fin channels) (xLt : x < width) :
    ((y * width + x) * channels + channel.val) / channels % width = x ∧
      ((y * width + x) * channels + channel.val) / channels / width = y ∧
      ((y * width + x) * channels + channel.val) % channels = channel.val := by
  have channelsPos : 0 < channels := Nat.zero_lt_of_lt channel.isLt
  have widthPos : 0 < width := Nat.zero_lt_of_lt xLt
  have pixelEq : ((y * width + x) * channels + channel.val) / channels = y * width + x := by
    rw [Nat.add_comm, Nat.add_mul_div_right _ _ channelsPos, Nat.div_eq_of_lt channel.isLt,
      Nat.zero_add]
  refine ⟨?_, ?_, ?_⟩
  · rw [pixelEq, Nat.add_comm, Nat.add_mul_mod_self_right, Nat.mod_eq_of_lt xLt]
  · rw [pixelEq, Nat.add_comm, Nat.add_mul_div_right _ _ widthPos, Nat.div_eq_of_lt xLt,
      Nat.zero_add]
  · rw [Nat.add_comm, Nat.add_mul_mod_self_right, Nat.mod_eq_of_lt channel.isLt]

theorem position_lt {x y : Nat} (channel : Fin channels) (xLt : x < width) (yLt : y < height) :
    (y * width + x) * channels + channel.val < height * width * channels := by
  have channelLt := channel.isLt
  have row : y * width + x + 1 ≤ height * width := by
    have whole := Nat.mul_le_mul_right width (Nat.succ_le_of_lt yLt)
    rw [Nat.succ_mul] at whole
    omega
  have whole := Nat.mul_le_mul_right channels row
  rw [Nat.succ_mul] at whole
  omega

variable [Inhabited α]

/-- Reading back the pixels of a rendered raster. -/
theorem pixel_render (pixels : Nat → Nat → Fin channels → α) {x y : Nat} (xLt : x < width)
    (yLt : y < height) :
    pixel channels width (render channels width height pixels) x y = pixels x y := by
  funext channel
  have inRange := position_lt channel xLt yLt
  rcases position_split (y := y) channel xLt with ⟨column, row, rest⟩
  have offset : (((y : Int) * width + x) * channels + channel.val).toNat =
      (y * width + x) * channels + channel.val := by
    rw [← Int.toNat_natCast ((y * width + x) * channels + channel.val)]
    push_cast
    rfl
  simp only [pixel, get, offset, List.getD_eq_getElem?_getD, render, List.getElem?_ofFn,
    dif_pos inRange, Option.getD_some, column, row, rest]

/-- Buffers of the size of a raster with the same pixels are the same. -/
theorem ext_pixel {left right : List α} (leftSize : left.length = height * width * channels)
    (rightSize : right.length = height * width * channels)
    (same : ∀ x y : Nat, x < width → y < height →
      pixel channels width left x y = pixel channels width right x y) : left = right := by
  apply List.ext_getElem (leftSize.trans rightSize.symm)
  intro index leftLt rightLt
  have inRange : index < height * width * channels := leftSize ▸ leftLt
  have channelsPos : 0 < channels := Nat.pos_of_mul_pos_left (Nat.zero_lt_of_lt inRange)
  have pixelLt : index / channels < height * width := Nat.div_lt_of_lt_mul (by
    rw [Nat.mul_comm]
    exact inRange)
  have widthPos : 0 < width := Nat.pos_of_mul_pos_left (Nat.zero_lt_of_lt pixelLt)
  have columnLt : index / channels % width < width := Nat.mod_lt _ widthPos
  have rowLt : index / channels / width < height := Nat.div_lt_of_lt_mul (by
    rw [Nat.mul_comm]
    exact pixelLt)
  have equal := congrFun (same _ _ columnLt rowLt) ⟨index % channels, Nat.mod_lt _ channelsPos⟩
  have position : (((index / channels / width : Nat) * width +
      (index / channels % width : Nat)) * channels + (index % channels : Nat) : Int).toNat =
        index := by
    have joined : (index / channels / width * width + index / channels % width) * channels +
        index % channels = index := by
      rw [Nat.div_add_mod', Nat.div_add_mod']
    rw [← Int.toNat_natCast index]
    congr 1
    exact_mod_cast joined
  simp only [pixel, get, position, List.getD_eq_getElem?_getD,
    List.getElem?_eq_getElem leftLt, List.getElem?_eq_getElem rightLt, Option.getD_some] at equal
  exact equal

end Render

end Raster
