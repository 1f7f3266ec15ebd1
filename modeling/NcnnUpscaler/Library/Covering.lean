import Mathlib.Algebra.Order.Ring.Int
import Mathlib.Tactic.Linarith
import Mathlib.Tactic.Ring

/-!
# Covering an interval by overlapping segments

An axis of `size` positions is covered by segments of at most `tile` positions
whose starts are `tile - overlap` apart.  Each segment but the first gives up the
`overlap` positions it shares with the one before; what they keep cuts the axis
into consecutive cells, so every position is kept by exactly one segment.
-/

namespace Covering

/-- The quotient rounded up. -/
def ceilDiv (dividend divisor : Int) : Int := (dividend + divisor - 1) / divisor

theorem le_ceilDiv_mul (dividend : Int) {divisor : Int} (positive : 0 < divisor) :
    dividend ≤ ceilDiv dividend divisor * divisor := by
  have split := Int.mul_ediv_add_emod (dividend + divisor - 1) divisor
  have remainder := Int.emod_lt_of_pos (dividend + divisor - 1) positive
  simp only [ceilDiv]
  linarith [Int.mul_comm divisor ((dividend + divisor - 1) / divisor)]

theorem ceilDiv_sub_one_mul_lt (dividend : Int) {divisor : Int} (positive : 0 < divisor) :
    (ceilDiv dividend divisor - 1) * divisor < dividend := by
  have split := Int.mul_ediv_add_emod (dividend + divisor - 1) divisor
  have remainder := Int.emod_nonneg (dividend + divisor - 1) (Int.ne_of_gt positive)
  simp only [ceilDiv]
  linarith [Int.mul_comm divisor ((dividend + divisor - 1) / divisor),
    Int.sub_mul ((dividend + divisor - 1) / divisor) 1 divisor]

/-- The interval to cover, the length of a segment and by how much neighbouring
segments overlap. -/
structure Axis where
  size : Int
  tile : Int
  overlap : Int
  size_pos : 0 < size
  overlap_nonneg : 0 ≤ overlap
  overlap_lt : overlap < tile

namespace Axis

variable (axis : Axis)

def step : Int := axis.tile - axis.overlap

/-- The number of segments. -/
def count : Int := max 1 (ceilDiv (max 0 (axis.size - axis.overlap)) axis.step)

/-- Where a segment starts. -/
def start (index : Nat) : Int := index * axis.step

/-- How many positions a segment has; the last may be shorter. -/
def extent (index : Nat) : Int := min axis.tile (axis.size - axis.start index)

/-- The first position a segment keeps. -/
def keptFrom (index : Nat) : Int :=
  if index = 0 then 0 else axis.start index + axis.overlap

/-- The position after the last one a segment keeps. -/
def keptTo (index : Nat) : Int := axis.start index + axis.extent index

theorem step_pos : 0 < axis.step := Int.sub_pos_of_lt axis.overlap_lt

theorem count_pos : 0 < axis.count := lt_of_lt_of_le Int.one_pos (Int.le_max_left _ _)

theorem start_succ (index : Nat) :
    axis.start (index + 1) = axis.start index + axis.step := by
  simp only [start, Nat.cast_add, Nat.cast_one]
  ring

theorem start_nonneg (index : Nat) : 0 ≤ axis.start index :=
  Int.mul_nonneg (Int.natCast_nonneg index) (Int.le_of_lt axis.step_pos)

theorem start_mono {earlier later : Nat} (le : earlier ≤ later) :
    axis.start earlier ≤ axis.start later :=
  Int.mul_le_mul_of_nonneg_right (Int.ofNat_le.mpr le) (Int.le_of_lt axis.step_pos)

theorem le_of_start_le {earlier later : Nat} (le : axis.start earlier ≤ axis.start later) :
    earlier ≤ later :=
  Int.ofNat_le.mp (Int.le_of_mul_le_mul_right le axis.step_pos)

theorem start_inj {index other : Nat} (same : axis.start index = axis.start other) :
    index = other := by
  have stepNe : axis.step ≠ 0 := Int.ne_of_gt axis.step_pos
  exact Int.ofNat_inj.mp (Int.eq_of_mul_eq_mul_right stepNe same)

/-- The last segment reaches the end of the axis. -/
theorem size_le_start_count {index : Nat} (last : (index : Int) = axis.count) :
    axis.size ≤ axis.start index + axis.overlap := by
  have enough := le_ceilDiv_mul (max 0 (axis.size - axis.overlap)) axis.step_pos
  have atLeast : ceilDiv (max 0 (axis.size - axis.overlap)) axis.step ≤ axis.count :=
    Int.le_max_right _ _
  have scaled := Int.mul_le_mul_of_nonneg_right atLeast (Int.le_of_lt axis.step_pos)
  have positive : axis.size - axis.overlap ≤ max 0 (axis.size - axis.overlap) :=
    Int.le_max_right _ _
  simp only [start, last]
  omega

/-- A segment other than the first starts so that it has more than the overlap
to show. -/
theorem start_add_overlap_lt {index : Nat} (later : index ≠ 0)
    (inRange : (index : Int) < axis.count) :
    axis.start index + axis.overlap < axis.size := by
  have countEq : axis.count = ceilDiv (max 0 (axis.size - axis.overlap)) axis.step := by
    simp only [count] at inRange ⊢
    omega
  have below := ceilDiv_sub_one_mul_lt (max 0 (axis.size - axis.overlap)) axis.step_pos
  rw [← countEq] at below
  have atMost : (index : Int) ≤ axis.count - 1 := by omega
  have scaled := Int.mul_le_mul_of_nonneg_right atMost (Int.le_of_lt axis.step_pos)
  have startNonneg := axis.start_nonneg index
  have startPos : 0 < axis.start index := by
    have nonzero : (0 : Int) < index := by omega
    exact Int.mul_pos nonzero axis.step_pos
  simp only [start] at startPos ⊢
  omega

theorem start_lt {index : Nat} (inRange : (index : Int) < axis.count) :
    axis.start index < axis.size := by
  by_cases first : index = 0
  · subst first
    have positive := axis.size_pos
    simp only [start]
    omega
  · have below := axis.start_add_overlap_lt first inRange
    have nonneg := axis.overlap_nonneg
    omega

theorem extent_pos {index : Nat} (inRange : (index : Int) < axis.count) :
    0 < axis.extent index := by
  have below := axis.start_lt inRange
  have overlapNonneg := axis.overlap_nonneg
  have overlapLt := axis.overlap_lt
  simp only [extent]
  omega

theorem keptTo_le (index : Nat) : axis.keptTo index ≤ axis.size := by
  simp only [keptTo, extent]
  omega

theorem keptFrom_nonneg (index : Nat) : 0 ≤ axis.keptFrom index := by
  have startNonneg := axis.start_nonneg index
  have overlapNonneg := axis.overlap_nonneg
  simp only [keptFrom]
  split <;> omega

/-- What a segment keeps lies inside it. -/
theorem start_le_keptFrom (index : Nat) : axis.start index ≤ axis.keptFrom index := by
  have overlapNonneg := axis.overlap_nonneg
  simp only [keptFrom]
  split
  · next first =>
      subst first
      simp [start]
  · omega

theorem keptFrom_mono {earlier later : Nat} (le : earlier ≤ later) :
    axis.keptFrom earlier ≤ axis.keptFrom later := by
  have starts := axis.start_mono le
  have startNonneg := axis.start_nonneg later
  have overlapNonneg := axis.overlap_nonneg
  simp only [keptFrom]
  split
  · split <;> omega
  · rw [if_neg (by omega)]
    omega

/-- A segment keeps everything up to where the next one begins to keep. -/
theorem keptTo_eq_keptFrom {index : Nat} (inRange : (index : Int) + 1 < axis.count) :
    axis.keptTo index = axis.keptFrom (index + 1) := by
  have later : index + 1 ≠ 0 := Nat.succ_ne_zero index
  have below := axis.start_add_overlap_lt later (by omega)
  have next := axis.start_succ index
  simp only [keptTo, extent, keptFrom, if_neg later]
  simp only [step] at next
  omega

/-- The last segment keeps everything up to the end. -/
theorem keptTo_last {index : Nat} (last : (index : Int) + 1 = axis.count) :
    axis.keptTo index = axis.size := by
  have beyond : ((index + 1 : Nat) : Int) = axis.count := by omega
  have enough := axis.size_le_start_count beyond
  have next := axis.start_succ index
  simp only [keptTo, extent]
  simp only [step] at next
  omega

theorem keptFrom_lt_keptTo {index : Nat} (inRange : (index : Int) < axis.count) :
    axis.keptFrom index < axis.keptTo index := by
  have overlapLt := axis.overlap_lt
  by_cases first : index = 0
  · subst first
    have positive := axis.extent_pos inRange
    simp only [keptTo, keptFrom, start, if_true]
    omega
  · have below := axis.start_add_overlap_lt first inRange
    simp only [keptTo, extent, keptFrom, if_neg first]
    omega

/-- Up to a segment's end, positions are kept by that segment or one before. -/
theorem exists_kept_le {index : Nat} (inRange : (index : Int) < axis.count) {position : Int}
    (nonneg : 0 ≤ position) (below : position < axis.keptTo index) :
    ∃ keeper ≤ index, axis.keptFrom keeper ≤ position ∧ position < axis.keptTo keeper := by
  induction index with
  | zero => exact ⟨0, Nat.le_refl 0, nonneg, below⟩
  | succ index ih =>
      by_cases kept : axis.keptFrom (index + 1) ≤ position
      · exact ⟨index + 1, Nat.le_refl _, kept, below⟩
      · have earlier : position < axis.keptTo index := by
          rw [axis.keptTo_eq_keptFrom (by omega)]
          omega
        rcases ih (by omega) earlier with ⟨keeper, keeperLe, keeps⟩
        exact ⟨keeper, by omega, keeps⟩

/-- Every position of the axis is kept by a segment. -/
theorem exists_kept {position : Int} (nonneg : 0 ≤ position) (below : position < axis.size) :
    ∃ keeper : Nat, (keeper : Int) < axis.count ∧ axis.keptFrom keeper ≤ position ∧
      position < axis.keptTo keeper := by
  have positive := axis.count_pos
  have last : ((axis.count.toNat - 1 : Nat) : Int) + 1 = axis.count := by omega
  have whole := axis.keptTo_last last
  rw [← whole] at below
  have inRange : ((axis.count.toNat - 1 : Nat) : Int) < axis.count := by omega
  rcases axis.exists_kept_le inRange nonneg below with ⟨keeper, keeperLe, keeps⟩
  exact ⟨keeper, by omega, keeps⟩

/-- A segment that begins to keep before another ends is not after it. -/
theorem le_of_keptFrom_lt_keptTo {index other : Nat} (otherInRange : (other : Int) < axis.count)
    (overlaps : axis.keptFrom index < axis.keptTo other)
    (inRange : (index : Int) < axis.count) : index ≤ other := by
  by_contra after
  have next : (other : Int) + 1 < axis.count := by omega
  have ordered := axis.keptFrom_mono (show other + 1 ≤ index by omega)
  rw [axis.keptTo_eq_keptFrom next] at overlaps
  omega

/-- No position is kept by two segments. -/
theorem kept_unique {index other : Nat} {position : Int}
    (inRange : (index : Int) < axis.count) (otherInRange : (other : Int) < axis.count)
    (kept : axis.keptFrom index ≤ position ∧ position < axis.keptTo index)
    (otherKept : axis.keptFrom other ≤ position ∧ position < axis.keptTo other) :
    index = other := by
  have le := axis.le_of_keptFrom_lt_keptTo otherInRange (by omega) inRange
  have ge := axis.le_of_keptFrom_lt_keptTo inRange (by omega) otherInRange
  omega

end Axis

end Covering
