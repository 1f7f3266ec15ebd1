import Mathlib.Algebra.Order.Floor.Ring
import Mathlib.Data.Int.Log
import Mathlib.Tactic.FieldSimp
import Mathlib.Tactic.Linarith
import Mathlib.Tactic.Ring

/-!
# Rounding to a binary significand

Round to nearest, ties to even, to a significand of a fixed number of bits and an
exponent without bounds, over any ordered field with a floor.  Rounding is monotone
and keeps small integers, and a quotient of an integer that fits the significand is
never rounded down to an integer or up past one, so its ceiling is that of the exact
quotient.
-/

namespace Rounding

variable {K : Type*} [Field K] [LinearOrder K] [FloorRing K]

/-! ## To an integer -/

/-- The nearest integer, and of two nearest ones the even one. -/
def toEven (value : K) : Int :=
  let below := ⌊value⌋
  if value - below < 1 / 2 then below
  else if 1 / 2 < value - below then below + 1
  else if below % 2 = 0 then below
  else below + 1

theorem floor_le_toEven (value : K) : ⌊value⌋ ≤ toEven value := by
  simp only [toEven]
  split_ifs <;> omega

theorem toEven_le_floor_add_one (value : K) : toEven value ≤ ⌊value⌋ + 1 := by
  simp only [toEven]
  split_ifs <;> omega

theorem ceil_eq_one {value : K} (valuePos : 0 < value) (le : value ≤ 1) : ⌈value⌉ = 1 := by
  rw [Int.ceil_eq_iff, Int.cast_one, sub_self]
  exact ⟨valuePos, le⟩

variable [IsStrictOrderedRing K]

@[simp] theorem toEven_intCast (integer : Int) : toEven (integer : K) = integer := by
  simp [toEven]

theorem toEven_mono {lower upper : K} (le : lower ≤ upper) : toEven lower ≤ toEven upper := by
  rcases (Int.floor_le_floor le).lt_or_eq with floorLt | floorEq
  · have lowerLe := toEven_le_floor_add_one lower
    have upperGe := floor_le_toEven upper
    omega
  · simp only [toEven, floorEq]
    have fractionLe : lower - (⌊upper⌋ : K) ≤ upper - ⌊upper⌋ := sub_le_sub_right le _
    split_ifs <;> first | omega | (exfalso; linarith)

/-- The nearest integer is at most one half away. -/
theorem abs_toEven_sub_le (value : K) : |(toEven value : K) - value| ≤ 1 / 2 := by
  have floorLe := Int.floor_le value
  have ltFloor := Int.lt_floor_add_one value
  rw [abs_le]
  simp only [toEven]
  split_ifs <;> push_cast <;> constructor <;> linarith

/-! ## To a significand -/

/-- The unit in the last place of a value. -/
def ulp (precision : Nat) (value : K) : K := 2 ^ (Int.log 2 |value| + 1 - precision)

/-- The nearest value with a significand of `precision` bits. -/
def roundNearest (precision : Nat) (value : K) : K :=
  toEven (value / ulp precision value) * ulp precision value

variable {precision : Nat}

theorem ulp_pos (precision : Nat) (value : K) : 0 < ulp precision value :=
  zpow_pos two_pos _

/-- Rounding does not cross a multiple of the last place from above. -/
theorem multiple_le_roundNearest {value : K} {multiple : Int}
    (le : multiple * ulp precision value ≤ value) :
    multiple * ulp precision value ≤ roundNearest precision value := by
  have positive := ulp_pos precision value
  have scaledLe : (multiple : K) ≤ value / ulp precision value :=
    (le_div_iff₀ positive).mpr le
  have rounded := toEven_mono scaledLe
  rw [toEven_intCast] at rounded
  exact mul_le_mul_of_nonneg_right (Int.cast_le.mpr rounded) positive.le

/-- Rounding does not cross a multiple of the last place from below. -/
theorem roundNearest_le_multiple {value : K} {multiple : Int}
    (le : value ≤ multiple * ulp precision value) :
    roundNearest precision value ≤ multiple * ulp precision value := by
  have positive := ulp_pos precision value
  have scaledLe : value / ulp precision value ≤ multiple := (div_le_iff₀ positive).mpr le
  have rounded := toEven_mono scaledLe
  rw [toEven_intCast] at rounded
  exact mul_le_mul_of_nonneg_right (Int.cast_le.mpr rounded) positive.le

/-- A multiple of its own last place is kept. -/
theorem roundNearest_of_multiple {value : K} {multiple : Int}
    (valueEq : value = multiple * ulp precision value) :
    roundNearest precision value = value := by
  apply le_antisymm
  · exact (roundNearest_le_multiple valueEq.le).trans valueEq.ge
  · exact valueEq.le.trans (multiple_le_roundNearest valueEq.ge)

theorem abs_roundNearest_sub_le (precision : Nat) (value : K) :
    |roundNearest precision value - value| ≤ ulp precision value / 2 := by
  have positive := ulp_pos precision value
  have scaled : roundNearest precision value - value =
      (toEven (value / ulp precision value) - value / ulp precision value) *
        ulp precision value := by
    rw [sub_mul, div_mul_cancel₀ _ positive.ne']
    rfl
  have error := abs_toEven_sub_le (value / ulp precision value)
  rw [scaled, abs_mul, abs_of_pos positive]
  calc |(toEven (value / ulp precision value) : K) - value / ulp precision value| *
        ulp precision value
      ≤ 1 / 2 * ulp precision value := mul_le_mul_of_nonneg_right error positive.le
    _ = ulp precision value / 2 := by ring

/-- A value whose significand fits is kept. -/
theorem roundNearest_of_significand {significand exponent : Int}
    (fits : |significand| < 2 ^ precision) :
    roundNearest precision (significand * 2 ^ exponent : K) = significand * 2 ^ exponent := by
  by_cases zero : significand = 0
  · apply @roundNearest_of_multiple K _ _ _ _ _ _ 0
    rw [zero, Int.cast_zero, zero_mul, zero_mul]
  · have unitPos : (0 : K) < 2 ^ exponent := zpow_pos two_pos exponent
    have valueNe : (significand * 2 ^ exponent : K) ≠ 0 :=
      mul_ne_zero (Int.cast_ne_zero.mpr zero) unitPos.ne'
    have below : |(significand * 2 ^ exponent : K)| <
        ((2 : Nat) : K) ^ (precision + exponent : Int) := by
      have fitsK : |(significand : K)| < 2 ^ precision := by exact_mod_cast fits
      rw [Nat.cast_ofNat, abs_mul, abs_of_pos unitPos, zpow_add₀ two_ne_zero, zpow_natCast]
      exact mul_lt_mul_of_pos_right fitsK unitPos
    have logLt := (Int.lt_zpow_iff_log_lt one_lt_two (abs_pos.mpr valueNe)).mp below
    have place : (0 : Int) ≤
        exponent - (Int.log 2 |(significand * 2 ^ exponent : K)| + 1 - precision) := by
      omega
    rcases Int.eq_ofNat_of_zero_le place with ⟨shift, shiftEq⟩
    apply @roundNearest_of_multiple K _ _ _ _ _ _ (significand * 2 ^ shift)
    rw [ulp, Int.cast_mul, Int.cast_pow, Int.cast_ofNat, mul_assoc, ← zpow_natCast,
      ← zpow_add₀ two_ne_zero]
    congr 2
    omega

/-! ## Order -/

variable (positive : 0 < precision)

include positive

/-- An integer is kept when it is at most the power that follows the significands. -/
theorem roundNearest_intCast {integer : Int} (nonneg : 0 ≤ integer)
    (le : integer ≤ 2 ^ precision) : roundNearest precision (integer : K) = integer := by
  rcases le.lt_or_eq with lt | eq
  · have kept := @roundNearest_of_significand K _ _ _ _ precision integer 0 (by
      rw [abs_of_nonneg nonneg]
      exact lt)
    rw [zpow_zero, mul_one] at kept
    exact kept
  · have kept := @roundNearest_of_significand K _ _ _ _ precision 1 precision (by
      rw [abs_one]
      exact one_lt_pow₀ one_lt_two positive.ne')
    rw [Int.cast_one, one_mul, zpow_natCast] at kept
    rw [eq, Int.cast_pow, Int.cast_ofNat]
    exact kept

theorem roundNearest_zero : roundNearest precision (0 : K) = 0 := by
  have kept := @roundNearest_intCast K _ _ _ _ precision positive 0 le_rfl (by positivity)
  rw [Int.cast_zero] at kept
  exact kept

/-- The power of two below a positive value stays below it. -/
theorem zpow_log_le_roundNearest {value : K} (valuePos : 0 < value) :
    2 ^ Int.log 2 value ≤ roundNearest precision value := by
  have below := Int.zpow_log_le_self one_lt_two valuePos
  have placed : ((2 ^ (precision - 1) : Int) : K) * ulp precision value =
      2 ^ Int.log 2 value := by
    rw [ulp, abs_of_pos valuePos, Int.cast_pow, Int.cast_ofNat, ← zpow_natCast,
      ← zpow_add₀ two_ne_zero]
    congr 1
    omega
  rw [← placed]
  apply multiple_le_roundNearest
  rw [placed]
  rw [Nat.cast_ofNat] at below
  exact below

omit positive in
/-- The power of two above a positive value stays above it. -/
theorem roundNearest_le_zpow {value : K} (valuePos : 0 < value) :
    roundNearest precision value ≤ 2 ^ (Int.log 2 value + 1) := by
  have above := Int.lt_zpow_succ_log_self one_lt_two value
  have placed : ((2 ^ precision : Int) : K) * ulp precision value =
      2 ^ (Int.log 2 value + 1) := by
    rw [ulp, abs_of_pos valuePos, Int.cast_pow, Int.cast_ofNat, ← zpow_natCast,
      ← zpow_add₀ two_ne_zero]
    congr 1
    omega
  rw [← placed]
  apply roundNearest_le_multiple
  rw [placed]
  rw [Nat.cast_ofNat] at above
  exact above.le

theorem roundNearest_pos {value : K} (valuePos : 0 < value) :
    0 < roundNearest precision value :=
  lt_of_lt_of_le (zpow_pos two_pos _) (zpow_log_le_roundNearest positive valuePos)

theorem roundNearest_mono {lower upper : K} (nonneg : 0 ≤ lower) (le : lower ≤ upper) :
    roundNearest precision lower ≤ roundNearest precision upper := by
  rcases nonneg.lt_or_eq with lowerPos | zero
  · have upperPos := lowerPos.trans_le le
    rcases (Int.log_mono_right lowerPos le : Int.log 2 lower ≤ Int.log 2 upper).lt_or_eq
      with logLt | logEq
    · calc roundNearest precision lower
          ≤ 2 ^ (Int.log 2 lower + 1) := roundNearest_le_zpow lowerPos
        _ ≤ 2 ^ Int.log 2 upper := zpow_le_zpow_right₀ one_le_two logLt
        _ ≤ roundNearest precision upper := zpow_log_le_roundNearest positive upperPos
    · have placeEq : ulp precision lower = ulp precision upper := by
        rw [ulp, ulp, abs_of_pos lowerPos, abs_of_pos upperPos, logEq]
      have placePos := ulp_pos precision upper
      rw [roundNearest, roundNearest, placeEq]
      apply mul_le_mul_of_nonneg_right _ placePos.le
      exact Int.cast_le.mpr (toEven_mono (div_le_div_of_nonneg_right le placePos.le))
  · rw [← zero, roundNearest_zero positive]
    rcases (nonneg.trans le).lt_or_eq with upperPos | upperZero
    · exact (roundNearest_pos positive upperPos).le
    · rw [← upperZero, roundNearest_zero positive]

/-! ## Quotients -/

omit positive in
/-- From one on, half of the last place is at most the integer part divided by
`2 ^ precision`. -/
theorem ulp_div_two_le {value : K} (oneLe : 1 ≤ value) :
    ulp precision value / 2 ≤ ⌊value⌋ / 2 ^ precision := by
  have valuePos : 0 < value := zero_lt_one.trans_le oneLe
  have floorPos : ⌊value⌋₊ ≠ 0 := (Nat.floor_pos.mpr oneLe).ne'
  have powLe : ((2 ^ Nat.log 2 ⌊value⌋₊ : Nat) : K) ≤ (⌊value⌋₊ : K) :=
    Nat.cast_le.mpr (Nat.pow_log_le_self 2 floorPos)
  have floorEq : (⌊value⌋₊ : K) = ⌊value⌋ := natCast_floor_eq_intCast_floor valuePos.le
  have placeEq : ulp precision value / 2 = 2 ^ Nat.log 2 ⌊value⌋₊ / 2 ^ precision := by
    rw [ulp, abs_of_pos valuePos, Int.log_of_one_le_right 2 oneLe, zpow_sub₀ two_ne_zero,
      zpow_add₀ two_ne_zero, zpow_natCast, zpow_natCast, zpow_one]
    ring
  rw [placeEq, ← floorEq]
  apply div_le_div_of_nonneg_right _ (pow_pos two_pos _).le
  rw [Nat.cast_pow, Nat.cast_ofNat] at powLe
  exact powLe

/-- A quotient of an integer that fits the significand does not round down to an
integer below it. -/
theorem lt_roundNearest_div {dividend divisor below : Int} (nonneg : 0 ≤ below)
    (dividendLe : dividend ≤ 2 ^ precision) (divisorPos : 0 < divisor)
    (lt : (below : K) < dividend / divisor) :
    (below : K) < roundNearest precision (dividend / divisor : K) := by
  have divisorPosK : (0 : K) < divisor := Int.cast_pos.mpr divisorPos
  have product : below * divisor < dividend := by
    have productK := (lt_div_iff₀ divisorPosK).mp lt
    exact_mod_cast productK
  have belowLt : below < 2 ^ precision := by
    have belowLe : below * 1 ≤ below * divisor := Int.mul_le_mul_of_nonneg_left divisorPos nonneg
    omega
  rcases nonneg.lt_or_eq with belowPos | belowZero
  · rcases lt_or_ge (dividend / divisor : K) (below + 1) with close | far
    · have oneLe : (1 : K) ≤ below := by exact_mod_cast belowPos
      have floorEq : ⌊(dividend / divisor : K)⌋ = below := Int.floor_eq_iff.mpr ⟨lt.le, close⟩
      have placeLe := @ulp_div_two_le K _ _ _ _ precision _ (oneLe.trans lt.le)
      rw [floorEq] at placeLe
      have error := (abs_le.mp (abs_roundNearest_sub_le precision (dividend / divisor : K))).1
      -- The quotient is at least one part in `divisor` above the integer.
      have gap : (below : K) + 1 / divisor ≤ dividend / divisor := by
        rw [le_div_iff₀ divisorPosK, add_mul, div_mul_cancel₀ _ divisorPosK.ne']
        exact_mod_cast product
      have place : (below : K) / 2 ^ precision < 1 / divisor := by
        rw [div_lt_div_iff₀ (pow_pos two_pos _) divisorPosK, one_mul]
        exact_mod_cast product.trans_le dividendLe
      linarith
    · have rounded := roundNearest_mono positive
        (by exact_mod_cast (by omega : (0 : Int) ≤ below + 1) : (0 : K) ≤ below + 1) far
      have kept := @roundNearest_intCast K _ _ _ _ precision positive (below + 1) (by omega) belowLt
      rw [Int.cast_add, Int.cast_one] at kept
      rw [kept] at rounded
      exact (lt_add_one _).trans_le rounded
  · rw [← belowZero, Int.cast_zero] at lt ⊢
    exact roundNearest_pos positive lt

/-- The ceiling of a quotient of an integer that fits the significand survives
rounding. -/
theorem ceil_roundNearest_div {dividend divisor : Int} (nonneg : 0 ≤ dividend)
    (dividendLe : dividend ≤ 2 ^ precision) (divisorPos : 0 < divisor) :
    ⌈roundNearest precision (dividend / divisor : K)⌉ = ⌈(dividend / divisor : K)⌉ := by
  have divisorPosK : (0 : K) < divisor := Int.cast_pos.mpr divisorPos
  have quotientNonneg : (0 : K) ≤ dividend / divisor :=
    div_nonneg (Int.cast_nonneg nonneg) divisorPosK.le
  have quotientLe : (dividend / divisor : K) ≤ dividend :=
    div_le_self (Int.cast_nonneg nonneg) (by exact_mod_cast divisorPos)
  have ceilLe : ⌈(dividend / divisor : K)⌉ ≤ 2 ^ precision :=
    (Int.ceil_le.mpr quotientLe).trans dividendLe
  have ceilNonneg : 0 ≤ ⌈(dividend / divisor : K)⌉ := Int.ceil_nonneg quotientNonneg
  have upper := roundNearest_mono positive quotientNonneg (Int.le_ceil (dividend / divisor : K))
  rw [roundNearest_intCast positive ceilNonneg ceilLe] at upper
  rw [Int.ceil_eq_iff]
  refine ⟨?_, upper⟩
  rcases ceilNonneg.lt_or_eq with ceilPos | ceilZero
  · have strict := lt_roundNearest_div positive (by omega : 0 ≤ ⌈(dividend / divisor : K)⌉ - 1)
      dividendLe divisorPos (Int.lt_ceil.mp (by omega))
    rw [Int.cast_sub, Int.cast_one] at strict
    exact strict
  · have quotientZero : (dividend / divisor : K) = 0 :=
      le_antisymm (Int.ceil_nonpos.mp ceilZero.ge) quotientNonneg
    rw [← ceilZero, quotientZero, roundNearest_zero positive, Int.cast_zero]
    exact sub_lt_self _ one_pos

/-- So it does when the divisor is rounded as well, however large that is. -/
theorem ceil_roundNearest_div_roundNearest {dividend divisor : Int} (nonneg : 0 ≤ dividend)
    (dividendLe : dividend ≤ 2 ^ precision) (divisorPos : 0 < divisor) :
    ⌈roundNearest precision
        (roundNearest precision (dividend : K) / roundNearest precision (divisor : K))⌉ =
      ⌈(dividend / divisor : K)⌉ := by
  rw [roundNearest_intCast positive nonneg dividendLe]
  rcases le_or_gt divisor (2 ^ precision) with small | large
  · rw [roundNearest_intCast positive divisorPos.le small]
    exact ceil_roundNearest_div positive nonneg dividendLe divisorPos
  · rcases nonneg.lt_or_eq with dividendPos | dividendZero
    · -- Both quotients are positive and at most one.
      have divisorPosK : (0 : K) < divisor := Int.cast_pos.mpr divisorPos
      have dividendPosK : (0 : K) < dividend := Int.cast_pos.mpr dividendPos
      have roundedGe : (dividend : K) ≤ roundNearest precision (divisor : K) := by
        rw [← roundNearest_intCast positive nonneg dividendLe]
        exact roundNearest_mono positive dividendPosK.le
          (Int.cast_le.mpr (dividendLe.trans large.le))
      have roundedPos := dividendPosK.trans_le roundedGe
      have quotientPos := div_pos dividendPosK roundedPos
      have quotientLe := roundNearest_mono positive quotientPos.le
        ((div_le_one roundedPos).mpr roundedGe)
      have one := @roundNearest_intCast K _ _ _ _ precision positive 1 zero_le_one
        (one_le_pow₀ one_le_two)
      rw [Int.cast_one] at one
      rw [one] at quotientLe
      rw [ceil_eq_one (roundNearest_pos positive quotientPos) quotientLe]
      rw [ceil_eq_one (div_pos dividendPosK divisorPosK)]
      exact (div_le_one divisorPosK).mpr (Int.cast_le.mpr (dividendLe.trans large.le))
    · rw [← dividendZero, Int.cast_zero, zero_div, zero_div, roundNearest_zero positive]

end Rounding
