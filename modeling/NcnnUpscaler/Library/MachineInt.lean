import Mathlib.Algebra.Order.Ring.Int

/-!
# Machine integers

The value that an integer type of a fixed width holds after arithmetic, as a function
of the exact result: two's complement for signed types, the remainder for unsigned
ones.
-/

namespace MachineInt

/-- The exact result, wrapped to a signed type. -/
def signed (bits : Nat) (exact : Int) : Int := exact.bmod (2 ^ bits)

/-- The exact result, wrapped to an unsigned type. -/
def unsigned (bits : Nat) (exact : Int) : Int := exact % 2 ^ bits

/-- Factors that have wrapped make no difference to a product. -/
@[simp] theorem signed_mul_signed (bits : Nat) (left right : Int) :
    signed bits (signed bits left * signed bits right) = signed bits (left * right) :=
  (Int.mul_bmod left right _).symm

@[simp] theorem signed_mul_left (bits : Nat) (left right : Int) :
    signed bits (signed bits left * right) = signed bits (left * right) :=
  Int.bmod_mul_bmod

theorem signed_eq_self {bits : Nat} {exact : Int} (lower : -2 ^ bits ≤ exact)
    (upper : exact < 2 ^ bits) : signed (bits + 1) exact = exact := by
  apply Int.bmod_eq_of_le_mul_two
  · push_cast
    rw [Int.pow_succ]
    omega
  · push_cast
    rw [Int.pow_succ]
    omega

theorem signed_lt (bits : Nat) (exact : Int) : signed (bits + 1) exact < 2 ^ bits := by
  have bound := @Int.bmod_lt exact (2 ^ (bits + 1)) (Nat.two_pow_pos _)
  have half : (((2 ^ (bits + 1) : Nat) : Int) + 1) / 2 = 2 ^ bits := by
    push_cast
    rw [Int.pow_succ]
    omega
  rw [half] at bound
  exact bound

/-- A result that is not negative is held exactly when the type has room for it. -/
theorem signed_eq_self_iff {bits : Nat} {exact : Int} (nonneg : 0 ≤ exact) :
    signed (bits + 1) exact = exact ↔ exact < 2 ^ bits := by
  constructor
  · intro same
    rw [← same]
    exact signed_lt bits exact
  · intro fits
    have positive : (0 : Int) < 2 ^ bits := Int.pow_pos (by decide)
    exact signed_eq_self (by omega) fits

theorem unsigned_eq_self {bits : Nat} {exact : Int} (nonneg : 0 ≤ exact)
    (fits : exact < 2 ^ bits) : unsigned bits exact = exact :=
  Int.emod_eq_of_lt nonneg fits

end MachineInt
