import NcnnUpscaler.Library.MachineInt
import NcnnUpscaler.Tiling.Tiles

/-!
# Pixel memory sized in int

The image code computes the sizes of its buffers and most offsets into them as 32-bit
`int`, and passes lengths as 64-bit `size_t`.  A size that is negative once it has
wrapped around is one no vector can have.  Where the buffers have fewer than `2 ^ 31`
bytes, what is allocated and copied is what the exact arithmetic says.
-/

namespace NcnnUpscaler.Tiling

open Raster MachineInt

/-- An `int`, from the exact result of the arithmetic. -/
def int32 (exact : Int) : Int := signed 32 exact

/-- A `size_t`, from the exact result of the arithmetic. -/
def sizeT (exact : Int) : Int := unsigned 64 exact

/-- A `memcpy` call whose offsets and length are computed as `int`. -/
def wrapCopy (copy : Copy) : Copy :=
  { dst := int32 copy.dst, src := int32 copy.src, len := sizeT (int32 copy.len) }

theorem int32_eq_self {exact : Int} (lower : -2147483648 ≤ exact) (upper : exact < 2147483648) :
    int32 exact = exact :=
  @signed_eq_self 31 exact lower upper

theorem int32_lt (exact : Int) : int32 exact < 2147483648 := signed_lt 31 exact

/-- A size is held exactly when it is less than `2 ^ 31`. -/
theorem int32_eq_self_iff {exact : Int} (nonneg : 0 ≤ exact) :
    int32 exact = exact ↔ exact < 2 ^ 31 :=
  @signed_eq_self_iff 31 exact nonneg

theorem sizeT_eq_self {exact : Int} (nonneg : 0 ≤ exact) (fits : exact < 2 ^ 64) :
    sizeT exact = exact :=
  unsigned_eq_self nonneg fits

/-- Copies between buffers of fewer than `2 ^ 31` bytes are made as computed. -/
theorem map_wrapCopy {copies : List Copy} {dstSize srcSize : Nat}
    (inBounds : ∀ copy ∈ copies, copy.InBounds dstSize srcSize)
    (dstSmall : (dstSize : Int) < 2 ^ 31) (srcSmall : (srcSize : Int) < 2 ^ 31) :
    copies.map wrapCopy = copies := by
  refine (List.map_congr_left ?_).trans (List.map_id copies)
  intro copy member
  change wrapCopy copy = copy
  rcases inBounds copy member with ⟨lenNonneg, dstNonneg, dstLe, srcNonneg, srcLe⟩
  have dstEq : int32 copy.dst = copy.dst := int32_eq_self (by omega) (by omega)
  have srcEq : int32 copy.src = copy.src := int32_eq_self (by omega) (by omega)
  have lenEq : int32 copy.len = copy.len := int32_eq_self (by omega) (by omega)
  simp only [wrapCopy, dstEq, srcEq, lenEq, sizeT_eq_self lenNonneg (by omega)]

theorem allocate_size {size : Int} {buffer : Rgb} (allocated : allocate size = .ok buffer) :
    (buffer.length : Int) = size := by
  simp only [allocate] at allocated
  split at allocated
  · cases allocated
  · cases allocated
    rw [List.length_replicate]
    omega

theorem copyRows_inBounds {copies : List Copy} {dst src out : Rgb}
    (done : copyRows copies dst src = .ok out) :
    out.length = dst.length ∧ ∀ copy ∈ copies, copy.InBounds dst.length src.length := by
  simp only [copyRows] at done
  split at done
  · next ran =>
      cases done
      exact inBounds_of_runAll ran
  · cases done

/-- Allocating a buffer of fewer than `2 ^ 31` bytes and filling it from another is the
same on machine integers. -/
theorem fill_wrapped {size : Int} {copies : List Copy} {buffer src out : Rgb}
    (allocated : allocate size = .ok buffer) (filled : copyRows copies buffer src = .ok out)
    (small : (out.length : Int) < 2 ^ 31) (srcSmall : (src.length : Int) < 2 ^ 31) :
    allocate (int32 size) = .ok buffer ∧
      copyRows (copies.map wrapCopy) buffer src = .ok out := by
  rcases copyRows_inBounds filled with ⟨lengthEq, inBounds⟩
  have bufferSize := allocate_size allocated
  have sizeEq : int32 size = size := int32_eq_self (by omega) (by omega)
  rw [sizeEq, map_wrapCopy inBounds (by omega) srcSmall]
  exact ⟨allocated, filled⟩

end NcnnUpscaler.Tiling
