import NcnnUpscaler.Library.Rounding
import NcnnUpscaler.Tiling.Tiles
import Mathlib.Algebra.Order.Ring.Int
import Mathlib.Data.Rat.Floor

/-!
# Tile counts in single precision

`calculate_tiles` divides in `float`: both operands are converted, the quotient is
rounded, and the ceiling of that is the number of tiles.  Conversion and division
round to a significand of 24 bits; no value here comes near the ends of the exponent
range.  Up to an image side of `2 ^ 24`, the limit of `stb_image`, the counts are the
exact ones, and the tiles those of `calculateTiles`.
-/

namespace NcnnUpscaler.Tiling

/-- `FLT_MANT_DIG`. -/
def floatDigits : Nat := 24

/-- The conversion of an `int` to `float`. -/
def toFloat (value : Int) : Rat := Rounding.roundNearest floatDigits value

/-- The division of two `float`s. -/
def divFloat (dividend divisor : Rat) : Rat :=
  Rounding.roundNearest floatDigits (dividend / divisor)

/-- `tiles_x` and `tiles_y` as the code computes them. -/
def tileCountFloat (imageSize : Int) (config : TilingConfig) : Int :=
  max 1 ⌈divFloat (toFloat (max 0 (imageSize - config.overlap))) (toFloat (tileStep config))⌉

/-- `calculate_tiles` with these counts. -/
def calculateTilesFloat (imageWidth imageHeight : Int) (config : TilingConfig) : List Tile :=
  (List.range (tileCountFloat imageHeight config).toNat).flatMap fun ty =>
    (List.range (tileCountFloat imageWidth config).toNat).map fun tx =>
      tileAt imageWidth imageHeight config tx ty

/-! ## Exact counts -/

theorem ceilDiv_eq_ceil (dividend : Int) {divisor : Int} (positive : 0 < divisor) :
    Covering.ceilDiv dividend divisor = ⌈(dividend / divisor : Rat)⌉ := by
  have positiveRat : (0 : Rat) < divisor := Int.cast_pos.mpr positive
  symm
  rw [Int.ceil_eq_iff, lt_div_iff₀ positiveRat, div_le_iff₀ positiveRat]
  constructor
  · exact_mod_cast Covering.ceilDiv_sub_one_mul_lt dividend positive
  · exact_mod_cast Covering.le_ceilDiv_mul dividend positive

variable {imageSize : Int} {config : TilingConfig}

theorem tileCount_eq_ceil (stepPos : 1 ≤ tileStep config) :
    tileCount imageSize config =
      max 1 ⌈((max 0 (imageSize - config.overlap) : Int) / tileStep config : Rat)⌉ := by
  rw [tileCount, ceilDiv_eq_ceil _ stepPos]

/-! ## Rounded counts -/

theorem tileCountFloat_eq_ceil (sizeLe : imageSize ≤ 2 ^ floatDigits)
    (overlapNonneg : 0 ≤ config.overlap) (stepPos : 1 ≤ tileStep config) :
    tileCountFloat imageSize config =
      max 1 ⌈((max 0 (imageSize - config.overlap) : Int) / tileStep config : Rat)⌉ := by
  have dividendLe : max 0 (imageSize - config.overlap) ≤ 2 ^ floatDigits := by
    simp only [floatDigits] at sizeLe ⊢
    omega
  rw [tileCountFloat, divFloat, toFloat, toFloat,
    Rounding.ceil_roundNearest_div_roundNearest (by decide) (Int.le_max_left _ _) dividendLe
      stepPos]

theorem tileCountFloat_eq (sizeLe : imageSize ≤ 2 ^ floatDigits)
    (overlapNonneg : 0 ≤ config.overlap) (stepPos : 1 ≤ tileStep config) :
    tileCountFloat imageSize config = tileCount imageSize config :=
  (tileCountFloat_eq_ceil sizeLe overlapNonneg stepPos).trans (tileCount_eq_ceil stepPos).symm

/-- For an image side of at most `2 ^ 24`, any overlap and any positive step, rounding
the operands and the quotient leaves the count of tiles the exact ceiling: no column
and no row is lost or added. -/
theorem tile_count_exact_in_float (imageSize : Int) (config : TilingConfig)
    (sizeLe : imageSize ≤ 2 ^ 24) (overlapNonneg : 0 ≤ config.overlap)
    (stepPos : 1 ≤ tileStep config) :
    tileCountFloat imageSize config =
        max 1 ⌈((max 0 (imageSize - config.overlap) : Int) / tileStep config : Rat)⌉ ∧
      tileCountFloat imageSize config = tileCount imageSize config :=
  ⟨tileCountFloat_eq_ceil sizeLe overlapNonneg stepPos,
    tileCountFloat_eq sizeLe overlapNonneg stepPos⟩

/-- The widest image and the default tiles. -/
theorem tile_count_exact_in_float_default :
    tileCountFloat (2 ^ 24) {} =
        max 1 ⌈((max 0 (2 ^ 24 - 32) : Int) / (480 : Int) : Rat)⌉ ∧
      tileCountFloat (2 ^ 24) {} = 34953 :=
  tile_count_exact_in_float (2 ^ 24) {} (by decide) (by decide) (by decide)

/-- One pixel more, and a count can fall short. -/
example : tileCountFloat (2 ^ 24 + 1) { tileSize := 1, overlap := 0 } = 2 ^ 24 := by
  decide +kernel

/-- The code computes the tiles of the model. -/
theorem calculateTilesFloat_eq {imageWidth imageHeight : Int}
    (widthLe : imageWidth ≤ 2 ^ floatDigits) (heightLe : imageHeight ≤ 2 ^ floatDigits)
    (overlapNonneg : 0 ≤ config.overlap) (stepPos : 1 ≤ tileStep config) :
    calculateTilesFloat imageWidth imageHeight config =
      calculateTiles imageWidth imageHeight config := by
  rw [calculateTilesFloat, calculateTiles, tileCountFloat_eq widthLe overlapNonneg stepPos,
    tileCountFloat_eq heightLe overlapNonneg stepPos]

end NcnnUpscaler.Tiling
