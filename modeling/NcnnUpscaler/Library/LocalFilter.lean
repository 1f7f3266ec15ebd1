import Mathlib.Tactic.Common
import Mathlib.Algebra.Order.Ring.Int

/-!
# Local filters with edge replication

An image is a function of a column and a row, with a width and a height.  A local
filter of radius `r` computes each output pixel from the phase of its position and
from the window of `2 * r + 1` by `2 * r + 1` source pixels around the pixel it
comes from, where positions outside the image are replaced by the nearest ones
inside.  On a part of an image the filter sees the same window exactly where the
part either holds the whole window or ends where the image ends.
-/

namespace LocalFilter

/-- The position nearest to the given one in a row of `size` positions. -/
def clamp (size position : Int) : Int := max 0 (min position (size - 1))

/-- The pixels around a position, by row and column. -/
abbrev Window (radius : Nat) (α : Type) := Fin (2 * radius + 1) → Fin (2 * radius + 1) → α

/-- What a filter computes from the column phase, the row phase and the window. -/
abbrev Kernel (radius : Nat) (α : Type) := Int → Int → Window radius α → α

variable {α : Type} {radius : Nat}

/-- The window of an image around a position. -/
def window (radius : Nat) (width height : Int) (pixels : Int → Int → α) (x y : Int) :
    Window radius α :=
  fun row column =>
    pixels (clamp width (x + column.val - radius)) (clamp height (y + row.val - radius))

/-- The image a filter computes, `scale` times as wide and as high. -/
def filter (kernel : Kernel radius α) (scale width height : Int) (pixels : Int → Int → α)
    (x y : Int) : α :=
  kernel (x % scale) (y % scale) (window radius width height pixels (x / scale) (y / scale))

theorem clamp_mem {size : Int} (position : Int) (positive : 0 < size) :
    0 ≤ clamp size position ∧ clamp size position < size := by
  simp only [clamp]
  omega

/-- The part of an image that starts at `origin` with `extent` positions has, at an
offset from `position`, the pixel the image has there. -/
def SeesAt (size origin extent position offset : Int) : Prop :=
  origin + clamp extent (position - origin + offset) = clamp size (position + offset)

/-- The part sees what the image has when it reaches that far or ends with it. -/
theorem seesAt_of_context {size origin extent position offset : Int} (positive : 0 < extent)
    (originNonneg : 0 ≤ origin) (inside : origin + extent ≤ size)
    (before : origin = 0 ∨ origin ≤ position + offset)
    (after : origin + extent = size ∨ position + offset < origin + extent) :
    SeesAt size origin extent position offset := by
  simp only [SeesAt, clamp]
  omega

/-- The filter computes the same pixel on a part of an image as on the whole image
when the part sees the whole window. -/
theorem filter_part {kernel : Kernel radius α} {scale width height : Int}
    {left top partWidth partHeight : Int} {pixels part : Int → Int → α} {x y : Int}
    (widthPos : 0 < partWidth) (heightPos : 0 < partHeight)
    (cut : ∀ column row, 0 ≤ column → column < partWidth → 0 ≤ row → row < partHeight →
      part column row = pixels (left + column) (top + row))
    (seesX : ∀ column : Fin (2 * radius + 1),
      SeesAt width left partWidth (x / scale) (column.val - radius))
    (seesY : ∀ row : Fin (2 * radius + 1),
      SeesAt height top partHeight (y / scale) (row.val - radius))
    (scalePos : 0 < scale) :
    filter kernel scale partWidth partHeight part (x - left * scale) (y - top * scale) =
      filter kernel scale width height pixels x y := by
  have phaseX : (x - left * scale) % scale = x % scale := Int.sub_mul_emod_self_right x left scale
  have phaseY : (y - top * scale) % scale = y % scale := Int.sub_mul_emod_self_right y top scale
  have columnEq : (x - left * scale) / scale = x / scale - left :=
    Int.sub_mul_ediv_right x left (Int.ne_of_gt scalePos)
  have rowEq : (y - top * scale) / scale = y / scale - top :=
    Int.sub_mul_ediv_right y top (Int.ne_of_gt scalePos)
  have same : window radius partWidth partHeight part (x / scale - left) (y / scale - top) =
      window radius width height pixels (x / scale) (y / scale) := by
    funext row column
    have seenX := seesX column
    have seenY := seesY row
    simp only [SeesAt] at seenX seenY
    have insideX := clamp_mem (x / scale - left + column.val - radius) widthPos
    have insideY := clamp_mem (y / scale - top + row.val - radius) heightPos
    simp only [window]
    rw [cut _ _ insideX.1 insideX.2 insideY.1 insideY.2]
    rw [Int.add_sub_assoc, Int.add_sub_assoc, seenX, seenY, Int.add_sub_assoc, Int.add_sub_assoc]
  simp only [filter, phaseX, phaseY, columnEq, rowEq, same]

end LocalFilter
