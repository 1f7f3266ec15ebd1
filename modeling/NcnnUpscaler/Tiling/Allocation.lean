import NcnnUpscaler.Tiling.Config
import NcnnUpscaler.Tiling.Wrapping

/-!
# The size of the output buffer

`process_with_tiling` sizes its output in `int`, and `blend_tile` addresses it in
`size_t`.  What is written for tiles that the engine returns at exactly their scaled
size stays inside the buffer exactly when the size does not wrap around.
-/

namespace NcnnUpscaler.Tiling

open Raster MachineInt Engine

/-- What the loop writes for a tile that the engine returned exactly scaled. -/
def tileWrites (config : TilingConfig) (width height : Int) (tile : Tile) : List Copy :=
  let wrapped := wrappedTile tile
  let region := wrappedRegion config wrapped (int32 (tile.width * config.scaleFactor))
    (int32 (tile.height * config.scaleFactor))
  if region.blendWidth ≤ 0 ∨ region.blendHeight ≤ 0 then
    []
  else
    wrappedCopies region.blendWidth region.blendHeight wrapped (outputExtent config width)
      (outputExtent config height)

/-- The output buffer has the size of the scaled image, and what is written into it is
inside. -/
structure HoldsOutput (config : TilingConfig) (width height : Int) : Prop where
  size_eq : outputBytes config width height =
    width * config.scaleFactor * (height * config.scaleFactor) * 3
  inside : ∀ tile ∈ calculateTiles width height config,
    ∀ copy ∈ tileWrites config width height tile, ∀ index, copy.Covers index →
      0 ≤ index ∧ index < outputBytes config width height

/-- Blending at a corner inside the output writes inside it. -/
theorem blendCopies_inside {tileWidth tileHeight outputWidth outputHeight : Int} {tile : Tile}
    (cornerX : 0 ≤ tile.outputX ∧ tile.outputX < outputWidth) (cornerY : 0 ≤ tile.outputY) :
    ∀ copy ∈ blendCopies tileWidth tileHeight tile outputWidth outputHeight,
      0 ≤ copy.dst ∧ copy.dst + copy.len ≤ outputWidth * outputHeight * 3 := by
  simp only [blendCopies]
  split
  · intro copy none
    exact absurd none List.not_mem_nil
  · intro copy member
    rcases List.mem_map.mp member with ⟨y, inRange, copyEq⟩
    subst copyEq
    have yLt := List.mem_range.mp inRange
    have rowNonneg : 0 ≤ (tile.outputY + y) * outputWidth :=
      Int.mul_nonneg (by omega) (by omega)
    have rowLe := Int.mul_le_mul_of_nonneg_right
      (by omega : tile.outputY + y + 1 ≤ outputHeight) (by omega : 0 ≤ outputWidth)
    rw [Int.add_mul _ 1, Int.one_mul, Int.mul_comm outputHeight] at rowLe
    simp only
    omega

/-- In an image whose scaled size fits an `int`, nothing is written outside. -/
theorem tileWrites_inside {width height : Int} {config : TilingConfig} (valid : config.Valid)
    (widthPos : 1 ≤ width) (heightPos : 1 ≤ height)
    (small : scaledBytes config width height < 2 ^ 31)
    {tile : Tile} (made : tile ∈ calculateTiles width height config) :
    ∀ copy ∈ tileWrites config width height tile, 0 ≤ copy.dst ∧
      copy.dst + copy.len ≤ scaledBytes config width height := by
  have scalePos := valid.scale_pos
  rcases outputCorner_inside valid widthPos heightPos made with ⟨cornerX, cornerY⟩
  rcases outputExtent_eq valid widthPos heightPos small with ⟨⟨_, widthLt⟩, _, heightLt⟩
  rcases mem_calculateTiles.mp made with ⟨tx, ty, txLt, tyLt, tileEq⟩
  have inside := tileAt_inside valid widthPos heightPos txLt tyLt
  rw [← tileEq] at inside
  rcases inside with ⟨xNonneg, yNonneg, tileWidth, tileHeight, right, bottom⟩
  have widthNonneg : 0 ≤ tile.width * config.scaleFactor := Int.mul_nonneg (by omega) (by omega)
  have heightNonneg : 0 ≤ tile.height * config.scaleFactor :=
    Int.mul_nonneg (by omega) (by omega)
  have widthLe : tile.width * config.scaleFactor ≤ width * config.scaleFactor :=
    Int.mul_le_mul_of_nonneg_right (by omega) (by omega)
  have heightLe : tile.height * config.scaleFactor ≤ height * config.scaleFactor :=
    Int.mul_le_mul_of_nonneg_right (by omega) (by omega)
  let upscaled : ImagePixels :=
    { width := tile.width * config.scaleFactor, height := tile.height * config.scaleFactor
      channels := 3, pixels := [] }
  have upscaledWidth : int32 (tile.width * config.scaleFactor) = upscaled.width :=
    int32_eq_self (by omega) (by omega)
  have upscaledHeight : int32 (tile.height * config.scaleFactor) = upscaled.height :=
    int32_eq_self (by omega) (by omega)
  rcases @placed_eq config valid _ _ widthPos heightPos small tile made upscaled
    ⟨widthNonneg, Int.lt_of_le_of_lt widthLe widthLt⟩
    ⟨heightNonneg, Int.lt_of_le_of_lt heightLe heightLt⟩ with ⟨regionEq, copiesEq⟩
  simp only [tileWrites, wrappedTile_eq valid widthPos heightPos small made, upscaledWidth,
    upscaledHeight, regionEq]
  split
  · intro copy none
    exact absurd none List.not_mem_nil
  · rw [copiesEq (by omega)]
    exact blendCopies_inside cornerX cornerY.1

/-- `process_with_tiling` sizes its output right and keeps to it, when it tiles. -/
def AllocatesOutput (config : TilingConfig) (width height : Int) : Prop :=
  shouldEnableTiling width height config = true → HoldsOutput config width height

theorem holdsOutput_iff {width height : Int} {config : TilingConfig} (valid : config.Valid)
    (widthPos : 1 ≤ width) (heightPos : 1 ≤ height) :
    HoldsOutput config width height ↔ scaledBytes config width height < 2 ^ 31 := by
  have sizeIff := outputBytes_eq_iff valid widthPos heightPos
  constructor
  · intro holds
    exact sizeIff.mp holds.size_eq
  · intro small
    refine ⟨sizeIff.mpr small, ?_⟩
    intro tile made copy member index covers
    have bounds := tileWrites_inside valid widthPos heightPos small made copy member
    rw [sizeIff.mpr small]
    simp only [Copy.Covers] at covers
    omega

/-- The output buffer is as large as what is written into it exactly when the image is
not tiled or its scaled size is less than `2 ^ 31` bytes. -/
theorem allocates_output_iff (opts : Options) (accepted : opts.Accepted) (igpuProfile : Bool)
    {width height : Int} (widthPos : 1 ≤ width) (heightPos : 1 ≤ height) :
    let config := getTilingConfig (currentOptions opts) igpuProfile
    AllocatesOutput config width height ↔
      shouldEnableTiling width height config = false ∨
        scaledBytes config width height < 2 ^ 31 := by
  intro config
  have valid := getTilingConfig_valid_of_accepted accepted igpuProfile
  have holds : HoldsOutput config width height ↔ scaledBytes config width height < 2 ^ 31 :=
    holdsOutput_iff valid widthPos heightPos
  simp only [AllocatesOutput, holds]
  cases shouldEnableTiling width height config with
  | false => simp
  | true => simp

/-- The defaults on a page of 4000 by 3000 pixels, which is tiled. -/
theorem allocates_output_iff_page :
    AllocatesOutput (getTilingConfig (currentOptions {}) false) 4000 3000 ↔
      shouldEnableTiling 4000 3000 (getTilingConfig (currentOptions {}) false) = false ∨
        scaledBytes (getTilingConfig (currentOptions {}) false) 4000 3000 < 2 ^ 31 :=
  allocates_output_iff {} (by decide) false (by decide) (by decide)

/-- The defaults on a page of 20000 by 20000 pixels, which the decoder lets through: the
buffer has 505032704 bytes, and a tile of the last row is written behind its end. -/
theorem output_buffer_too_small :
    let config := getTilingConfig (currentOptions {}) false
    ((20000 : Int) ≤ 2 ^ 24 ∧ (20000 : Int) * 20000 * 3 ≤ 2 ^ 31 - 1) ∧
      ¬AllocatesOutput config 20000 20000 ∧
      outputBytes config 20000 20000 = 505032704 ∧
      ∃ tile ∈ calculateTiles 20000 20000 config,
        ∃ copy ∈ tileWrites config 20000 20000 tile, copy.Covers 4730880000 := by
  refine ⟨by decide, ?_, by decide, ?_⟩
  · intro allocates
    exact absurd (allocates (by decide)).size_eq (by decide)
  · refine ⟨tileAt 20000 20000 _ 0 41, mem_calculateTiles.mpr ⟨0, 41, by decide, by decide, rfl⟩,
      ⟨4730880000, 0, 3072⟩, ?_, by decide⟩
    decide +kernel

end NcnnUpscaler.Tiling
