import Mathlib.Tactic.Common

/-!
# Command-line options

The fields of `Options` that the modelled code reads, with the defaults of
`options.hpp`, and the checks `parse_options` makes once the argument parser has
filled them in.
-/

namespace NcnnUpscaler

/-- `to_lower`, in the "C" locale: ASCII letters only. -/
def toLower (text : String) : String := String.ofList (text.toList.map Char.toLower)

/-- `Options::EngineType`. -/
inductive EngineType where
  | realCUGAN
  | realESRGAN
  deriving DecidableEq, Repr

/-- `Options`, without the fields that only select a mode or a log level. -/
structure Options where
  engine : EngineType := .realCUGAN
  gpuId : String := "auto"
  tileSize : Int := 0
  maxBatchItems : Int := 8
  scale : Int := 2
  noiseLevel : Int := -1
  quality : String := "E"
  model : String := "models/realcugan/models-se"
  modelName : String := ""
  outputFormat : String := "webp"
  deriving DecidableEq, Repr

namespace Options

/-- What `parse_options` prints when it refuses the options; `none` when it
returns true. -/
def rejection (opts : Options) : Option String :=
  if opts.scale ≤ 0 then
    some ("Invalid arguments: --scale must be > 0 (got " ++ toString opts.scale ++ ")\n")
  else if opts.tileSize < 0 then
    some ("Invalid arguments: --tile-size must be >= 0 (got " ++ toString opts.tileSize ++
      ")\n")
  else if opts.maxBatchItems ≤ 0 then
    some ("Invalid arguments: --max-batch-items must be > 0 (got " ++
      toString opts.maxBatchItems ++ ")\n")
  else
    none

/-- The options `parse_options` lets through to the engine. -/
def Accepted (opts : Options) : Prop := opts.rejection = none

instance (opts : Options) : Decidable opts.Accepted :=
  inferInstanceAs (Decidable (opts.rejection = none))

theorem accepted_iff (opts : Options) :
    opts.Accepted ↔ 0 < opts.scale ∧ 0 ≤ opts.tileSize ∧ 0 < opts.maxBatchItems := by
  simp only [Accepted, rejection]
  split
  · simp
    omega
  · split
    · simp
      omega
    · split
      · simp
        omega
      · simp
        omega

/-- The defaults pass the checks. -/
example : ({} : Options).Accepted := by decide

end Options

end NcnnUpscaler
