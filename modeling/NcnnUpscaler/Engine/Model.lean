import NcnnUpscaler.Options

/-!
# Choosing and loading a model

`choose_model`, `load_model` and `get_scale_factor` of the two engines.  The model
root is a predicate telling which file names exist under it, and loading a file is
a parameter that returns the code `ncnn::Net` returns.
-/

namespace NcnnUpscaler.Engine

/-- `quality_to_noise`. -/
def qualityToNoise (quality : String) : Int :=
  match quality.toList with
  | [] => -1
  | front :: _ =>
      match front.toUpper with
      | 'F' => -1
      | 'E' => 0
      | 'Q' => 1
      | 'H' => 2
      | _ => -1

/-- `current_options_` once `init` has copied the options and `on_options_loaded`
has run. -/
def currentOptions (opts : Options) : Options :=
  match opts.engine with
  | .realCUGAN =>
      if opts.noiseLevel < 0 then { opts with noiseLevel := qualityToNoise opts.quality }
      else opts
  | .realESRGAN => opts

/-- `choose_model`, on the current options. -/
def chooseModel (current : Options) : String :=
  match current.engine with
  | .realCUGAN =>
      match current.noiseLevel with
      | -1 => "up2x-no-denoise"
      | 0 => "up2x-denoise1x"
      | 1 => "up2x-denoise2x"
      | 2 => "up2x-denoise3x"
      | _ => "up2x-conservative"
  | .realESRGAN =>
      if current.modelName ≠ "" then
        current.modelName
      else
        match current.scale with
        | 2 => "realesr-animevideov3-x2"
        | 3 => "realesr-animevideov3-x3"
        | 4 => "realesr-animevideov3-x4"
        | _ => "realesr-animevideov3-x2"

/-- `fallback_model_name`. -/
def fallbackModelName : EngineType → String
  | .realCUGAN => "up2x-conservative"
  | .realESRGAN => "realesr-animevideov3-x2"

/-- `get_scale_factor`, on the current options. -/
def getScaleFactor (current : Options) : Int :=
  match current.engine with
  | .realCUGAN => 2
  | .realESRGAN => current.scale

/-- `ncnn::Net` as `load_model` uses it: the codes its two calls return. -/
structure NetLoader where
  loadParam : String → Int
  loadModel : String → Int

/-- Both files of a model exist under the model root. -/
def Present (files : String → Bool) (base : String) : Prop :=
  files (base ++ ".param") = true ∧ files (base ++ ".bin") = true

instance (files : String → Bool) (base : String) : Decidable (Present files base) :=
  inferInstanceAs (Decidable (_ ∧ _))

/-- The basename of the files `load_model` opens: the fallback's when one of the
chosen model's files is missing. -/
def modelBase (current : Options) (files : String → Bool) : String :=
  if Present files (chooseModel current) then chooseModel current
  else fallbackModelName current.engine

/-- `load_model`, where no lookup of a file throws (`loadModelRaises`): the basename of the
model it loads, when it returns true. -/
def loadModel (current : Options) (files : String → Bool) (net : NetLoader) : Option String :=
  let base := modelBase current files
  if ¬Present files base then
    none
  else if net.loadParam (base ++ ".param") ≠ 0 then
    none
  else if net.loadModel (base ++ ".bin") ≠ 0 then
    none
  else
    some base

/-! ## Where the file system throws -/

/-- `operator/` of `std::filesystem::path`. -/
def joinPath (root name : String) : String :=
  if name.toList.head? = some '/' then name
  else if root = "" ∨ root.toList.getLast? = some '/' then root ++ name
  else root ++ "/" ++ name

/-- One of `exists(param)` and, where that holds, `exists(bin)` throws. -/
def lookupRaises (files raises : String → Bool) (base : String) : Bool :=
  raises (base ++ ".param") || (files (base ++ ".param") && raises (base ++ ".bin"))

/-- `load_model` ends with what `std::filesystem::exists` throws: at a file of the chosen
model, or of the one it goes on with. -/
def loadModelRaises (current : Options) (files raises : String → Bool) : Bool :=
  lookupRaises files raises (chooseModel current) ||
    lookupRaises files raises (modelBase current files)

theorem loadModelRaises_of_quiet {current : Options} {files raises : String → Bool}
    (quiet : ∀ file, raises file = false) : loadModelRaises current files raises = false := by
  simp only [loadModelRaises, lookupRaises, quiet, Bool.and_false, Bool.or_self]

/-! ## The magnification in a model's name -/

/-- The number a nonempty string of digits denotes. -/
def digitsValue (digits : List Char) : Option Int :=
  if digits = [] then none
  else some (digits.foldl (fun value digit => value * 10 + (digit.toNat - '0'.toNat : Nat)) 0)

/-- The `N` of the suffix `-xN`. -/
def suffixScale (name : List Char) : Option Int :=
  let digits := (name.reverse.takeWhile Char.isDigit).reverse
  match name.reverse.dropWhile Char.isDigit with
  | 'x' :: '-' :: _ => digitsValue digits
  | _ => none

/-- The `N` of the prefix `upNx-`. -/
def prefixScale : List Char → Option Int
  | 'u' :: 'p' :: rest =>
      match rest.dropWhile Char.isDigit with
      | 'x' :: '-' :: _ => digitsValue (rest.takeWhile Char.isDigit)
      | _ => none
  | _ => none

/-- The native magnification of a model, from its basename. -/
def nativeScale (base : String) : Option Int :=
  match suffixScale base.toList with
  | some scale => some scale
  | none => prefixScale base.toList

/-! ## Agreement of the model with the scale factor -/

theorem loadModel_eq_some {current : Options} {files : String → Bool} {net : NetLoader}
    {base : String} (loaded : loadModel current files net = some base) :
    base = modelBase current files := by
  simp only [loadModel] at loaded
  split at loaded
  · cases loaded
  · split at loaded
    · cases loaded
    · split at loaded
      · cases loaded
      · exact (Option.some.inj loaded).symm

/-- Every model RealCUGAN can choose magnifies twice. -/
theorem nativeScale_realCUGAN {current : Options} (engineEq : current.engine = .realCUGAN) :
    nativeScale (chooseModel current) = some 2 := by
  simp only [chooseModel, engineEq]
  split <;> decide

/-- The model RealESRGAN chooses by scale. -/
theorem chooseModel_realESRGAN {current : Options} (engineEq : current.engine = .realESRGAN)
    (unnamed : current.modelName = "") :
    chooseModel current =
      if current.scale = 3 then "realesr-animevideov3-x3"
      else if current.scale = 4 then "realesr-animevideov3-x4"
      else "realesr-animevideov3-x2" := by
  simp only [chooseModel, engineEq, unnamed, ne_eq, not_true_eq_false, if_false]
  split
  · next scaleEq => rw [scaleEq]; rfl
  · next scaleEq => rw [scaleEq]; rfl
  · next scaleEq => rw [scaleEq]; rfl
  · next not2 not3 not4 => rw [if_neg not3, if_neg not4]

/-- Both fallbacks magnify twice. -/
theorem nativeScale_fallback (engine : EngineType) :
    nativeScale (fallbackModelName engine) = some 2 := by
  cases engine <;> decide

/-- Whatever files are missing, RealCUGAN opens a model that magnifies twice. -/
theorem nativeScale_modelBase_realCUGAN {current : Options} (files : String → Bool)
    (engineEq : current.engine = .realCUGAN) :
    nativeScale (modelBase current files) = some 2 := by
  simp only [modelBase]
  split
  · exact nativeScale_realCUGAN engineEq
  · exact nativeScale_fallback current.engine

/-- A model of RealESRGAN whose files exist is opened; otherwise the fallback is,
which magnifies twice. -/
theorem nativeScale_modelBase_realESRGAN {current : Options} (files : String → Bool)
    {base : String} {scale : Int} (chosen : chooseModel current = base)
    (native : nativeScale base = some scale) :
    nativeScale (modelBase current files) = some (if Present files base then scale else 2) := by
  simp only [modelBase, chosen]
  split
  · exact native
  · exact nativeScale_fallback current.engine

theorem currentOptions_engine (opts : Options) : (currentOptions opts).engine = opts.engine := by
  simp only [currentOptions]
  split
  · split <;> rfl
  · rfl

/-- `on_options_loaded` changes nothing RealESRGAN reads. -/
theorem currentOptions_realESRGAN {opts : Options} (engineEq : opts.engine = .realESRGAN) :
    currentOptions opts = opts := by
  simp only [currentOptions, engineEq]

/-- Agreement when RealESRGAN chooses a model of some magnification: the scale is
two, or it is that magnification and the model's files exist. -/
theorem agrees_iff {files : String → Bool} {base : String} {native scale : Int} :
    some (if Present files base then native else 2) = some scale ↔
      (scale = native ∧ Present files base) ∨ (scale = 2 ∧ ¬Present files base) := by
  split
  · next present => simp [present, eq_comm]
  · next missing => simp [missing, eq_comm]

/-- The loaded model's magnification is the scale factor exactly when the engine
is RealCUGAN, when the scale is two, and when the scale is three or four and both
files of that model exist. -/
theorem model_scale_iff (opts : Options) (unnamed : opts.modelName = "")
    (files : String → Bool) (net : NetLoader) {base : String}
    (loaded : loadModel (currentOptions opts) files net = some base) :
    nativeScale base = some (getScaleFactor (currentOptions opts)) ↔
      opts.engine = .realCUGAN ∨ opts.scale = 2 ∨
        (opts.scale = 3 ∧ Present files "realesr-animevideov3-x3") ∨
        (opts.scale = 4 ∧ Present files "realesr-animevideov3-x4") := by
  rw [loadModel_eq_some loaded]
  cases engineEq : opts.engine with
  | realCUGAN =>
      have currentEngine := (currentOptions_engine opts).trans engineEq
      rw [nativeScale_modelBase_realCUGAN files currentEngine]
      simp only [getScaleFactor, currentEngine, true_or]
  | realESRGAN =>
      have chosen := chooseModel_realESRGAN engineEq unnamed
      rw [currentOptions_realESRGAN engineEq]
      simp only [getScaleFactor, engineEq, reduceCtorEq, false_or]
      by_cases three : opts.scale = 3
      · have native : nativeScale "realesr-animevideov3-x3" = some 3 := by decide
        rw [if_pos three] at chosen
        rw [nativeScale_modelBase_realESRGAN files chosen native, agrees_iff,
          three]
        simp
      · by_cases four : opts.scale = 4
        · have native : nativeScale "realesr-animevideov3-x4" = some 4 := by decide
          rw [if_neg three, if_pos four] at chosen
          rw [nativeScale_modelBase_realESRGAN files chosen native,
            agrees_iff, four]
          simp
        · have native : nativeScale "realesr-animevideov3-x2" = some 2 := by decide
          rw [if_neg three, if_neg four] at chosen
          rw [nativeScale_modelBase_realESRGAN files chosen native]
          simp [three, four, eq_comm]

/-- RealESRGAN at scale four, with the files of that model. -/
theorem model_scale_iff_x4 :
    nativeScale "realesr-animevideov3-x4" =
        some (getScaleFactor (currentOptions { engine := .realESRGAN, scale := 4 })) ↔
      EngineType.realESRGAN = .realCUGAN ∨ (4 : Int) = 2 ∨
        ((4 : Int) = 3 ∧ Present (fun _ => true) "realesr-animevideov3-x3") ∨
        ((4 : Int) = 4 ∧ Present (fun _ => true) "realesr-animevideov3-x4") :=
  model_scale_iff { engine := .realESRGAN, scale := 4 } rfl (fun _ => true)
    ⟨fun _ => 0, fun _ => 0⟩ (by decide)

/-- RealESRGAN at scale four where only the files of the x2 model exist: the model
that is loaded magnifies twice, and the scale factor is four. -/
theorem model_scale_mismatch :
    ∃ (opts : Options) (files : String → Bool) (net : NetLoader) (base : String),
      opts.Accepted ∧ opts.modelName = "" ∧
        loadModel (currentOptions opts) files net = some base ∧
          nativeScale base = some 2 ∧ getScaleFactor (currentOptions opts) = 4 := by
  refine ⟨{ engine := .realESRGAN, scale := 4 },
    fun file => file = "realesr-animevideov3-x2.param" ∨ file = "realesr-animevideov3-x2.bin",
    ⟨fun _ => 0, fun _ => 0⟩, "realesr-animevideov3-x2", ?_, ?_, ?_, ?_, ?_⟩ <;> decide

end NcnnUpscaler.Engine
