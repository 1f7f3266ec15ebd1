import NcnnUpscaler.Image.Codec
import NcnnUpscaler.Program.Modes
import NcnnUpscaler.Service.Refinement

/-!
# main

The whole program: the options, the engine with its image libraries, the mode and the
destructor.  What holds of it for every command line, every input and whatever ncnn and
the libraries do: the GPU's resources are given back, the network is given nothing larger
than the options allow, and no memory outside a buffer is accessed while sizes fit an
`int`.  What the file system throws is caught nowhere, and aborts the program before any
destructor runs.
-/

namespace NcnnUpscaler.Program

open Wire Raster Protocol Tiling KeepAlive Service
open Engine (EngineState Platform Present getScaleFactor currentOptions modelPath)
open Image (DecodedImage Libraries decodeImage imageIo decodeImage_decoded)

/-- What the program runs in: the machine with its GPUs and model files, ncnn, the image
libraries and the file system. -/
structure Surroundings (δ ν ω ρ φ : Type) where
  platform : Platform δ ν
  net : Net ω ν
  libraries : Libraries ρ
  system : FileSystem φ

variable {δ ν ω ρ φ σ : Type}

/-- The destructor of an engine. -/
def destroy (machine : Machine δ ν ω) : Machine δ ν ω :=
  { machine with engine := machine.engine.cleanup }

/-- What `make_engine` leads to: an exception, what the destructor has left of an engine
whose `init` returned false, or an engine. -/
inductive Made (σ : Type) where
  | raised
  | destroyed (engine : σ)
  | started (engine : σ)

/-- `make_engine`, where `std::filesystem::exists` throws at the paths that `raises`
tells. -/
def makeEngine (platform : Platform δ ν) (raises : String → Bool) (opts : Options) (world : ω) :
    Made (Machine δ ν ω) :=
  if EngineState.initRaises platform raises opts then .raised
  else
    let engine := boot platform opts world
    if ((EngineState.start platform).init platform opts).1 then .started engine
    else .destroyed (destroy engine)

/-- The engine that is left, if there was one, has the property. -/
def Finished.Leaves (done : Finished φ (Option σ)) (property : σ → Prop) : Prop :=
  ∀ left ∈ done.engine, property left

/-- `main`, with what is left of the engine that `make_engine` made, if it made one.  An
aborted program runs no destructor. -/
def main (around : Surroundings δ ν ω ρ φ) (parsed : Parsed) (stdin : Bytes) (files : φ)
    (world : ω) : Finished φ (Option (Machine δ ν ω)) :=
  match parseOptions parsed with
  | .error refusal =>
      { exitCode := some 1, stdout := text refusal.stdout, files, engine := none }
  | .ok command =>
      match makeEngine around.platform (around.system.existsRaises files) command.toOptions
        world with
      | .raised => { exitCode := none, files, engine := none }
      | .destroyed engine => { exitCode := some 1, files, engine := some engine }
      | .started engine =>
          let done := runMode around.system (Machine.keepAliveEngine around.net
            (imageIo around.libraries)) command stdin files engine
          { done with
            engine := some (if done.exitCode = none then done.engine else destroy done.engine) }

/-- How `main` ends on an accepted command line: aborted in `make_engine`, without an engine
from it, or as its mode does. -/
theorem main_cases (around : Surroundings δ ν ω ρ φ) {parsed : Parsed} {command : Command}
    (parsedEq : parseOptions parsed = .ok command) (stdin : Bytes) (files : φ) (world : ω) :
    let raises := EngineState.initRaises around.platform (around.system.existsRaises files)
      command.toOptions
    let inits := ((EngineState.start around.platform).init around.platform command.toOptions).1
    let engine := boot around.platform command.toOptions world
    let done := main around parsed stdin files world
    (raises = true ∧ done = { exitCode := none, files, engine := none }) ∨
      (raises = false ∧ inits = false ∧
        done = { exitCode := some 1, files, engine := some (destroy engine) }) ∨
      raises = false ∧ inits = true ∧
        let moded := runMode around.system (Machine.keepAliveEngine around.net
          (imageIo around.libraries)) command stdin files engine
        done = { moded with
          engine :=
            some (if moded.exitCode = none then moded.engine else destroy moded.engine) } := by
  simp only [main, parsedEq, makeEngine]
  cases EngineState.initRaises around.platform (around.system.existsRaises files)
    command.toOptions with
  | true => exact .inl ⟨rfl, rfl⟩
  | false =>
      cases ((EngineState.start around.platform).init around.platform command.toOptions).1 with
      | false => exact .inr (.inl ⟨rfl, rfl, rfl⟩)
      | true => exact .inr (.inr ⟨rfl, rfl, rfl⟩)

/-! ## The engine's part in a run -/

/-- An image that the program is given to process. -/
def Given (system : FileSystem φ) (command : Command) (stdin : Bytes) (files : φ)
    (image : Bytes) : Prop :=
  match command.mode with
  | .file => readEntireFile system files command.inputPath = some image
  | .stdin => if command.keepAlive then AsksFor command.toOptions stdin image else image = stdin

section Simulation

variable {τ : Type} {left : Engine σ} {right : Engine τ} {command : Command} {files : φ}
  {Asked : Bytes → Prop} {Related : σ → τ → Prop}
  (simulates : left.Simulates right command.outputFormat Asked Related)
  {state : σ} {other : τ} (related : Related state other)
include simulates related

theorem runFileMode_simulates {system : FileSystem φ}
    (asked : ∀ image, readEntireFile system files command.inputPath = some image →
      Asked image) :
    let done := runFileMode system left command files state
    let otherDone := runFileMode system right command files other
    done.exitCode = otherDone.exitCode ∧ done.stdout = otherDone.stdout ∧
      done.files = otherDone.files ∧ Related done.engine otherDone.engine := by
  simp only [runFileMode]
  split
  · exact ⟨rfl, rfl, rfl, related⟩
  · cases input : readEntireFile system files command.inputPath with
    | none => exact ⟨rfl, rfl, rfl, related⟩
    | some image =>
        have same := simulates.output (asked image input) related
        have after := simulates.related (asked image input) related
        simp only
        split
        · exact ⟨rfl, rfl, rfl, related⟩
        · generalize left.processSingle state image command.outputFormat = first at same after
          generalize right.processSingle other image command.outputFormat = second at same after
          rcases first with ⟨next, output⟩
          rcases second with ⟨otherNext, otherOutput⟩
          cases same
          cases output with
          | none => exact ⟨rfl, rfl, rfl, after⟩
          | some bytes =>
              simp only
              split
              · exact ⟨rfl, rfl, rfl, after⟩
              · exact ⟨rfl, rfl, rfl, after⟩

theorem runStdinMode_simulates {stdin : Bytes}
    (asked : ∀ image, (if command.keepAlive then AsksFor command.toOptions stdin image
      else image = stdin) → Asked image) :
    let done := runStdinMode left command stdin files state
    let otherDone := runStdinMode right command stdin files other
    done.exitCode = otherDone.exitCode ∧ done.stdout = otherDone.stdout ∧
      done.files = otherDone.files ∧ Related done.engine otherDone.engine := by
  simp only [runStdinMode, readAllStream_eq, List.nil_append]
  cases alive : command.keepAlive with
  | true =>
      simp only [alive, if_true] at asked
      rcases run_simulates simulates asked related with ⟨traceEq, engines⟩
      simp only [not_true_eq_false, if_false]
      exact ⟨trivial, by rw [traceEq], trivial, engines⟩
  | false =>
      simp only [alive, Bool.false_eq_true, if_false] at asked
      have same := simulates.output (asked stdin rfl) related
      have after := simulates.related (asked stdin rfl) related
      simp only [Bool.false_eq_true, not_false_eq_true, if_true]
      split
      · exact ⟨rfl, rfl, rfl, related⟩
      · generalize left.processSingle state stdin command.outputFormat = first at same after
        generalize right.processSingle other stdin command.outputFormat = second at same after
        rcases first with ⟨next, output⟩
        rcases second with ⟨otherNext, otherOutput⟩
        cases same
        cases output with
        | none => exact ⟨rfl, rfl, rfl, after⟩
        | some bytes => exact ⟨rfl, rfl, rfl, after⟩

end Simulation

/-- Engines that answer alike the images the program is given end a mode alike. -/
theorem runMode_simulates {τ : Type} {system : FileSystem φ} {left : Engine σ}
    {right : Engine τ} {command : Command} {stdin : Bytes} {files : φ} {Related : σ → τ → Prop}
    (simulates : left.Simulates right command.outputFormat (Given system command stdin files)
      Related) {state : σ} {other : τ} (related : Related state other) :
    let done := runMode system left command stdin files state
    let otherDone := runMode system right command stdin files other
    done.exitCode = otherDone.exitCode ∧ done.stdout = otherDone.stdout ∧
      done.files = otherDone.files ∧ Related done.engine otherDone.engine := by
  simp only [runMode]
  cases modeEq : command.mode with
  | file =>
      apply runFileMode_simulates simulates related
      intro image input
      simp only [Given, modeEq]
      exact input
  | stdin =>
      apply runStdinMode_simulates simulates related
      intro image asked
      simp only [Given, modeEq]
      exact asked

/-- What the calls to the engine keep, a mode keeps. -/
theorem runMode_keeps {system : FileSystem φ} {engine : Engine σ} {command : Command}
    {stdin : Bytes} {files : φ} {Invariant : σ → Prop}
    (single : ∀ state image, Given system command stdin files image → Invariant state →
      Invariant (engine.processSingle state image command.outputFormat).1)
    (clear : ∀ state, Invariant state → Invariant (engine.clearAllocators state))
    {state : σ} (holds : Invariant state) :
    Invariant (runMode system engine command stdin files state).engine :=
  (runMode_simulates (Engine.simulates_self single clear) ⟨rfl, holds⟩).2.2.2.2

/-- What the engine that `main` leaves has been, before its destructor if that has run. -/
theorem main_keeps {around : Surroundings δ ν ω ρ φ} {parsed : Parsed} {command : Command}
    (parsedEq : parseOptions parsed = .ok command) {stdin : Bytes} {files : φ} {world : ω}
    {Invariant : Machine δ ν ω → Prop}
    (single : ∀ machine image, Given around.system command stdin files image →
      Invariant machine → Invariant (machine.processSingle around.net
        (imageIo around.libraries) image command.outputFormat).1)
    (clear : ∀ machine : Machine δ ν ω, Invariant machine → Invariant machine.clearAllocators)
    (booted : Invariant (boot around.platform command.toOptions world)) :
    let done := main around parsed stdin files world
    ∀ left ∈ done.engine, ∃ machine, Invariant machine ∧
      left = if done.exitCode = none then machine else destroy machine := by
  intro done left member
  rcases main_cases around parsedEq stdin files world with
    ⟨_, doneEq⟩ | ⟨_, _, doneEq⟩ | ⟨_, _, doneEq⟩
  · rw [show done = _ from doneEq] at member
    cases member
  · rw [show done = _ from doneEq] at member ⊢
    cases member
    exact ⟨_, booted, rfl⟩
  · rw [show done = _ from doneEq] at member ⊢
    cases member
    exact ⟨_, runMode_keeps single clear booted, rfl⟩

/-- The engine that `main` leaves has gone through a life, or through the part before the
destructor when the program is aborted. -/
theorem main_life (around : Surroundings δ ν ω ρ φ) (parsed : Parsed) (stdin : Bytes)
    (files : φ) (world : ω) :
    let done := main around parsed stdin files world
    ∀ left ∈ done.engine, ∃ opts calls, left.engine =
      if done.exitCode = none then Engine.service around.platform opts calls
      else Engine.life around.platform opts calls 0 := by
  intro done left member
  cases parsedEq : parseOptions parsed with
  | error refusal =>
      have doneEq : done = main around parsed stdin files world := rfl
      simp only [main, parsedEq] at doneEq
      rw [doneEq] at member
      cases member
  | ok command =>
      let start := (boot around.platform command.toOptions world).engine
      have single (machine : Machine δ ν ω) (image : Bytes)
          (_ : Given around.system command stdin files image) (follows : machine.Follows start) :=
        follows.processSingle around.net (imageIo around.libraries) image command.outputFormat
      have clear (machine : Machine δ ν ω) (follows : machine.Follows start) :
          machine.clearAllocators.Follows start :=
        follows.call .clearAllocators rfl
      rcases main_keeps parsedEq single clear ⟨[], rfl⟩ left member with
        ⟨machine, ⟨calls, engineEq⟩, leftEq⟩
      refine ⟨command.toOptions, calls, ?_⟩
      rw [leftEq]
      split
      · exact engineEq
      · rw [Engine.life, Function.iterate_one, Engine.service]
        exact congrArg EngineState.cleanup engineEq

/-! ## A GPU that fails at times -/

/-- A network that shows each pixel's left neighbour at twice the size, on a GPU that
fails at every second inference.  The world counts the inferences. -/
def flakyNet : Net Nat Nat where
  Extractor := Bool × Option ImagePixels
  createExtractor := fun _ opt => (opt.useVulkanCompute, none)
  input := fun ex _ padded => ((ex.1, some padded), 0)
  extract := fun world ex _ =>
    (world + 1,
      if ex.1 = true ∧ world % 2 = 1 then .error
      else
        match ex.2.bind Image.leftNeighbours with
        | some result => .blob result
        | none => .raised)

theorem flakyNet_computes (engine : EngineType) :
    flakyNet.Computes engine Image.leftNeighbours := by
  intro world opt padded valid
  rcases Image.leftNeighbours_isLocal padded valid with ⟨result, inferred, _⟩
  have extracted : (flakyNet.runInferenceImpl engine world opt padded).2 =
      if opt.useVulkanCompute = true ∧ world % 2 = 1 then .error else .blob result := by
    cases engine <;> simp [Net.runInferenceImpl, flakyNet, inferred]
  rw [extracted]
  split
  · next fails => exact .inr ⟨rfl, fails.1⟩
  · exact .inl ⟨result, rfl, inferred⟩

/-- Libraries that decode a byte as one grey pixel, and encode pixels as themselves. -/
def greyLibraries : Libraries Rgb where
  stbiLoadFromMemory := fun data _ => data.head?.map fun byte => ⟨1, 1, [byte, byte, byte]⟩
  webpConfigInit := true
  webpPictureInit := true
  webpPictureImportRgb := fun _ _ pixels _ => some pixels
  webpEncode := fun _ picture => some picture
  stbiWritePngToFunc := fun _ _ _ pixels _ => some pixels
  stbiWriteJpgToFunc := fun _ _ _ pixels _ => some pixels

theorem greyLibraries_loads : greyLibraries.LoadsImages := by
  intro data size image loaded
  cases data with
  | nil => cases loaded
  | cons byte rest =>
      cases loaded
      exact ⟨Int.le_refl 1, Int.le_refl 1, rfl⟩

/-- The arguments of a server. -/
def serverArguments : Arguments := { mode := "stdin", keepAlive := true }

theorem serverArguments_accepted :
    parseOptions (.values serverArguments) = .ok serverArguments.command := by rfl

/-- A machine with that GPU and those libraries, and a file of one byte. -/
def flakyMachine : Surroundings Nat Nat Nat Rgb Bytes where
  platform :=
    { Engine.bareMachine with
      files := fun _ => true
      gpuDevice := fun _ => some 0
      acquireBlobAllocator := fun _ => some 1
      acquireStagingAllocator := fun _ => some 2 }
  net := flakyNet
  libraries := greyLibraries
  system := oneFile

/-! ## When the program is aborted -/

/-- Only the input file aborts a mode. -/
theorem runMode_aborts_iff (system : FileSystem φ) (engine : Engine σ) (command : Command)
    (stdin : Bytes) (files : φ) (state : σ) :
    (runMode system engine command stdin files state).exitCode = none ↔
      command.mode = .file ∧ command.inputPath ≠ "" ∧ command.outputPath ≠ "" ∧
        readEntireFile system files command.inputPath = none := by
  simp only [runMode]
  cases command.mode with
  | stdin =>
      simp only [runStdinMode, reduceCtorEq, false_and, iff_false]
      split
      · split
        · exact Option.some_ne_none 0
        · split
          · exact Option.some_ne_none 1
          · exact Option.some_ne_none 0
      · exact Option.some_ne_none 0
  | file =>
      simp only [runFileMode, true_and]
      by_cases noPath : command.inputPath = "" ∨ command.outputPath = ""
      · rw [if_pos noPath]
        simp only [reduceCtorEq, false_iff]
        intro given
        exact noPath.elim given.1 given.2.1
      · rw [if_neg noPath]
        have paths : command.inputPath ≠ "" ∧ command.outputPath ≠ "" := not_or.mp noPath
        cases readEntireFile system files command.inputPath with
        | none => simp only [paths, ne_eq, not_false_eq_true, and_self]
        | some inputData =>
            simp only [reduceCtorEq, and_false, iff_false]
            split
            · exact Option.some_ne_none 1
            · split
              · exact Option.some_ne_none 1
              · split
                · exact Option.some_ne_none 1
                · exact Option.some_ne_none 0

/-- The file system throws an exception that aborts the program: when
`std::filesystem::exists` is called while its engine is initialised, or in file mode, with
an engine and both paths, when the input file is looked up and read. -/
def Aborts (around : Surroundings δ ν ω ρ φ) (parsed : Parsed) (files : φ) : Prop :=
  ∃ command, parseOptions parsed = .ok command ∧
    (EngineState.initRaises around.platform (around.system.existsRaises files)
        command.toOptions = true ∨
      ((EngineState.start around.platform).init around.platform command.toOptions).1 = true ∧
        command.mode = .file ∧ command.inputPath ≠ "" ∧ command.outputPath ≠ "" ∧
          readEntireFile around.system files command.inputPath = none)

/-- Otherwise `main` returns a status. -/
theorem main_aborts_iff (around : Surroundings δ ν ω ρ φ) (parsed : Parsed) (stdin : Bytes)
    (files : φ) (world : ω) :
    (main around parsed stdin files world).exitCode = none ↔ Aborts around parsed files := by
  cases parsedEq : parseOptions parsed with
  | error refusal => simp [main, Aborts, parsedEq]
  | ok command =>
      simp only [Aborts, parsedEq, Except.ok.injEq, exists_eq_left']
      rcases main_cases around parsedEq stdin files world with
        ⟨raised, doneEq⟩ | ⟨quiet, unstarted, doneEq⟩ | ⟨quiet, started, doneEq⟩
      · simp only [doneEq, raised, true_or]
      · simp [doneEq, quiet, unstarted]
      · simp only [doneEq, quiet, started, Bool.false_eq_true, false_or, true_and]
        exact runMode_aborts_iff _ _ _ _ _ _

/-- A directory as the input file. -/
example :
    (main { flakyMachine with system := { oneFile with read := fun _ _ => .raised } }
      (.values { input := "pages", output := "page.webp" }) [] [5] 0).exitCode = none := by rfl

/-! ## What the program does with the GPU -/

/-- Whatever the command line, the input, ncnn and the image libraries do, of the engine
that `make_engine` makes: each Vulkan allocator is acquired once at most, every inference
is handed allocators that are live, the engine falls back to the CPU at most once, and
when the program ends without being aborted the engine owns no allocator, since each one
acquired has been reclaimed. -/
theorem program_returns_allocators [DecidableEq ν] (around : Surroundings δ ν ω ρ φ)
    (parsed : Parsed) (stdin : Bytes) (files : φ) (world : ω) :
    let done := main around parsed stdin files world
    done.Leaves fun left =>
      let log := left.engine.log
      (¬Aborts around parsed files → left.engine.owned = [] ∧ ∀ kind allocator,
          log.count (.reclaimed kind allocator) = log.count (.acquired kind allocator)) ∧
        (∀ kind allocator, log.count (.acquired kind allocator) ≤ 1) ∧
        (∀ later useVulkan opt earlier, log = later ++ .inferred useVulkan opt :: earlier →
          ∀ resource, opt.Points resource → (Engine.allocators ν).Held earlier resource) ∧
        log.count .retried ≤ 1 := by
  intro done left member
  rcases main_life around parsed stdin files world left member with ⟨opts, calls, engineEq⟩
  have served := (Engine.serving_service around.platform opts calls).custody
  have sound : Library.Sound (Engine.Allowed (Engine.SwitchKept around.platform opts))
      left.engine.log := by
    rw [engineEq]
    split
    · exact served.sound
    · exact (Engine.custody_life around.platform opts calls 0).sound
  refine ⟨?_, ?_, ?_, ?_⟩
  · intro quiet
    have returned : done.exitCode ≠ none := mt (main_aborts_iff _ _ _ _ _).mp quiet
    rw [if_neg returned] at engineEq
    have balanced := Engine.balanced_life around.platform opts calls 0
    rw [engineEq]
    exact ⟨served.owned_cleanup, fun kind allocator => balanced.settled (kind, allocator)⟩
  · intro kind allocator
    exact sound.count_le_one fun _ fresh => fresh allocator
  · intro later useVulkan opt earlier split
    exact (sound.allowed split).1
  · exact sound.count_le_one fun _ fresh => fresh

/-! ## What the program does with its images -/

theorem decodesImages {libraries : Libraries ρ} (loads : libraries.LoadsImages) :
    DecodesImages (imageIo libraries) := fun _ _ decoded => decodeImage_decoded loads decoded

/-- Whatever it is sent, the program gives the network padded images of even dimensions
that are no larger than its options allow, each with a buffer of its size. -/
theorem program_caps_inputs (around : Surroundings δ ν ω ρ φ) {parsed : Parsed}
    {command : Command} (parsedEq : parseOptions parsed = .ok command)
    (loads : around.libraries.LoadsImages) (stdin : Bytes) (files : φ) (world : ω) :
    (main around parsed stdin files world).Leaves fun left => ∀ input ∈ left.inputs,
      WithinCap (sizeCap command.toOptions left.engine.igpuProfile) input := by
  let start := (boot around.platform command.toOptions world).engine
  have current : start.currentOptions = currentOptions command.toOptions := init_options _ _ _
  have accepted := parseOptions_accepted parsedEq
  have valid : (getTilingConfig start.currentOptions start.igpuProfile).Valid := by
    rw [current]
    exact getTilingConfig_valid_of_accepted accepted _
  have within : (getTilingConfig start.currentOptions start.igpuProfile).Within
      (sizeCap command.toOptions start.igpuProfile) := by
    rw [current]
    exact getTilingConfig_within command.toOptions _
  have single (machine : Machine δ ν ω) (image : Bytes)
      (_ : Given around.system command stdin files image)
      (capped : machine.Capped start (sizeCap command.toOptions start.igpuProfile)) :
      (machine.processSingle around.net (imageIo around.libraries) image
        command.outputFormat).1.Capped start (sizeCap command.toOptions start.igpuProfile) :=
    capped.processSingle valid within (decodesImages loads) image command.outputFormat
  have clear (machine : Machine δ ν ω)
      (capped : machine.Capped start (sizeCap command.toOptions start.igpuProfile)) :
      machine.clearAllocators.Capped start (sizeCap command.toOptions start.igpuProfile) :=
    ⟨capped.follows.call .clearAllocators rfl, capped.inputs⟩
  have booted : (boot around.platform command.toOptions world).Capped start
      (sizeCap command.toOptions start.igpuProfile) :=
    ⟨⟨[], rfl⟩, fun input member => absurd member List.not_mem_nil⟩
  intro left member input inputMember
  rcases main_keeps parsedEq single clear booted left member with ⟨machine, capped, leftEq⟩
  have igpu : left.engine.igpuProfile = start.igpuProfile := by
    rw [leftEq]
    split
    · exact capped.follows.configuration.igpu
    · exact (cleanup_configuration machine.engine).igpu.trans capped.follows.configuration.igpu
  have inputs : left.inputs = machine.inputs := by
    rw [leftEq]
    split
    · rfl
    · rfl
  rw [inputs] at inputMember
  rw [igpu]
  exact capped.inputs input inputMember

/-- The program on that machine, asked for one image. -/
theorem program_caps_inputs_flaky :
    (main flakyMachine (.values serverArguments) plainRequest.encode [5] 0).Leaves
      fun left => ∀ input ∈ left.inputs,
        WithinCap (sizeCap serverArguments.command.toOptions left.engine.igpuProfile) input :=
  program_caps_inputs flakyMachine serverArguments_accepted greyLibraries_loads
    plainRequest.encode [5] 0

theorem sizeCap_le (opts : Options) (igpuProfile : Bool) :
    sizeCap opts igpuProfile ≤ sizeCap opts false := by
  cases igpuProfile with
  | false => exact Int.le_refl _
  | true =>
      simp only [sizeCap]
      split
      · exact Int.le_refl _
      · decide

/-- An engine started on accepted options is safe with a network that magnifies by its
scale, when a padded image of the largest size fits. -/
theorem boot_suited (platform : Platform δ ν) (net : Net ω ν) {opts : Options}
    (accepted : opts.Accepted) (world : ω)
    (magnifies : net.Magnifies opts.engine (getScaleFactor (currentOptions opts)))
    (fits : MagnifiedFits (getScaleFactor (currentOptions opts)) (sizeCap opts false)) :
    Machine.Suited net (boot platform opts world).engine (sizeCap opts false) := by
  have current : (boot platform opts world).engine.currentOptions = currentOptions opts :=
    init_options _ _ _
  have within := getTilingConfig_within opts (boot platform opts world).engine.igpuProfile
  have le := sizeCap_le opts (boot platform opts world).engine.igpuProfile
  refine ⟨?_, ?_, ?_, ?_⟩
  · rw [current]
    exact getTilingConfig_valid_of_accepted accepted _
  · rw [current]
    exact ⟨within.enabled, within.tileSize_le.trans le, within.thresholdWidth_le.trans le,
      within.thresholdHeight_le.trans le⟩
  · rw [current, Engine.currentOptions_engine]
    exact magnifies
  · rw [current]
    exact fits

/-- The scaled size of an image, in bytes, is that of an `int`. -/
def ScaledFits (libraries : Libraries ρ) (opts : Options) (image : Bytes) : Prop :=
  ∀ source ∈ decodeImage libraries image,
    FitsInt (source.width * getScaleFactor (currentOptions opts) *
      (source.height * getScaleFactor (currentOptions opts)) * 3)

/-- With a network that magnifies by the engine's scale, the program accesses no memory
outside a buffer and overflows no `int`, as long as the largest padded image and the
images it is given have scaled sizes that fit. -/
theorem program_never_faults (around : Surroundings δ ν ω ρ φ) {parsed : Parsed}
    {command : Command} (parsedEq : parseOptions parsed = .ok command)
    (loads : around.libraries.LoadsImages)
    (magnifies : around.net.Magnifies command.engine
      (getScaleFactor (currentOptions command.toOptions)))
    (fits : MagnifiedFits (getScaleFactor (currentOptions command.toOptions))
      (sizeCap command.toOptions false))
    {stdin : Bytes} {files : φ} (imagesFit : ∀ image,
      Given around.system command stdin files image →
        ScaledFits around.libraries command.toOptions image) (world : ω) :
    (main around parsed stdin files world).Leaves fun left => left.faulted = false := by
  let start := (boot around.platform command.toOptions world).engine
  have current : start.currentOptions = currentOptions command.toOptions := init_options _ _ _
  have suited : Machine.Suited around.net start (sizeCap command.toOptions false) :=
    boot_suited around.platform around.net (parseOptions_accepted parsedEq) world magnifies fits
  have single (machine : Machine δ ν ω) (image : Bytes)
      (given : Given around.system command stdin files image) (sane : machine.Sane start) :
      (machine.processSingle around.net (imageIo around.libraries) image
        command.outputFormat).1.Sane start := by
    apply sane.processSingle suited (decodesImages loads)
    intro source decoded _
    rw [Machine.getTilingConfig_scaleFactor, current]
    exact imagesFit image given source decoded
  have clear (machine : Machine δ ν ω) (sane : machine.Sane start) :
      machine.clearAllocators.Sane start :=
    ⟨sane.follows.call .clearAllocators rfl, sane.faultless⟩
  intro left member
  rcases main_keeps parsedEq single clear ⟨⟨[], rfl⟩, rfl⟩ left member with
    ⟨machine, sane, leftEq⟩
  rw [leftEq]
  split
  · exact sane.faultless
  · exact sane.faultless

theorem scaledFits_grey (image : Bytes) :
    ScaledFits greyLibraries serverArguments.command.toOptions image := by
  intro source decoded
  cases image with
  | nil => cases decoded
  | cons byte rest =>
      cases decoded
      exact (by decide : FitsInt (1 * 2 * (1 * 2) * 3))

/-- That program again. -/
theorem program_never_faults_flaky :
    (main flakyMachine (.values serverArguments) plainRequest.encode [5] 0).Leaves
      fun left => left.faulted = false :=
  program_never_faults flakyMachine serverArguments_accepted greyLibraries_loads
    ((flakyNet_computes .realCUGAN).magnifies
      (magnified_of_isLocal Image.leftNeighbours_isLocal)) (by decide)
    (fun image _ => scaledFits_grey image) 0

end NcnnUpscaler.Program
