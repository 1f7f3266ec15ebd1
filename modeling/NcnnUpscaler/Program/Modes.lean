import NcnnUpscaler.KeepAlive.Simulation
import NcnnUpscaler.Options

/-!
# The modes of the program

`options.cpp`, `stdin_mode.cpp` and `file_mode.cpp`: what the command line selects, and
what each mode does with an engine.  The argument parser and the file system are
parameters, and what the file system throws is caught nowhere; logging goes to stderr and
is left out.
-/

namespace NcnnUpscaler.Program

open Wire Protocol KeepAlive

/-! ## The command line -/

/-- `Options::Mode`. -/
inductive Mode where
  | file
  | stdin
  deriving DecidableEq, Repr

/-- `Options`, with the fields that select a mode or a log level. -/
structure Command extends Options where
  mode : Mode := .file
  inputPath : String := ""
  outputPath : String := ""
  keepAlive : Bool := false
  logProtocol : Bool := false
  profiling : Bool := false
  verbose : Bool := false
  deriving DecidableEq, Repr

/-- What the argument parser finds for each option, with the defaults it is given. -/
structure Arguments where
  engine : String := "realcugan"
  mode : String := "file"
  input : String := ""
  output : String := ""
  gpuId : String := "auto"
  tileSize : Int := 0
  scale : Int := 2
  noise : Int := -1
  quality : String := "E"
  model : String := "models/realcugan/models-se"
  modelName : String := ""
  format : String := "webp"
  maxBatchItems : Int := 8
  keepAlive : Bool := false
  logProtocol : Bool := false
  profiling : Bool := false
  verbose : Bool := false
  deriving DecidableEq, Repr

/-- How the argument parser ends: with an exception, with `--help` among the options, or
with the values. -/
inductive Parsed where
  | raised (what : String)
  | help (text : String)
  | values (arguments : Arguments)

/-- `parse_engine`. -/
def parseEngine (value : String) : EngineType :=
  if toLower value = "realesrgan" then .realESRGAN else .realCUGAN

/-- `parse_mode`. -/
def parseMode (value : String) : Mode := if toLower value = "stdin" then .stdin else .file

/-- The assignments of `parse_options`. -/
def Arguments.command (arguments : Arguments) : Command where
  engine := parseEngine arguments.engine
  mode := parseMode arguments.mode
  gpuId := arguments.gpuId
  tileSize := arguments.tileSize
  scale := arguments.scale
  noiseLevel := arguments.noise
  quality := arguments.quality
  model := arguments.model
  modelName := arguments.modelName
  inputPath := arguments.input
  outputPath := arguments.output
  outputFormat := arguments.format
  maxBatchItems := arguments.maxBatchItems
  keepAlive := arguments.keepAlive
  logProtocol := arguments.logProtocol
  profiling := arguments.profiling
  verbose := arguments.verbose

/-- What `parse_options` prints when it returns false, on stdout and on stderr. -/
structure Refusal where
  stdout : String := ""
  stderr : String := ""
  deriving DecidableEq, Repr

/-- `parse_options`. -/
def parseOptions : Parsed → Except Refusal Command
  | .raised what => .error { stderr := "Invalid arguments: " ++ what ++ "\n" }
  | .help text => .error { stdout := text ++ "\n" }
  | .values arguments =>
      match arguments.command.rejection with
      | some message => .error { stderr := message }
      | none => .ok arguments.command

theorem parseOptions_accepted {parsed : Parsed} {command : Command}
    (parsedEq : parseOptions parsed = .ok command) : command.Accepted := by
  cases parsed with
  | raised what => cases parsedEq
  | help text => cases parsedEq
  | values arguments =>
      simp only [parseOptions] at parsedEq
      split at parsedEq
      · cases parsedEq
      · next accepted =>
          cases parsedEq
          exact accepted

/-- The defaults of the parser are those of `Options`. -/
example : parseOptions (.values {}) = .ok {} := by decide

/-! ## Files -/

/-- What opening a file and reading it to its end leads to: a directory can be opened, and
reading it throws. -/
inductive Reading where
  | raised
  | unopened
  | contents (data : Bytes)

/-- The file system as the program uses it, in a state `φ`: where
`std::filesystem::exists` throws, as it does at a name that is too long, and what reading
and writing do.  An opened output file has been emptied. -/
structure FileSystem (φ : Type) where
  existsRaises : φ → (path : String) → Bool
  read : φ → (path : String) → Reading
  createDirectories : φ → (path : String) → φ
  openForWriting : φ → (path : String) → Option φ
  write : φ → (path : String) → Bytes → φ × Bool

/-- `std::filesystem::path::parent_path`. -/
def parentPath (path : String) : String :=
  let rest := path.toList.reverse.dropWhile (· ≠ '/')
  let parent := rest.dropWhile (· = '/')
  if rest = [] then "" else if parent = [] then "/" else String.ofList parent.reverse

variable {φ σ : Type}

/-- `read_entire_file`; `none` when it throws. -/
def readEntireFile (system : FileSystem φ) (files : φ) (path : String) : Option Bytes :=
  -- The text of a log line is put together at every level, and asks whether the file exists.
  if system.existsRaises files path then none
  else
    match system.read files path with
    | .raised => none
    | .unopened => some []
    | .contents data => some data

/-- `write_entire_file`. -/
def writeEntireFile (system : FileSystem φ) (files : φ) (path : String) (data : Bytes) :
    φ × Bool :=
  if path = "" then
    (files, false)
  else
    let dir := parentPath path
    let files := if dir ≠ "" then system.createDirectories files dir else files
    match system.openForWriting files path with
    | none => (files, false)
    | some files => system.write files path data

/-! ## The modes -/

/-- What a mode leaves behind.  There is no exit status when an exception that nothing
catches aborts the program. -/
structure Finished (φ σ : Type) where
  exitCode : Option Int
  stdout : Bytes := []
  files : φ
  engine : σ

/-- `read_all_stream`, in chunks of 4096 bytes, from what the buffer holds on. -/
def readAllStream (buffer stream : Bytes) : Bytes :=
  if 4096 ≤ stream.length then
    readAllStream (buffer ++ stream.take 4096) (stream.drop 4096)
  else
    buffer ++ stream
termination_by stream.length
decreasing_by
  rw [List.length_drop]
  omega

/-- `run_stdin_mode`. -/
def runStdinMode (engine : Engine σ) (command : Command) (stdin : Bytes) (files : φ)
    (state : σ) : Finished φ σ :=
  if ¬command.keepAlive then
    let input := readAllStream [] stdin
    if input = [] then
      { exitCode := some 0, files, engine := state }
    else
      match engine.processSingle state input command.outputFormat with
      | (state, none) => { exitCode := some 1, files, engine := state }
      | (state, some output) => { exitCode := some 0, stdout := output, files, engine := state }
  else
    let last := runKeepAliveProtocolV2 engine command.toOptions state stdin
    { exitCode := some 0, stdout := stdoutOf last.trace, files, engine := last.engine }

/-- `run_file_mode`. -/
def runFileMode (system : FileSystem φ) (engine : Engine σ) (command : Command) (files : φ)
    (state : σ) : Finished φ σ :=
  if command.inputPath = "" ∨ command.outputPath = "" then
    { exitCode := some 1, files, engine := state }
  else
    match readEntireFile system files command.inputPath with
    | none => { exitCode := none, files, engine := state }
    | some inputData =>
        if inputData = [] then
          { exitCode := some 1, files, engine := state }
        else
          match engine.processSingle state inputData command.outputFormat with
          | (state, none) => { exitCode := some 1, files, engine := state }
          | (state, some outputData) =>
              match writeEntireFile system files command.outputPath outputData with
              | (files, false) => { exitCode := some 1, files, engine := state }
              | (files, true) => { exitCode := some 0, files, engine := state }

/-- `main` from the choice of the mode to its end. -/
def runMode (system : FileSystem φ) (engine : Engine σ) (command : Command) (stdin : Bytes)
    (files : φ) (state : σ) : Finished φ σ :=
  match command.mode with
  | .file => runFileMode system engine command files state
  | .stdin => runStdinMode engine command stdin files state

/-- The chunks make up the stream. -/
theorem readAllStream_eq (buffer stream : Bytes) :
    readAllStream buffer stream = buffer ++ stream := by
  induction lengthEq : stream.length using Nat.strongRecOn generalizing buffer stream with
  | _ length ih =>
      rw [readAllStream]
      split
      · next enough =>
          rw [ih (stream.drop 4096).length (by rw [List.length_drop]; omega) _ _ rfl,
            List.append_assoc, List.take_append_drop]
      · rfl

/-! ## One image in every mode -/

/-- The answers to a request of one image. -/
theorem run_one_image (engine : Engine σ) (opts : Options) (state : σ) {frame : Frame}
    {request : RequestPayload} {image : Bytes} (carries : Carries opts frame.body request)
    (single : request.images = [image]) :
    let last := runKeepAliveProtocolV2 engine opts state frame.encode
    let requestId := decodeU32Le frame.body 12
    let called := engine.processSingle state image opts.outputFormat
    responsesOf last.trace =
        [match called.2 with
          | none =>
              errorResponse requestId .engineError (text "engine processing failed at index 0")
          | some output => { requestId, status := .ok, error := [], outputs := [output] }] ∧
      last.engine =
        match called.2 with
        | none => called.1
        | some _ => engine.clearAllocators called.1 := by
  have count := carries.count
  rw [single, List.length_singleton] at count
  rcases run_of_split engine opts state [frame] (.inl rfl : Residual []) with
    ⟨traceEq, engineEq⟩
  rw [List.flatMap_singleton, List.append_nil] at traceEq engineEq
  simp only
  rw [traceEq, engineEq]
  simp only [servedEvents, engineAfter, List.foldl_cons, List.foldl_nil, List.append_nil]
  rw [serveFrame_carries engine carries]
  simp only [handleRequest, single, ← count, batchLoop, List.getD_cons_zero]
  rcases engine.processSingle state image opts.outputFormat with ⟨after, output⟩
  cases output with
  | none => exact ⟨rfl, rfl⟩
  | some bytes => exact ⟨rfl, rfl⟩

theorem stdoutOf_of_responses {events : List Event} {response : Response}
    (responses : responsesOf events = [response]) :
    stdoutOf events = writeProtocolResponse response := by
  rw [stdoutOf_eq, responses, List.flatMap_singleton]

/-- The same image gets the same answer in every mode.  If the engine returns an output,
it is what the legacy mode prints, what a request for this one image is answered with and
what is written to the output file.  If it fails, the legacy mode prints nothing, the
request is answered with an engine error, and the files are left alone. -/
theorem modes_agree (system : FileSystem φ) (engine : Engine σ) (command : Command) (state : σ)
    (files : φ) {image : Bytes} (nonempty : image ≠ [])
    (paths : command.inputPath ≠ "" ∧ command.outputPath ≠ "")
    (input : readEntireFile system files command.inputPath = some image) {frame : Frame}
    {request : RequestPayload} (carries : Carries command.toOptions frame.body request)
    (single : request.images = [image]) :
    let legacy := runStdinMode engine { command with keepAlive := false } image files state
    let served := runStdinMode engine { command with keepAlive := true } frame.encode files state
    let filed := runFileMode system engine command files state
    let requestId := decodeU32Le frame.body 12
    match (engine.processSingle state image command.outputFormat).2 with
    | some output =>
        (legacy.exitCode = some 0 ∧ legacy.stdout = output) ∧
          (served.exitCode = some 0 ∧ served.stdout = writeProtocolResponse
            { requestId, status := .ok, error := [], outputs := [output] }) ∧
          filed.files = (writeEntireFile system files command.outputPath output).1 ∧
          filed.exitCode =
            some (if (writeEntireFile system files command.outputPath output).2 then 0 else 1)
    | none =>
        (legacy.exitCode = some 1 ∧ legacy.stdout = []) ∧
          (served.exitCode = some 0 ∧ served.stdout = writeProtocolResponse (errorResponse
            requestId .engineError (text "engine processing failed at index 0"))) ∧
          filed.exitCode = some 1 ∧ filed.files = files := by
  rcases run_one_image engine command.toOptions state carries single with ⟨responses, _⟩
  have stdoutEq := stdoutOf_of_responses responses
  have noPath : ¬(command.inputPath = "" ∨ command.outputPath = "") := by
    simp only [not_or]
    exact paths
  simp only [runStdinMode, runFileMode, readAllStream_eq, List.nil_append, input,
    if_neg nonempty, if_neg noPath, Bool.false_eq_true, not_false_eq_true, not_true_eq_false,
    if_true, if_false, stdoutEq]
  rcases engine.processSingle state image command.outputFormat with ⟨after, output⟩
  cases output with
  | none => exact ⟨⟨rfl, rfl⟩, ⟨trivial, rfl⟩, rfl, rfl⟩
  | some bytes =>
      refine ⟨⟨rfl, rfl⟩, ⟨trivial, rfl⟩, ?_⟩
      simp only
      rcases writeEntireFile system files command.outputPath bytes with ⟨written, good⟩
      cases good with
      | false => exact ⟨rfl, rfl⟩
      | true => exact ⟨rfl, rfl⟩

/-- A file system with one file, of one byte. -/
def oneFile : FileSystem Bytes where
  existsRaises _ _ := false
  read files _ := .contents files
  createDirectories files _ := files
  openForWriting _ _ := some []
  write _ _ data := (data, true)

/-- An engine that doubles its image, on that file and on a request for its byte. -/
theorem modes_agree_doubled :
    let engine : Engine Unit := .ofFunction fun image _ => some (image ++ image)
    let command : Command := { inputPath := "in.png", outputPath := "out/page.webp" }
    let files : Bytes := [5]
    let legacy := runStdinMode engine { command with keepAlive := false } [5] files ()
    let served := runStdinMode engine { command with keepAlive := true } plainRequest.encode
      files ()
    let filed := runFileMode oneFile engine command files ()
    let requestId := decodeU32Le plainRequest.body 12
    (legacy.exitCode = some 0 ∧ legacy.stdout = [5, 5]) ∧
      (served.exitCode = some 0 ∧ served.stdout = writeProtocolResponse
        { requestId, status := .ok, error := [], outputs := [[5, 5]] }) ∧
      filed.files = (writeEntireFile oneFile files command.outputPath [5, 5]).1 ∧
      filed.exitCode =
        some (if (writeEntireFile oneFile files command.outputPath [5, 5]).2 then 0 else 1) :=
  modes_agree oneFile (.ofFunction fun image _ => some (image ++ image))
    { inputPath := "in.png", outputPath := "out/page.webp" } () [5]
    (by decide) ⟨by decide, by decide⟩ rfl plainRequest_carries rfl

end NcnnUpscaler.Program
