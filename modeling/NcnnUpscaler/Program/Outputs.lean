import NcnnUpscaler.Program.Main
import NcnnUpscaler.Service.Refinement

/-!
# What the program puts out

With a network that computes one function, on the GPU if that works and on the CPU
otherwise, the program puts out what a program around that function does: no client and no
file shows on what it was computed or what was computed before.  When the function is a
local filter, the images of every request come back filtered.
-/

namespace NcnnUpscaler.Program

open Wire Raster Protocol Tiling KeepAlive Service LocalFilter
open Engine (EngineState Platform getScaleFactor currentOptions)
open Image (DecodedImage Inference Libraries IsLocal KnownFormat decodeImage imageIo
  imageIo_encodeImage decodeImage_decoded encodeImage_known encodeImage_unknown)

variable {δ ν ω ρ φ : Type}

/-- The tiling configuration of an engine started on the options. -/
def bootConfig (platform : Platform δ ν) (opts : Options) : TilingConfig :=
  getTilingConfig (currentOptions opts) (boot platform opts ()).engine.igpuProfile

/-- The engine is started: no lookup of its files throws, and `init` returns true. -/
structure Starts (around : Surroundings δ ν ω ρ φ) (opts : Options) (files : φ) : Prop where
  quiet : EngineState.initRaises around.platform (around.system.existsRaises files) opts = false
  inits : ((EngineState.start around.platform).init around.platform opts).1 = true

/-- Where the engine is started, the program goes through its mode. -/
theorem Starts.main_eq {around : Surroundings δ ν ω ρ φ} {parsed : Parsed} {command : Command}
    {files : φ} (starts : Starts around command.toOptions files)
    (parsedEq : parseOptions parsed = .ok command) (stdin : Bytes) (world : ω) :
    let done := main around parsed stdin files world
    let moded := runMode around.system (Machine.keepAliveEngine around.net
      (imageIo around.libraries)) command stdin files
        (boot around.platform command.toOptions world)
    done.exitCode = moded.exitCode ∧ done.stdout = moded.stdout ∧ done.files = moded.files := by
  rcases main_cases around parsedEq stdin files world with
    ⟨raised, _⟩ | ⟨_, unstarted, _⟩ | ⟨_, _, doneEq⟩
  · rw [starts.quiet] at raised
    cases raised
  · rw [starts.inits] at unstarted
    cases unstarted
  · simp only [doneEq, and_self]

/-- Where it is not, the program prints nothing and does not succeed. -/
theorem main_unstarted {around : Surroundings δ ν ω ρ φ} {parsed : Parsed} {command : Command}
    {files : φ} (fails : ¬Starts around command.toOptions files)
    (parsedEq : parseOptions parsed = .ok command) (stdin : Bytes) (world : ω) :
    let done := main around parsed stdin files world
    done.stdout = [] ∧ done.exitCode ≠ some 0 := by
  rcases main_cases around parsedEq stdin files world with
    ⟨_, doneEq⟩ | ⟨_, _, doneEq⟩ | ⟨quiet, inits, _⟩
  · simp [doneEq]
  · simp [doneEq]
  · exact absurd ⟨quiet, inits⟩ fails

/-- What a program needs in order to compute `infer`: the image libraries, the network,
and sizes that fit. -/
structure Computing (around : Surroundings δ ν ω ρ φ) (opts : Options) (infer : Inference) :
    Prop where
  accepted : opts.Accepted
  loads : around.libraries.LoadsImages
  computes : around.net.Computes opts.engine infer
  magnified : Magnified infer (getScaleFactor (currentOptions opts))
  fits : MagnifiedFits (getScaleFactor (currentOptions opts)) (sizeCap opts false)

section Computing

variable {around : Surroundings δ ν ω ρ φ} {opts : Options} {infer : Inference}

/-- The engine of such a program simulates the reference. -/
theorem Computing.simulates [DecidableEq ν] (computing : Computing around opts infer) (world : ω)
    (outputFormat : String) :
    (Machine.keepAliveEngine around.net (imageIo around.libraries) :
        KeepAlive.Engine (Machine δ ν ω)).Simulates
      (.ofFunction (reference infer (imageIo around.libraries)
        (bootConfig around.platform opts))) outputFormat
      (ScaledFits around.libraries opts)
      fun machine _ => machine.Follows (boot around.platform opts world).engine := by
  have current : (boot around.platform opts world).engine.currentOptions = currentOptions opts :=
    init_options _ _ _
  have suited : Machine.Suited around.net (boot around.platform opts world).engine
      (sizeCap opts false) :=
    boot_suited around.platform around.net computing.accepted world
      (computing.computes.magnifies computing.magnified) computing.fits
  have computes := computing.computes
  have magnified := computing.magnified
  have simulates := @Machine.keepAliveEngine_simulates _ _ _ around.net infer
    (boot around.platform opts world).engine (sizeCap opts false) suited
    (boot_keepsCpuMode around.platform opts world)
    (by rw [current, Engine.currentOptions_engine]; exact computes)
    (by rw [current]; exact magnified) (imageIo around.libraries) (decodesImages computing.loads)
    outputFormat
  rw [current] at simulates
  apply simulates.mono
  intro image scaled source decoded _
  rw [Machine.getTilingConfig_scaleFactor]
  exact scaled source decoded

end Computing

/-- A GPU that fails, at any inference or at none, is not to be seen: a program whose
network computes `infer`, except where Vulkan compute fails, ends with the exit status, the
bytes on stdout and the files with which its mode ends around the reference. -/
theorem program_hides_fallback [DecidableEq ν] (around : Surroundings δ ν ω ρ φ) {parsed : Parsed}
    {command : Command} (parsedEq : parseOptions parsed = .ok command)
    {files : φ} (starts : Starts around command.toOptions files) {infer : Inference}
    (computing : Computing around command.toOptions infer) {stdin : Bytes}
    (imagesFit : ∀ image, Given around.system command stdin files image →
      ScaledFits around.libraries command.toOptions image) (world : ω) :
    let done := main around parsed stdin files world
    let plain := runMode around.system (.ofFunction (reference infer (imageIo around.libraries)
      (bootConfig around.platform command.toOptions))) command stdin files ()
    done.exitCode = plain.exitCode ∧ done.stdout = plain.stdout ∧ done.files = plain.files := by
  have simulates := (computing.simulates world command.outputFormat).mono imagesFit
  rcases runMode_simulates simulates
    (⟨[], rfl⟩ : (boot around.platform command.toOptions world).Follows _) with
    ⟨exitEq, stdoutEq, filesEq, _⟩
  rcases starts.main_eq parsedEq stdin world with ⟨mainExit, mainStdout, mainFiles⟩
  exact ⟨mainExit.trans exitEq, mainStdout.trans stdoutEq, mainFiles.trans filesEq⟩

theorem flakyMachine_computing :
    Computing flakyMachine serverArguments.command.toOptions Image.leftNeighbours where
  accepted := parseOptions_accepted serverArguments_accepted
  loads := greyLibraries_loads
  computes := flakyNet_computes _
  magnified := magnified_of_isLocal Image.leftNeighbours_isLocal
  fits := by decide

theorem flakyMachine_starts (files : Bytes) :
    Starts flakyMachine serverArguments.command.toOptions files where
  quiet := EngineState.initRaises_of_quiet _ _ fun _ => rfl
  inits := by rfl

/-- The server on the GPU that fails at every second inference. -/
theorem program_hides_fallback_flaky :
    let done := main flakyMachine (.values serverArguments) plainRequest.encode [5] 1
    let plain := runMode flakyMachine.system (.ofFunction (reference Image.leftNeighbours
      (imageIo greyLibraries) (bootConfig flakyMachine.platform
        serverArguments.command.toOptions))) serverArguments.command plainRequest.encode [5] ()
    done.exitCode = plain.exitCode ∧ done.stdout = plain.stdout ∧ done.files = plain.files :=
  program_hides_fallback flakyMachine serverArguments_accepted (flakyMachine_starts [5])
    flakyMachine_computing
    (fun image _ => scaledFits_grey image) 1

/-! ## The images that come back -/

/-- The output is the encoding of the image, magnified: of one with the pixels that the
kernel computes, if the image is not tiled or the kernel sees a single pixel. -/
def Upscales {radius : Nat} (codec : Codec) (config : TilingConfig)
    (kernel : Kernel radius Pixel) (outputFormat : String) (image output : Bytes) : Prop :=
  ∃ (source : ImagePixels) (pixels : Rgb), codec.decodeImage image = some source ∧
    (pixels.length : Int) =
      source.width * config.scaleFactor * (source.height * config.scaleFactor) * 3 ∧
    codec.encodeImage ⟨source.width * config.scaleFactor, source.height * config.scaleFactor, 3,
      pixels⟩ outputFormat = some output ∧
    (shouldEnableTiling source.width source.height config = false ∨ radius = 0 →
      ∀ x y, 0 ≤ x → x < source.width * config.scaleFactor → 0 ≤ y →
        y < source.height * config.scaleFactor →
        pixel 3 (source.width * config.scaleFactor) pixels x y =
          filter kernel config.scaleFactor source.width source.height source.at x y)

section Reference

variable {radius : Nat} {kernel : Kernel radius Pixel} {config : TilingConfig}
  {infer : Inference} {codec : Codec} {source : ImagePixels}

theorem reference_of_encoded {image : Bytes} {outputFormat : String} {shown : ImagePixels}
    (result : (processWithTiling (Image.rgbEngine infer config.scaleFactor) codec config image
      outputFormat ()).result = encoded codec shown outputFormat) :
    reference infer codec config image outputFormat = codec.encodeImage shown outputFormat := by
  rw [reference, result, encoded]
  cases codec.encodeImage shown outputFormat <;> rfl

/-- The image that the reference encodes, with a local network. -/
theorem reference_local (valid : config.Valid) (radiusLe : radius ≤ 18)
    (isLocal : IsLocal infer kernel config.scaleFactor) {image : Bytes}
    (decoded : codec.decodeImage image = some source) (decodedImage : DecodedImage source)
    (outputFormat : String) :
    ∃ pixels : Rgb, (pixels.length : Int) =
        source.width * config.scaleFactor * (source.height * config.scaleFactor) * 3 ∧
      reference infer codec config image outputFormat =
        codec.encodeImage ⟨source.width * config.scaleFactor,
          source.height * config.scaleFactor, 3, pixels⟩ outputFormat ∧
      (shouldEnableTiling source.width source.height config = false ∨ radius = 0 →
        ∀ x y, 0 ≤ x → x < source.width * config.scaleFactor → 0 ≤ y →
          y < source.height * config.scaleFactor →
          pixel 3 (source.width * config.scaleFactor) pixels x y =
            filter kernel config.scaleFactor source.width source.height source.at x y) := by
  rcases wellFormed_of_decoded decodedImage with ⟨wellFormed, widthPos, heightPos⟩
  have applies := Image.rgbEngine_applies valid.scale_pos radiusLe isLocal
  rcases applies () source.pixels _ _ widthPos heightPos wellFormed.size_eq with
    ⟨whole, producedEq, wholeWidth, wholeHeight, wholeSize, wholePixel⟩
  rw [wholeWidth, wholeHeight] at wholeSize
  simp only [ImagePixels.at, wholeWidth] at wholePixel
  by_cases tiled : shouldEnableTiling source.width source.height config = true
  · by_cases point : radius = 0
    · have assembles := (assemblesWhole_iff valid widthPos heightPos radius).mpr (.inl point)
      rcases assembles Unit _ kernel source () () wellFormed rfl rfl applies with
        ⟨other, otherEq, assembleEq⟩
      rw [producedEq] at otherEq
      cases otherEq
      refine ⟨whole.pixels, wholeSize, reference_of_encoded ?_, fun _ => wholePixel⟩
      simp only [processWithTiling, decoded, tiled, if_true, TileLoop.finish, assembleEq]
    · rcases assembled_pixel valid wellFormed widthPos heightPos applies () with
        ⟨out, assembleEq, outSize, _⟩
      refine ⟨out, outSize, reference_of_encoded ?_, ?_⟩
      · simp only [processWithTiling, decoded, tiled, if_true, TileLoop.finish, assembleEq]
      · intro single
        rcases single with untiled | zero
        · rw [tiled] at untiled
          cases untiled
        · exact absurd zero point
  · refine ⟨whole.pixels, wholeSize, reference_of_encoded ?_, fun _ => wholePixel⟩
    simp only [processWithTiling, decoded, if_neg tiled, processDirectly]
    split
    · next failedEq =>
        rw [failedEq] at producedEq
        cases producedEq
    · next outputEq =>
        rw [outputEq] at producedEq
        cases producedEq
        rw [wholeWidth, wholeHeight]

end Reference

/-- Of an image that can be decoded the reference returns the encoding, magnified. -/
theorem Computing.reference_upscales {around : Surroundings δ ν ω ρ φ} {opts : Options}
    {infer : Inference} (computing : Computing around opts infer)
    (encodes : around.libraries.Encodes) (known : KnownFormat opts.outputFormat) {radius : Nat}
    (radiusLe : radius ≤ 18) {kernel : Kernel radius Pixel}
    (isLocal : IsLocal infer kernel (getScaleFactor (currentOptions opts))) {image : Bytes}
    (decodable : decodeImage around.libraries image ≠ none) :
    ∃ output, reference infer (imageIo around.libraries) (bootConfig around.platform opts) image
        opts.outputFormat = some output ∧
      Upscales (imageIo around.libraries) (bootConfig around.platform opts) kernel
        opts.outputFormat image output := by
  have valid : (bootConfig around.platform opts).Valid :=
    getTilingConfig_valid_of_accepted computing.accepted _
  have scaleEq : (bootConfig around.platform opts).scaleFactor =
      getScaleFactor (currentOptions opts) := Machine.getTilingConfig_scaleFactor _ _
  rw [← scaleEq] at isLocal
  rcases Option.ne_none_iff_exists'.mp decodable with ⟨source, decodedEq⟩
  have decoded : (imageIo around.libraries).decodeImage image = some source := decodedEq
  have decodedImage := decodeImage_decoded computing.loads decodedEq
  rcases reference_local valid radiusLe isLocal decoded decodedImage opts.outputFormat with
    ⟨pixels, size, referenceEq, filters⟩
  have scaled : DecodedImage ⟨source.width * (bootConfig around.platform opts).scaleFactor,
      source.height * (bootConfig around.platform opts).scaleFactor, 3, pixels⟩ := by
    rcases Image.scaled_pos decodedImage valid.scale_pos with ⟨widthPos, heightPos⟩
    exact ⟨⟨widthPos, heightPos, (by decide : (1 : Int) ≤ 3), size⟩, rfl⟩
  rcases encodeImage_known encodes scaled known with ⟨output, encodedEq⟩
  refine ⟨output, ?_, source, pixels, decoded, size, ?_, filters⟩
  · rw [referenceEq, imageIo_encodeImage]
    exact encodedEq
  · rw [imageIo_encodeImage]
    exact encodedEq

/-- A session of a server whose network computes a local filter: every request of images
that can be decoded is answered with `Ok`, and with the encodings of its images,
magnified, whatever was asked before and wherever the GPU fails. -/
theorem session_upscales [DecidableEq ν] (around : Surroundings δ ν ω ρ φ) {opts : Options}
    {infer : Inference} (computing : Computing around opts infer)
    (encodes : around.libraries.Encodes)
    (known : KnownFormat opts.outputFormat) {radius : Nat} (radiusLe : radius ≤ 18)
    {kernel : Kernel radius Pixel}
    (isLocal : IsLocal infer kernel (getScaleFactor (currentOptions opts))) (world : ω)
    {stdin : Bytes} (imagesFit : ∀ image, AsksFor opts stdin image →
      ScaledFits around.libraries opts image) {earlier : List Frame} {frame : Frame}
    (holds : HoldsFrame stdin earlier frame) {request : RequestPayload}
    (carries : Carries opts frame.body request)
    (decodable : ∀ image ∈ request.images, decodeImage around.libraries image ≠ none) :
    let last := runKeepAliveProtocolV2
      (Machine.keepAliveEngine around.net (imageIo around.libraries)) opts
      (boot around.platform opts world) stdin
    ∃ outputs,
      (responsesOf last.trace)[earlier.length]? = some
        { requestId := decodeU32Le frame.body 12, status := .ok, error := [], outputs } ∧
      List.Forall₂ (Upscales (imageIo around.libraries) (bootConfig around.platform opts) kernel
        opts.outputFormat) request.images outputs := by
  intro last
  have simulates := (computing.simulates world opts.outputFormat).mono imagesFit
  have traceEq : last.trace = (runKeepAliveProtocolV2 (.ofFunction (reference infer
      (imageIo around.libraries) (bootConfig around.platform opts))) opts () stdin).trace :=
    (run_simulates simulates (fun _ asked => asked)
      (⟨[], rfl⟩ : (boot around.platform opts world).Follows _)).1
  have shown (image : Bytes) (member : image ∈ request.images) :=
    computing.reference_upscales encodes known radiusLe isLocal (decodable image member)
  have computed (image : Bytes) (member : image ∈ request.images) :
      reference infer (imageIo around.libraries) (bootConfig around.platform opts) image
        opts.outputFormat ≠ none := by
    rcases shown image member with ⟨output, referenceEq, _⟩
    rw [referenceEq]
    exact Option.some_ne_none output
  rcases ofFunction_answers carries computed () with ⟨outputs, responses, returned⟩
  refine ⟨outputs, ?_, ?_⟩
  · rw [traceEq]
    exact response_of_frame _ opts () holds responses
  · have both := (List.forall₂_and_left _ _).mpr ⟨shown, returned⟩
    apply both.imp
    intro image output known
    rcases known with ⟨⟨other, otherEq, upscales⟩, outputEq⟩
    rw [outputEq] at otherEq
    cases otherEq
    exact upscales

theorem greyLibraries_encodes : greyLibraries.Encodes where
  initialised := ⟨rfl, rfl⟩
  webp := fun _ _ _ _ => ⟨_, _, rfl, rfl⟩
  png := fun _ _ => ⟨_, rfl⟩
  jpg := fun _ _ => ⟨_, rfl⟩

/-- That server, asked for one image: the neighbours' pixels come back. -/
theorem session_upscales_flaky :
    let opts := serverArguments.command.toOptions
    let last := runKeepAliveProtocolV2
      (Machine.keepAliveEngine flakyMachine.net (imageIo flakyMachine.libraries)) opts
      (boot flakyMachine.platform opts 1) plainRequest.encode
    ∃ outputs,
      (responsesOf last.trace)[0]? = some
        { requestId := decodeU32Le plainRequest.body 12, status := .ok, error := [], outputs } ∧
      List.Forall₂ (Upscales (imageIo flakyMachine.libraries)
        (bootConfig flakyMachine.platform opts)
        (fun _ _ (window : Window 1 Pixel) => window 1 0) opts.outputFormat) [[5]] outputs :=
  session_upscales flakyMachine flakyMachine_computing greyLibraries_encodes (by decide)
    (by decide) Image.leftNeighbours_isLocal 1 (fun image _ => scaledFits_grey image)
    (⟨[], (List.append_nil _).symm⟩ : HoldsFrame plainRequest.encode [] plainRequest)
    plainRequest_carries (by decide)

/-! ## Formats that cannot be written -/

theorem processSingle_unknown {libraries : Libraries ρ} {outputFormat : String}
    (unknown : ¬KnownFormat outputFormat) (net : Net ω ν) (machine : Machine δ ν ω)
    (image : Bytes) :
    (machine.processSingle net (imageIo libraries) image outputFormat).2 = none := by
  have unencoded (shown : ImagePixels) :
      encoded (imageIo libraries) shown outputFormat = .error .failed := by
    simp only [encoded, imageIo, encodeImage_unknown shown unknown]
  have fails : ∀ output, (processWithTiling (Machine.rgbEngine net) (imageIo libraries)
      machine.tilingConfig image outputFormat machine).result ≠ .ok output := by
    intro output
    simp only [processWithTiling, TileLoop.finish, processDirectly, unencoded]
    split
    · simp
    · split
      · simp only
        split <;> simp
      · split <;> simp
  simp only [Machine.processSingle]
  split
  · generalize (processWithTiling (Machine.rgbEngine net) (imageIo libraries)
      machine.tilingConfig image outputFormat machine).result = result at fails
    cases result with
    | ok output => exact absurd rfl (fails output)
    | error failure =>
        cases failure with
        | failed => rfl
        | fault => rfl
  · rfl

/-- A session with an engine that fails on every image. -/
theorem failing_session (opts : Options) (stdin : Bytes) :
    ∀ response ∈ responsesOf (runKeepAliveProtocolV2 (.ofFunction fun _ _ => none) opts ()
        stdin).trace,
      response.status ≠ .ok ∧ response.outputs = [] := by
  rcases exists_split stdin with ⟨frames, tail, stdinEq, residual⟩
  have traceEq := (run_of_split (.ofFunction fun _ _ => none) opts () frames residual).1
  rw [← stdinEq] at traceEq
  rw [traceEq]
  exact failing_responses opts () frames

/-- Nothing on stdout is no response. -/
theorem answers_nothing :
    ∃ responses : List Response, ([] : Bytes) = responses.flatMap writeProtocolResponse ∧
      ∀ response ∈ responses, response.status ≠ .ok ∧ response.outputs = [] :=
  ⟨[], rfl, fun _ member => absurd member List.not_mem_nil⟩

/-- What a mode ends with around an engine that fails on every image. -/
theorem runMode_failing (system : FileSystem φ) (command : Command) (stdin : Bytes)
    (files : φ) :
    let done := runMode system (.ofFunction fun _ _ => none) command stdin files ()
    done.files = files ∧
      (command.mode = .file → done.exitCode ≠ none → done.exitCode = some 1) ∧
      ∃ responses : List Response, done.stdout = responses.flatMap writeProtocolResponse ∧
        ∀ response ∈ responses, response.status ≠ .ok ∧ response.outputs = [] := by
  simp only [runMode]
  cases command.mode with
  | file =>
      simp only [runFileMode, Engine.ofFunction]
      split
      · exact ⟨rfl, fun _ _ => rfl, answers_nothing⟩
      · cases readEntireFile system files command.inputPath with
        | none => exact ⟨rfl, fun _ returned => absurd rfl returned, answers_nothing⟩
        | some inputData =>
            simp only
            split
            · exact ⟨rfl, fun _ _ => rfl, answers_nothing⟩
            · exact ⟨rfl, fun _ _ => rfl, answers_nothing⟩
  | stdin =>
      have notFile (done : Finished φ Unit) (filed : Mode.stdin = .file) :
          done.exitCode ≠ none → done.exitCode = some 1 := by cases filed
      simp only [runStdinMode]
      split
      · split
        · exact ⟨rfl, notFile _, answers_nothing⟩
        · exact ⟨rfl, notFile _, answers_nothing⟩
      · exact ⟨rfl, notFile _, _, stdoutOf_eq _, failing_session command.toOptions stdin⟩

/-- The options accept any name of a format.  With one that cannot be written the program
writes no file and no image: in file mode it ends with status 1 unless it is aborted, and
what it writes to stdout are responses without outputs, none of which says `Ok`. -/
theorem program_writes_no_unknown_format (around : Surroundings δ ν ω ρ φ) {parsed : Parsed}
    {command : Command} (parsedEq : parseOptions parsed = .ok command)
    (unknown : ¬KnownFormat command.outputFormat) (stdin : Bytes) (files : φ) (world : ω) :
    let done := main around parsed stdin files world
    done.files = files ∧
      (command.mode = .file → ¬Aborts around parsed files → done.exitCode = some 1) ∧
      ∃ responses : List Response, done.stdout = responses.flatMap writeProtocolResponse ∧
        ∀ response ∈ responses, response.status ≠ .ok ∧ response.outputs = [] := by
  have simulates : (Machine.keepAliveEngine around.net (imageIo around.libraries) :
        KeepAlive.Engine (Machine δ ν ω)).Simulates
      (.ofFunction fun _ _ => none) command.outputFormat
      (Given around.system command stdin files) fun _ _ => True :=
    { output := fun _ _ => processSingle_unknown unknown around.net _ _
      related := fun _ _ => trivial
      clearAllocators := fun _ => trivial }
  have aborts := main_aborts_iff around parsed stdin files world
  rcases main_cases around parsedEq stdin files world with
    ⟨_, doneEq⟩ | ⟨_, _, doneEq⟩ | ⟨_, _, doneEq⟩
  · simp only [doneEq] at aborts ⊢
    exact ⟨trivial, fun _ quiet => absurd (aborts.mp trivial) quiet, answers_nothing⟩
  · simp only [doneEq]
    exact ⟨trivial, fun _ _ => trivial, answers_nothing⟩
  · rcases @runMode_simulates _ _ _ _ _ _ _ _ _ _ simulates
      (boot around.platform command.toOptions world) () trivial with
      ⟨exitEq, stdoutEq, filesEq, _⟩
    rcases runMode_failing around.system command stdin files with ⟨same, status, answered⟩
    simp only [doneEq, exitEq, stdoutEq, filesEq] at aborts ⊢
    exact ⟨same, fun filed quiet => status filed (mt aborts.mp quiet), answered⟩

/-- The server with a format of its own. -/
theorem program_writes_no_unknown_format_bmp :
    let done := main flakyMachine (.values { serverArguments with format := "bmp" })
      plainRequest.encode [5] 0
    done.files = [5] ∧
      (parseMode serverArguments.mode = .file →
        ¬Aborts flakyMachine (.values { serverArguments with format := "bmp" }) [5] →
          done.exitCode = some 1) ∧
      ∃ responses : List Response, done.stdout = responses.flatMap writeProtocolResponse ∧
        ∀ response ∈ responses, response.status ≠ .ok ∧ response.outputs = [] :=
  @program_writes_no_unknown_format _ _ _ _ _ flakyMachine
    (.values { serverArguments with format := "bmp" })
    (Arguments.command { serverArguments with format := "bmp" }) (by rfl) (by decide)
    plainRequest.encode [5] 0

end NcnnUpscaler.Program
