import NcnnUpscaler.KeepAlive.Client
import NcnnUpscaler.Program.Outputs

/-!
# The benchmark

`benchmark_batch` of `benchmark_pipeline.py` against the whole program: the script packs a
batch of copies of an image into one frame, runs the program on it and reads the response.
An exception that Python raises is `none` here, that of the time limit included; the times
measured are left out.
-/

namespace NcnnUpscaler.Program

open Wire Protocol KeepAlive KeepAlive.Client Service
open Engine (EngineState)
open Image (imageIo)

/-! ## The script -/

/-- What `parse_response` returns. -/
structure ResponseFields where
  status : UInt32
  resultCount : UInt32
  error : String
  deriving DecidableEq, Repr

/-- `parse_response`.  `decode` is the decoding of UTF-8 that replaces what is not, and
`struct.unpack_from` raises an exception where the buffer is too short. -/
def parseResponse (decode : Bytes → String) (payload : Bytes) : Option ResponseFields :=
  if payload.length < 12 then none
  else
    let status := decodeU32Le payload 4
    let errorLen := (decodeU32Le payload 8).toNat
    let error := decode ((payload.drop 12).take errorLen)
    if payload.length < 12 + errorLen + 4 then none
    else some { status, resultCount := decodeU32Le payload (12 + errorLen), error }

/-- What `benchmark_batch` returns, without the times. -/
inductive Benchmark where
  | failed (error : String)
  | succeeded (numImages queueCapacity : Int) (numResults : UInt32)
  deriving DecidableEq, Repr

/-- `benchmark_batch` once the program has ended. -/
def readBenchmark (decode : Bytes → String) (numImages queueCapacity returncode : Int)
    (stdout : Bytes) : Option Benchmark :=
  if returncode ≠ 0 then some (.failed "Binary failed")
  else if stdout.length < 4 then some (.failed "Invalid output")
  else
    let payloadLen := (decodeU32Le stdout 0).toNat
    if stdout.length < 4 + payloadLen then some (.failed "Truncated output")
    else
      (parseResponse decode ((stdout.drop 4).take payloadLen)).bind fun fields =>
        if fields.status ≠ 0 then
          some (.failed ("Non-zero status " ++ toString fields.status.toNat ++ ": " ++
            fields.error))
        else if numImages = 0 then
          -- The time for each image is a division by their number.
          none
        else
          some (.succeeded numImages queueCapacity fields.resultCount)

/-- `benchmark_batch`, with the program as what it is run on leads to: an exit status and
the bytes on stdout, or an exception, as when it takes longer than the `timeout` of
`subprocess.run`. -/
def benchmarkBatch (decode : Bytes → String) (run : Bytes → Option (Int × Bytes))
    (numImages queueCapacity : Int) (imageData : Bytes) : Option Benchmark := do
  let images := List.replicate numImages.toNat imageData
  let frame ← buildRequestFrame 1 0 "F" 0 numImages images
  let shutdownFrame ← packU32 0
  let result ← run (frame ++ shutdownFrame)
  readBenchmark decode numImages queueCapacity result.1 result.2

/-- The arguments the script runs the program with. -/
def benchmarkArguments (modelPath : String) : Arguments :=
  { engine := "realcugan", mode := "stdin", keepAlive := true, quality := "F"
    model := modelPath, gpuId := "0" }

/-- The batch sizes of the script. -/
def batchSizes : List Int := [10, 20, 50]

/-- One round of the script's `main`: a batch that was not measured adds no result. -/
def addResult (decode : Bytes → String) (run : Int → Bytes → Option (Int × Bytes))
    (testImage : Bytes) (results : List Benchmark) (batchSize : Int) :
    Option (List Benchmark) :=
  (benchmarkBatch decode (run batchSize) batchSize 1 testImage).bind fun result =>
    match result with
    | .failed _ => some results
    | .succeeded .. => some (results ++ [result])

/-- The results that the script's `main` reports, on a program for each batch. -/
def benchmarkResults (decode : Bytes → String) (run : Int → Bytes → Option (Int × Bytes))
    (testImage : Bytes) : Option (List Benchmark) :=
  batchSizes.foldlM (addResult decode run testImage) []

/-! ## Reading the response -/

section Reading

variable {decode : Bytes → String} {numImages queueCapacity : Int} {response : Response}

theorem decodeU32Le_take {bytes : Bytes} {count offset : Nat} (inside : offset + 4 ≤ count) :
    decodeU32Le (bytes.take count) offset = decodeU32Le bytes offset := by
  have byteAt (index : Nat) (indexLt : index < count) :
      (bytes.take count).getD index 0 = bytes.getD index 0 := by
    rw [List.getD_eq_getElem?_getD, List.getElem?_take_of_lt indexLt, ← List.getD_eq_getElem?_getD]
  simp only [decodeU32Le]
  rw [byteAt offset (by omega), byteAt (offset + 1) (by omega), byteAt (offset + 2) (by omega),
    byteAt (offset + 3) (by omega)]

/-- The words at the front of a written response. -/
theorem written_words (response : Response) :
    ∃ rest, writeProtocolResponse response =
      Format.encodeU32 response.payloadBytes ++ (Format.encodeU32 response.requestId ++
        (Format.encodeU32 response.status.code ++ rest)) := by
  simp only [writeProtocolResponse, writeU32_eq, List.append_assoc]
  exact ⟨_, rfl⟩

theorem written_drop {first : UInt32} {bytes written : Bytes}
    (writtenEq : written = Format.encodeU32 first ++ bytes) : written.drop 4 = bytes := by
  rw [writtenEq]
  exact @List.drop_left _ (Format.encodeU32 first) bytes

/-- The status read is the one written, however much of the response is read. -/
theorem status_of_parsed {written rest : Bytes} {first second code : UInt32} {count : Nat}
    {fields : ResponseFields}
    (parsed : parseResponse decode ((written.drop 4).take count) = some fields)
    (writtenEq : written =
      Format.encodeU32 first ++ (Format.encodeU32 second ++ (Format.encodeU32 code ++ rest))) :
    fields.status = code := by
  simp only [parseResponse, written_drop writtenEq] at parsed
  split at parsed
  · cases parsed
  · next long =>
      have enough : 4 + 4 ≤ count := by
        rw [List.length_take] at long
        omega
      split at parsed
      · cases parsed
      · cases parsed
        simp only
        rw [decodeU32Le_take enough]
        exact decodeU32Le_append (Format.encodeU32 second) code rest

/-- Nothing is measured unless the status read is that of a response with `Ok`. -/
theorem status_of_succeeded {images capacity : Int} {numResults : UInt32}
    (measured : readBenchmark decode numImages queueCapacity 0 (writeProtocolResponse response) =
      some (.succeeded images capacity numResults)) : response.status = .ok := by
  rcases written_words response with ⟨rest, writtenEq⟩
  simp only [readBenchmark, ne_eq, not_true_eq_false, if_false] at measured
  split at measured
  · cases measured
  · split at measured
    · cases measured
    · rcases Option.bind_eq_some_iff.mp measured with ⟨fields, parsed, succeeded⟩
      split at succeeded
      · cases succeeded
      · next zero =>
          have statusEq := status_of_parsed parsed writtenEq
          rw [Decidable.not_not.mp zero] at statusEq
          cases status : response.status with
          | ok => rfl
          | _ =>
              rw [status] at statusEq
              cases statusEq

/-- What `parse_response` makes of the front of an answer without an error. -/
theorem parseResponse_ok (requestId : UInt32) (outputs : List Bytes) {count : Nat}
    (within : count ≤ (responseFormat.encode
      { requestId, status := .ok, error := [], outputs }).length) :
    parseResponse decode ((responseFormat.encode
        { requestId, status := .ok, error := [], outputs }).take count) =
      if count < 16 then none
      else
        some { status := 0, resultCount := UInt32.ofNat outputs.length, error := decode [] } := by
  have lengthEq := List.length_take_of_le within
  rw [responseFormat_encode] at lengthEq ⊢
  simp only [ProtocolStatus.code, List.length_nil, List.append_nil] at lengthEq ⊢
  simp only [parseResponse, lengthEq]
  by_cases short : count < 12
  · rw [if_pos short, if_pos (by omega)]
  · have errorLen : decodeU32Le ((Format.encodeU32 requestId ++ (Format.encodeU32 0 ++
        (Format.encodeU32 (UInt32.ofNat 0) ++ (Format.encodeU32 (UInt32.ofNat outputs.length) ++
          outputs.flatMap Format.sized.encode)))).take count) 8 = UInt32.ofNat 0 := by
      rw [decodeU32Le_take (by omega), ← List.append_assoc]
      exact decodeU32Le_append (Format.encodeU32 requestId ++ Format.encodeU32 0) _ _
    rw [if_neg short, errorLen]
    simp only [UInt32.toNat_ofNat', Nat.zero_mod, Nat.add_zero, List.take_zero]
    split
    · rfl
    · rw [decodeU32Le_take (by omega), decodeU32Le_take (by omega)]
      have statusWord := decodeU32Le_append (Format.encodeU32 requestId) 0
        (Format.encodeU32 (UInt32.ofNat 0) ++ (Format.encodeU32 (UInt32.ofNat outputs.length) ++
          outputs.flatMap Format.sized.encode))
      have countWord := decodeU32Le_append (Format.encodeU32 requestId ++ Format.encodeU32 0 ++
        Format.encodeU32 (UInt32.ofNat 0)) (UInt32.ofNat outputs.length)
        (outputs.flatMap Format.sized.encode)
      simp only [List.append_assoc, List.length_append, Format.encodeU32_length]
        at statusWord countWord
      rw [statusWord, countWord]

/-- How the script reads an answer without an error: the length it is told, which may have
wrapped, has to reach the fields it looks at. -/
theorem readBenchmark_ok (requestId : UInt32) (outputs : List Bytes) (numPos : numImages ≠ 0) :
    let response : Response := { requestId, status := .ok, error := [], outputs }
    readBenchmark decode numImages queueCapacity 0 (writeProtocolResponse response) =
      if response.payloadBytes.toNat < 16 then none
      else some (.succeeded numImages queueCapacity (UInt32.ofNat outputs.length)) := by
  intro response
  have writtenEq : writeProtocolResponse response =
      Format.encodeU32 response.payloadBytes ++ responseFormat.encode response := by
    rw [writeProtocolResponse_split (by decide : [].length < 2 ^ 32), writeU32_eq]
  have lengthEq : (writeProtocolResponse response).length = 4 + response.size := by
    rw [writtenEq, List.length_append, Format.encodeU32_length, responseFormat_encode_length]
  have lengthWord : decodeU32Le (writeProtocolResponse response) 0 = response.payloadBytes := by
    rw [writtenEq]
    exact decodeU32Le_append [] response.payloadBytes _
  have wordLe : response.payloadBytes.toNat ≤ response.size := by
    rw [Response.payloadBytes_eq, UInt32.toNat_ofNat']
    exact Nat.mod_le _ _
  have within : response.payloadBytes.toNat ≤ (responseFormat.encode response).length := by
    rw [responseFormat_encode_length]
    exact wordLe
  simp only [readBenchmark, ne_eq, not_true_eq_false, if_false, lengthEq, lengthWord]
  rw [if_neg (by omega), if_neg (by omega), written_drop writtenEq,
    parseResponse_ok requestId outputs within]
  split
  · rfl
  · rw [Option.bind_some]
    simp only [not_true_eq_false, if_false]

end Reading

/-! ## The frame -/

section Building

variable {requestId engine gpuId batchCount value : Int} {metaText : String}
  {images : List Bytes} {packed : Bytes}

theorem packU32_some (packs : packU32 value = some packed) :
    0 ≤ value ∧ value < 2 ^ 32 ∧ packed.length = 4 := by
  simp only [packU32] at packs
  split at packs
  · next fits =>
      cases packs
      exact ⟨fits.1, fits.2, Format.encodeU32_length _⟩
  · cases packs

theorem extendImages_length {payload : Bytes} (taken : extendImages payload images = some packed) :
    packed.length = payload.length + (images.map fun image => 4 + image.length).sum := by
  induction images generalizing payload with
  | nil =>
      cases taken
      simp
  | cons image images ih =>
      rw [extendImages, Option.bind_eq_bind] at taken
      rcases Option.bind_eq_some_iff.mp taken with ⟨length, packs, rest⟩
      rw [ih rest, List.length_append, List.length_append, (packU32_some packs).2.2,
        List.map_cons, List.sum_cons]
      omega

theorem packHeader_length (packs : packHeader requestId = some packed) : packed.length = 16 := by
  simp only [packHeader, Option.bind_eq_bind] at packs
  rcases Option.bind_eq_some_iff.mp packs with ⟨magic, magicEq, packs⟩
  rcases Option.bind_eq_some_iff.mp packs with ⟨version, versionEq, packs⟩
  rcases Option.bind_eq_some_iff.mp packs with ⟨msgType, msgTypeEq, packs⟩
  rcases Option.bind_eq_some_iff.mp packs with ⟨id, idEq, packs⟩
  cases packs
  simp only [List.length_append, (packU32_some magicEq).2.2, (packU32_some versionEq).2.2,
    (packU32_some msgTypeEq).2.2, (packU32_some idEq).2.2]

theorem payload_length
    (packs : packPayload engine metaText gpuId batchCount images = some packed) :
    0 ≤ batchCount ∧ packed.length =
      13 + (text metaText).length + (images.map fun image => 4 + image.length).sum := by
  simp only [packPayload, Option.bind_eq_bind] at packs
  rcases Option.bind_eq_some_iff.mp packs with ⟨selector, selectorEq, packs⟩
  rcases Option.bind_eq_some_iff.mp packs with ⟨metaLength, metaEq, packs⟩
  rcases Option.bind_eq_some_iff.mp packs with ⟨gpu, gpuEq, packs⟩
  rcases Option.bind_eq_some_iff.mp packs with ⟨count, countEq, packs⟩
  refine ⟨(packU32_some countEq).1, ?_⟩
  have selectorLength : selector.length = 1 := by
    simp only [append] at selectorEq
    split at selectorEq
    · cases selectorEq
      rfl
    · cases selectorEq
  have gpuLength : gpu.length = 4 := by
    simp only [packI32] at gpuEq
    split at gpuEq
    · cases gpuEq
      exact Format.encodeU32_length _
    · cases gpuEq
  rw [extendImages_length packs]
  simp only [List.length_append, selectorLength, (packU32_some metaEq).2.2, gpuLength,
    (packU32_some countEq).2.2]
  omega

/-- A frame is built only for a count that is not negative and a message whose length fits
its word. -/
theorem fits_of_built
    (built : buildRequestFrame requestId engine metaText gpuId batchCount images = some packed) :
    0 ≤ batchCount ∧ messageLength metaText images < 2 ^ 32 := by
  simp only [buildRequestFrame, Option.bind_eq_bind] at built
  rcases Option.bind_eq_some_iff.mp built with ⟨header, headerEq, built⟩
  rcases Option.bind_eq_some_iff.mp built with ⟨payload, payloadEq, built⟩
  rcases Option.bind_eq_some_iff.mp built with ⟨frameLength, lengthEq, _⟩
  rcases payload_length payloadEq with ⟨countPos, payloadLength⟩
  have total := (packU32_some lengthEq).2.1
  have headerLength := packHeader_length headerEq
  simp only [messageLength]
  omega

end Building

/-! ## What the server takes the frame for -/

section Serving

variable {opts : Options} {requestId : UInt32} {engine : EngineType} {metaText : String}
  {gpuId : Int32} {images : List Bytes}

/-- A request that a client can write is a value of the format, within the limits or not. -/
theorem request_valid (engine : EngineType) (gpuId : Int32)
    (metaFits : (text metaText).length < 2 ^ 32) (fits : messageLength metaText images < 2 ^ 32) :
    requestFormat.Valid (request engine metaText gpuId images) := by
  rcases lengths_lt fits with ⟨_, countFits, imagesFit⟩
  have engineValid : engineFormat.Valid engine := by
    refine ⟨trivial, ?_⟩
    simp only [engineByte_le_one, if_false, engineOf_engineByte]
  have gpuValid : i32.Valid gpuId := by
    refine ⟨trivial, ?_⟩
    simp
  have imagesValid : ∀ image ∈ images, Format.sized.Valid image := by
    intro image member
    exact (Format.sized_valid image).mpr (imagesFit image member)
  have countEq : images.length = (UInt32.ofNat images.length).toNat :=
    (UInt32.toNat_ofNat_of_lt' countFits).symm
  exact ⟨⟨engineValid, (Format.sized_valid _).mpr metaFits, gpuValid, trivial, countEq,
    imagesValid⟩, rfl⟩

/-- The body of a client with ASCII metadata carries the client's request, within the
server's limits, or none. -/
theorem carries_message_iff (metaShort : (text metaText).length ≤ kMaxMetaStringBytes)
    (ascii : AsciiOnly metaText) (fits : messageLength metaText images < 2 ^ 32)
    {other : RequestPayload} :
    Carries opts (header requestId ++ payload engine metaText gpuId images) other ↔
      other = request engine metaText gpuId images ∧
        WithinServerLimits opts metaText images := by
  constructor
  · intro carries
    rcases (parseRequestPayload_eq_ok_iff _ _ _).mp carries.payload with ⟨bodyEq, limits⟩
    have encoded : payload engine metaText gpuId images =
        (request engine metaText gpuId images).encode := by
      rw [RequestPayload.encode_eq]
      simp only [payload, request]
      rw [(length_eq_text_length_iff metaText).mpr ascii]
    have metaFits : (text metaText).length < 2 ^ 32 :=
      Nat.lt_of_le_of_lt metaShort (by decide)
    rw [header_drop, encoded, ← requestFormat_encode, ← requestFormat_encode] at bodyEq
    have same := (requestFormat.encode_append_inj limits.valid
      (request_valid engine gpuId metaFits fits)
      (congrArg (fun bytes => bytes ++ []) bodyEq.symm)).1
    subst same
    have count : images.length = (UInt32.ofNat images.length).toNat := limits.count_eq
    have countPos : 1 ≤ (UInt32.ofNat images.length).toNat := limits.count_pos
    have countLe : (UInt32.ofNat images.length).toNat ≤ batchLimit opts := limits.count_le
    rw [← count] at countPos countLe
    have long := carries.length.2
    rw [message_length] at long
    exact ⟨rfl, countPos, countLe, limits.bytes_le, long⟩
  · intro given
    rcases given with ⟨rfl, limits⟩
    exact messageFrame_carries requestId engine gpuId metaShort limits ascii

/-- The one answer to a frame: with `Ok` and the outputs, if the frame carries a request
and the engine returns them, and with another status if not. -/
theorem served_response {σ : Type} (server : KeepAlive.Engine σ) (opts : Options)
    (body : Bytes) (state : σ) :
    ∃ response, responsesOf (serveFrame server opts body state).events = [response] ∧
      ((∃ request outputs, Carries opts body request ∧
          Returns server opts.outputFormat state request.images outputs ∧
          response = { requestId := decodeU32Le body 12, status := .ok, error := [], outputs }) ∨
        response.status ≠ .ok ∧ ∀ request outputs, Carries opts body request →
          ¬Returns server opts.outputFormat state request.images outputs) := by
  rcases serveFrame_cases server opts body state with
    ⟨request, carries, serveEq⟩ | ⟨none, requestId, _, status, message, serveEq, refused⟩
  · rw [serveEq]
    rcases @handleRequest_spec _ server opts (decodeU32Le body 12) request body.length state
      carries.count with ⟨response, responses, idEq, ok | failed⟩
    · rcases ok with ⟨statusEq, errorEq, returns⟩
      refine ⟨response, responses, .inl ⟨request, response.outputs, carries, returns, ?_⟩⟩
      rw [← idEq, ← statusEq, ← errorEq]
    · rcases failed with ⟨index, statusEq, _, _, failsFirst, _⟩
      refine ⟨response, responses, .inr ⟨by simp [statusEq], ?_⟩⟩
      intro other outputs otherCarries
      rw [otherCarries.unique carries]
      exact failsFirst.not_returns outputs
  · refine ⟨errorResponse requestId status message, ?_, .inr ⟨refused.failed, ?_⟩⟩
    · rw [serveEq]
      rfl
    · intro request outputs carries
      exact absurd carries (none request)

/-- What the loop writes for one frame and the shutdown word. -/
theorem stdout_one_frame {σ : Type} (server : KeepAlive.Engine σ) (opts : Options) (state : σ)
    (frame : Frame) {response : Response}
    (responses : responsesOf (serveFrame server opts frame.body state).events = [response]) :
    stdoutOf (runKeepAliveProtocolV2 server opts state
      (frame.encode ++ Format.encodeU32 0)).trace = writeProtocolResponse response := by
  have shutdown : Residual (Format.encodeU32 0) := .inr (.inr ⟨[], (List.append_nil _).symm⟩)
  have traceEq := (run_of_split server opts state [frame] shutdown).1
  rw [List.flatMap_singleton] at traceEq
  apply stdoutOf_of_responses
  rw [traceEq]
  simp only [servedEvents, List.append_nil]
  exact responses

end Serving

/-! ## The benchmark of the program -/

section Measuring

variable {δ ν ω ρ φ : Type}

/-- The program as the script runs it; `late` tells that it does not end within the time
limit. -/
def served (around : Surroundings δ ν ω ρ φ) (modelPath : String) (files : φ) (world : ω)
    (late : Bool) (stdin : Bytes) : Option (Int × Bytes) :=
  if late then none
  else
    let done := main around (.values (benchmarkArguments modelPath)) stdin files world
    -- Python reports the signal of an abort, which is 6, as a negative status.
    some (done.exitCode.getD (-6), done.stdout)

/-- The options of that program. -/
def benchmarkOptions (modelPath : String) : Options :=
  (benchmarkArguments modelPath).command.toOptions

theorem benchmarkArguments_accepted (modelPath : String) :
    parseOptions (.values (benchmarkArguments modelPath)) =
      .ok (benchmarkArguments modelPath).command := by rfl

theorem benchmarkArguments_mode (modelPath : String) :
    (benchmarkArguments modelPath).command.mode = .stdin ∧
      (benchmarkArguments modelPath).command.keepAlive = true := by
  have mode : parseMode "stdin" = .stdin := by decide
  simp only [benchmarkArguments, Arguments.command, mode]
  exact ⟨trivial, trivial⟩

/-- A program whose engine is started serves the frames on its stdin. -/
theorem served_started {around : Surroundings δ ν ω ρ φ} {modelPath : String} {files : φ}
    (starts : Starts around (benchmarkOptions modelPath) files) (world : ω) (stdin : Bytes) :
    served around modelPath files world false stdin =
      some (0, stdoutOf (runKeepAliveProtocolV2
        (Machine.keepAliveEngine around.net (imageIo around.libraries))
        (benchmarkOptions modelPath)
        (boot around.platform (benchmarkOptions modelPath) world) stdin).trace) := by
  rcases benchmarkArguments_mode modelPath with ⟨mode, alive⟩
  rcases starts.main_eq (benchmarkArguments_accepted modelPath) stdin world with
    ⟨exitEq, stdoutEq, _⟩
  simp only [served, exitEq, stdoutEq, runMode, mode, runStdinMode, alive, not_true_eq_false,
    Bool.false_eq_true, if_false]
  rfl

theorem served_unstarted {around : Surroundings δ ν ω ρ φ} {modelPath : String} {files : φ}
    (fails : ¬Starts around (benchmarkOptions modelPath) files) {world : ω} {stdin : Bytes}
    {result : Int × Bytes} (ended : served around modelPath files world false stdin = some result) :
    result.1 ≠ 0 := by
  have unstarted := (main_unstarted fails (benchmarkArguments_accepted modelPath) stdin world).2
  simp only [served, Bool.false_eq_true, if_false] at ended
  cases ended
  cases exitEq : (main around (.values (benchmarkArguments modelPath)) stdin files
    world).exitCode with
  | none => exact (by decide : (-6 : Int) ≠ 0)
  | some code =>
      rw [exitEq] at unstarted
      intro zero
      exact unstarted (congrArg some zero)

/-- Copies of an image are within the server's limits exactly when there are one to eight of
them, of 48 MiB at most. -/
theorem withinServerLimits_copies (modelPath : String) (count : Nat) (image : Bytes) :
    WithinServerLimits (benchmarkOptions modelPath) "F" (List.replicate count image) ↔
      1 ≤ count ∧ count ≤ 8 ∧ count * image.length ≤ kMaxBatchPayloadBytes := by
  have limit : batchLimit (benchmarkOptions modelPath) = 8 := by rfl
  have bytes : RequestPayload.imageBytes (List.replicate count image) = count * image.length := by
    simp [RequestPayload.imageBytes]
  have message : messageLength "F" (List.replicate count image) =
      30 + count * (4 + image.length) := by
    have single : (text "F").length = 1 := by rfl
    simp only [messageLength, single, List.map_replicate, List.sum_replicate_nat]
  constructor
  · intro limits
    have countPos := limits.count_pos
    have countLe := limits.count_le
    have bytesLe := limits.bytes_le
    rw [List.length_replicate] at countPos countLe
    rw [limit] at countLe
    rw [bytes] at bytesLe
    exact ⟨countPos, countLe, bytesLe⟩
  · intro given
    rcases given with ⟨countPos, countLe, bytesLe⟩
    refine ⟨?_, ?_, ?_, ?_⟩
    · rw [List.length_replicate]
      exact countPos
    · rw [List.length_replicate, limit]
      exact countLe
    · rw [bytes]
      exact bytesLe
    · rw [message, Nat.mul_add]
      simp only [kMaxBatchPayloadBytes, kMaxMessageBytes] at bytesLe ⊢
      omega

/-- The frame of the script. -/
def benchmarkFrame {images : List Bytes} (fits : messageLength "F" images < 2 ^ 32) : Frame where
  body := header 1 ++ payload .realCUGAN "F" 0 images
  nonempty := by
    rw [List.length_append, header_length]
    exact Nat.lt_of_lt_of_le (by decide) (Nat.le_add_right _ _)
  fits := by
    rw [message_length]
    exact fits

theorem requestId_benchmark {images : List Bytes} (fits : messageLength "F" images < 2 ^ 32) :
    decodeU32Le (benchmarkFrame fits).body 12 = 1 :=
  (header_words 1 _).2

theorem benchmarkFrame_carries {opts : Options} {images : List Bytes}
    (fits : messageLength "F" images < 2 ^ 32) {other : RequestPayload} :
    Carries opts (benchmarkFrame fits).body other ↔
      other = request .realCUGAN "F" 0 images ∧ WithinServerLimits opts "F" images :=
  carries_message_iff (by decide) ((length_eq_text_length_iff "F").mp (by decide)) fits

/-- The script runs the program on its frame and the shutdown word. -/
theorem benchmarkBatch_eq (decode : Bytes → String) (run : Bytes → Option (Int × Bytes))
    {count : Nat} (queueCapacity : Int) {image : Bytes}
    (fits : messageLength "F" (List.replicate count image) < 2 ^ 32) :
    benchmarkBatch decode run count queueCapacity image =
      (run ((benchmarkFrame fits).encode ++ Format.encodeU32 0)).bind fun result =>
        readBenchmark decode count queueCapacity result.1 result.2 := by
  have built : buildRequestFrame 1 0 "F" 0 (List.replicate count image).length
      (List.replicate count image) = some (benchmarkFrame fits).encode :=
    buildRequestFrame_eq 1 .realCUGAN 0 fits
  have shutdown : packU32 0 = some (Format.encodeU32 0) := rfl
  rw [List.length_replicate] at built
  simp only [benchmarkBatch, Int.toNat_natCast, built, shutdown, Option.bind_eq_bind,
    Option.bind_some]

/-- What the script makes of the one answer to its frame. -/
theorem readBenchmark_served {around : Surroundings δ ν ω ρ φ} {modelPath : String} {files : φ}
    (starts : Starts around (benchmarkOptions modelPath) files) (world : ω)
    (decode : Bytes → String) {count : Nat} (queueCapacity : Int) {image : Bytes}
    (fits : messageLength "F" (List.replicate count image) < 2 ^ 32) {response : Response}
    (responses : responsesOf (serveFrame
      (Machine.keepAliveEngine around.net (imageIo around.libraries)) (benchmarkOptions modelPath)
      (benchmarkFrame fits).body
      (boot around.platform (benchmarkOptions modelPath) world)).events = [response]) :
    benchmarkBatch decode (served around modelPath files world false) count queueCapacity image =
      readBenchmark decode count queueCapacity 0 (writeProtocolResponse response) := by
  rw [benchmarkBatch_eq decode _ queueCapacity fits, served_started starts, Option.bind_some,
    stdout_one_frame _ _ _ _ responses]

/-- What a measurement takes: an engine that is started, one to eight copies of the image, of
48 MiB at most together, an output for each of them in turn, and an answer whose length
word, if it wraps, still covers the fields that the script looks at. -/
structure Measurable (around : Surroundings δ ν ω ρ φ) (modelPath : String) (files : φ)
    (world : ω) (count : Nat) (image : Bytes) : Prop where
  starts : Starts around (benchmarkOptions modelPath) files
  count_pos : 1 ≤ count
  count_le : count ≤ 8
  bytes_le : count * image.length ≤ kMaxBatchPayloadBytes
  answered : ∃ outputs, Returns (Machine.keepAliveEngine around.net (imageIo around.libraries))
      (benchmarkOptions modelPath).outputFormat
      (boot around.platform (benchmarkOptions modelPath) world)
      (List.replicate count image) outputs ∧
    16 ≤ (Response.payloadBytes { requestId := 1, status := .ok, error := [], outputs }).toNat

section Runs

variable {around : Surroundings δ ν ω ρ φ} {modelPath : String} {files : φ} {world : ω}
  {late : Bool} {decode : Bytes → String} {numImages queueCapacity : Int} {image : Bytes}

/-- Nothing else is measured. -/
theorem measurable_of_measured {images capacity : Int} {numResults : UInt32}
    (measured : benchmarkBatch decode (served around modelPath files world late) numImages
      queueCapacity image = some (.succeeded images capacity numResults)) :
    images = numImages ∧ capacity = queueCapacity ∧ late = false ∧
      ∃ count : Nat, numImages = count ∧ numResults = UInt32.ofNat count ∧
        Measurable around modelPath files world count image := by
  have unfolded := measured
  simp only [benchmarkBatch, Option.bind_eq_bind] at unfolded
  rcases Option.bind_eq_some_iff.mp unfolded with ⟨packed, built, _⟩
  rcases fits_of_built built with ⟨countPos, fits⟩
  rcases Int.eq_ofNat_of_zero_le countPos with ⟨count, rfl⟩
  rw [Int.toNat_natCast] at fits
  have ended := measured
  rw [benchmarkBatch_eq _ _ _ fits] at ended
  rcases Option.bind_eq_some_iff.mp ended with ⟨result, resultEq, readEq⟩
  cases late with
  | true => cases resultEq
  | false => ?_
  have starts : Starts around (benchmarkOptions modelPath) files := by
    by_contra fails
    simp [readBenchmark, served_unstarted fails resultEq] at readEq
  rcases served_response (Machine.keepAliveEngine around.net (imageIo around.libraries))
    (benchmarkOptions modelPath) (benchmarkFrame fits).body
    (boot around.platform (benchmarkOptions modelPath) world) with ⟨response, responses, kind⟩
  rw [readBenchmark_served starts world decode queueCapacity fits responses] at measured
  rcases kind with ⟨request, outputs, carries, returns, responseEq⟩ | ⟨failed, _⟩
  · rcases (benchmarkFrame_carries fits).mp carries with ⟨requestEq, limits⟩
    rcases (withinServerLimits_copies _ _ _).mp limits with ⟨countPos, countLe, bytesLe⟩
    rw [requestEq] at returns
    rw [responseEq, requestId_benchmark, readBenchmark_ok 1 outputs (by omega)] at measured
    split at measured
    · cases measured
    · next long =>
        cases measured
        refine ⟨rfl, rfl, rfl, count, rfl, ?_, starts, countPos, countLe, bytesLe, outputs, returns,
          Nat.not_lt.mp long⟩
        rw [returns.length_eq]
        exact congrArg UInt32.ofNat List.length_replicate
  · exact absurd (status_of_succeeded measured) failed

/-- All of this is measured. -/
theorem Measurable.measured {count : Nat}
    (measurable : Measurable around modelPath files world count image) :
    benchmarkBatch decode (served around modelPath files world false) count queueCapacity image =
      some (.succeeded count queueCapacity (UInt32.ofNat count)) := by
  have countPos := measurable.count_pos
  rcases measurable.answered with ⟨outputs, returns, long⟩
  have limits := (withinServerLimits_copies modelPath count image).mpr
    ⟨countPos, measurable.count_le, measurable.bytes_le⟩
  have fits := limits.fits
  have carries := (benchmarkFrame_carries fits).mpr ⟨rfl, limits⟩
  rcases served_response (Machine.keepAliveEngine around.net (imageIo around.libraries))
    (benchmarkOptions modelPath) (benchmarkFrame fits).body
    (boot around.platform (benchmarkOptions modelPath) world) with ⟨response, responses, kind⟩
  rw [readBenchmark_served measurable.starts world decode _ fits responses]
  rcases kind with ⟨request, others, otherCarries, otherReturns, responseEq⟩ | ⟨_, never⟩
  · rw [otherCarries.unique carries] at otherReturns
    rw [otherReturns.unique returns] at responseEq
    rw [responseEq, requestId_benchmark, readBenchmark_ok 1 outputs (by omega),
      if_neg (Nat.not_lt.mpr long), returns.length_eq, List.length_replicate]
  · exact absurd returns (never _ outputs carries)

end Runs

end Measuring

/-- What the benchmark measures, whatever the machine it runs on: it reports a measurement
exactly for one to eight images, of 48 MiB at most together, when the program starts its
engine, the engine succeeds on each copy of the image in turn and the program ends within
the time limit; then it reports as many results as images. -/
theorem benchmark_measures_iff {δ ν ω ρ φ : Type} (around : Surroundings δ ν ω ρ φ)
    (modelPath : String) (files : φ) (world : ω) (late : Bool) (decode : Bytes → String)
    (numImages queueCapacity images capacity : Int) (image : Bytes) (numResults : UInt32) :
    benchmarkBatch decode (served around modelPath files world late) numImages queueCapacity
        image = some (.succeeded images capacity numResults) ↔
      images = numImages ∧ capacity = queueCapacity ∧ late = false ∧
        ∃ count : Nat, numImages = count ∧ numResults = UInt32.ofNat count ∧
          Measurable around modelPath files world count image := by
  constructor
  · exact measurable_of_measured
  · intro given
    rcases given with ⟨rfl, rfl, rfl, count, rfl, rfl, measurable⟩
    exact measurable.measured

/-- The script's own batches are too large for the options it leaves at their defaults: it
never has a result to report. -/
theorem benchmarkResults_nil {δ ν ω ρ φ : Type} (around : Int → Surroundings δ ν ω ρ φ)
    (modelPath : String) (files : Int → φ) (world : Int → ω) (late : Int → Bool)
    (decode : Bytes → String) (image : Bytes) {results : List Benchmark}
    (reported : benchmarkResults decode (fun size => served (around size) modelPath (files size)
      (world size) (late size)) image = some results) : results = [] := by
  have step {size : Int} (large : size ∈ batchSizes) (before : List Benchmark)
      {after : List Benchmark}
      (stepped : addResult decode (fun size => served (around size) modelPath (files size)
        (world size) (late size)) image before size = some after) : after = before := by
    simp only [addResult] at stepped
    rcases Option.bind_eq_some_iff.mp stepped with ⟨result, measured, added⟩
    cases result with
    | failed error =>
        cases added
        rfl
    | succeeded images capacity numResults =>
        rcases measurable_of_measured measured with
          ⟨_, _, _, count, sizeEq, _, measurable⟩
        have countLe := measurable.count_le
        simp only [batchSizes, List.mem_cons, List.not_mem_nil, or_false] at large
        omega
  simp only [benchmarkResults, batchSizes, List.foldlM_cons, List.foldlM_nil,
    Option.bind_eq_bind] at reported
  rcases Option.bind_eq_some_iff.mp reported with ⟨first, firstEq, reported⟩
  rcases Option.bind_eq_some_iff.mp reported with ⟨second, secondEq, reported⟩
  rcases Option.bind_eq_some_iff.mp reported with ⟨third, thirdEq, reported⟩
  cases reported
  rw [step (by decide) _ thirdEq, step (by decide) _ secondEq, step (by decide) _ firstEq]

end NcnnUpscaler.Program
