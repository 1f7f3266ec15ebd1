import Mathlib.Algebra.Order.Ring.Int
import Mathlib.Data.List.GetD
import NcnnUpscaler.KeepAlive.Answer
import NcnnUpscaler.Protocol.RequestFormat

/-!
# The benchmark client

`build_request_frame` of `benchmark_pipeline.py` against the loop and the parsers
that read what it writes.  A Python integer has no width, and packing one that does
not fit its field raises an exception, which is `none` here; a `str` that has a
UTF-8 encoding is a `String`.  The client counts the metadata in characters and the
server in bytes, so the two agree exactly on ASCII metadata.
-/

namespace NcnnUpscaler.KeepAlive

open Wire Protocol

namespace Client

/-- `K_MAGIC`. -/
def kMagic : Int := 0x42524452

/-- `K_VERSION`. -/
def kVersion : Int := 2

/-- `MSG_TYPE_REQUEST`. -/
def msgTypeRequest : Int := 1

/-- `struct.pack("<I", value)`. -/
def packU32 (value : Int) : Option Bytes :=
  if 0 ≤ value ∧ value < 2 ^ 32 then some (Format.encodeU32 (UInt32.ofNat value.toNat))
  else none

/-- `struct.pack("<i", value)`. -/
def packI32 (value : Int) : Option Bytes :=
  if -2 ^ 31 ≤ value ∧ value < 2 ^ 31 then
    some (Format.encodeU32 (Int32.ofInt value).toUInt32)
  else
    none

/-- `payload.append(value)`. -/
def append (payload : Bytes) (value : Int) : Option Bytes :=
  if 0 ≤ value ∧ value < 256 then some (payload ++ [UInt8.ofNat value.toNat]) else none

/-- The loop over the images. -/
def extendImages : (payload : Bytes) → (images : List Bytes) → Option Bytes
  | payload, [] => some payload
  | payload, image :: images => do
      let length ← packU32 image.length
      extendImages (payload ++ length ++ image) images

/-- The header: `struct.pack("<IIII", K_MAGIC, K_VERSION, MSG_TYPE_REQUEST, request_id)`. -/
def packHeader (requestId : Int) : Option Bytes := do
  let magic ← packU32 kMagic
  let version ← packU32 kVersion
  let msgType ← packU32 msgTypeRequest
  let id ← packU32 requestId
  return magic ++ version ++ msgType ++ id

/-- The payload, field by field. -/
def packPayload (engine : Int) (metaText : String) (gpuId batchCount : Int)
    (images : List Bytes) : Option Bytes := do
  let selector ← append [] engine
  -- `len(meta)` counts characters, `meta.encode()` is the UTF-8 bytes.
  let metaLength ← packU32 metaText.length
  let gpu ← packI32 gpuId
  let count ← packU32 batchCount
  extendImages (selector ++ metaLength ++ text metaText ++ gpu ++ count) images

/-- `build_request_frame`. -/
def buildRequestFrame (requestId engine : Int) (metaText : String) (gpuId batchCount : Int)
    (images : List Bytes) : Option Bytes := do
  let header ← packHeader requestId
  let payload ← packPayload engine metaText gpuId batchCount images
  let frameLength ← packU32 (header.length + payload.length)
  return frameLength ++ header ++ payload

/-- The header of a message. -/
def header (requestId : UInt32) : Bytes :=
  Format.encodeU32 kProtocolMagic ++ (Format.encodeU32 kProtocolVersion ++
    (Format.encodeU32 requestMessageType ++ Format.encodeU32 requestId))

/-- The payload of a message, with the word the client writes before the metadata. -/
def payload (engine : EngineType) (metaText : String) (gpuId : Int32)
    (images : List Bytes) : Bytes :=
  engineByte engine ::
    (Format.encodeU32 (UInt32.ofNat metaText.length) ++
      (text metaText ++ (Format.encodeU32 gpuId.toUInt32 ++
        (Format.encodeU32 (UInt32.ofNat images.length) ++
          images.flatMap Format.sized.encode))))

/-- The number of bytes in a message. -/
def messageLength (metaText : String) (images : List Bytes) : Nat :=
  29 + (text metaText).length + (images.map fun image => 4 + image.length).sum

/-- The request a client asks for. -/
def request (engine : EngineType) (metaText : String) (gpuId : Int32)
    (images : List Bytes) : RequestPayload :=
  { engine, qualityOrScale := text metaText, gpuId
    batchCount := UInt32.ofNat images.length, images }

/-- The images are as many as the server takes, and their bytes and the message
they make are as long as it takes. -/
structure WithinServerLimits (opts : Options) (metaText : String) (images : List Bytes) :
    Prop where
  count_pos : 1 ≤ images.length
  count_le : images.length ≤ batchLimit opts
  bytes_le : RequestPayload.imageBytes images ≤ kMaxBatchPayloadBytes
  message_le : messageLength metaText images ≤ kMaxMessageBytes

/-- The loop takes the frame off its input whole, whatever follows it, and hands
on the body; the header parser accepts the body under the request id, and the
payload parser accepts what follows the header as the request. -/
structure Reads (opts : Options) (frame : Frame) (requestId : UInt32)
    (request : RequestPayload) : Prop where
  taken : ∀ {σ : Type} (engine : Engine σ) (session : Session σ) (rest : Bytes),
    iterate engine opts { session with stdin := frame.encode ++ rest } =
      .next ({ session with stdin := rest }.after
        (handlePayload engine opts frame.body session.engine))
  header : ∀ previous, parseProtocolHeader frame.body previous =
    ({ magic := kProtocolMagic, version := kProtocolVersion
       msgType := requestMessageType, requestId }, none)
  payload : parseRequestPayload (frame.body.drop kProtocolHeaderSize) (batchLimit opts) =
    .ok request

/-- The client builds a frame, and the server reads it as what the client asks for. -/
def Agrees (opts : Options) (requestId : UInt32) (engine : EngineType) (metaText : String)
    (gpuId : Int32) (images : List Bytes) : Prop :=
  ∃ frame : Frame,
    buildRequestFrame requestId.toNat (engineByte engine).toNat metaText gpuId.toInt
        images.length images = some frame.encode ∧
      Reads opts frame requestId (request engine metaText gpuId images)

/-! ## Packing -/

theorem packU32_of_lt {value : Nat} (fits : value < 2 ^ 32) :
    packU32 value = some (Format.encodeU32 (UInt32.ofNat value)) := by
  simp only [packU32, Int.toNat_natCast]
  rw [if_pos]
  omega

theorem packU32_toNat (word : UInt32) :
    packU32 word.toNat = some (Format.encodeU32 word) := by
  rw [packU32_of_lt word.toNat_lt, UInt32.ofNat_toNat]

theorem packI32_toInt (value : Int32) :
    packI32 value.toInt = some (Format.encodeU32 value.toUInt32) := by
  have lower := value.le_toInt
  have upper := value.toInt_lt
  simp only [packI32, Int32.ofInt_toInt]
  rw [if_pos]
  omega

theorem append_engine (engine : EngineType) :
    append [] (engineByte engine).toNat = some [engineByte engine] := by
  cases engine <;> decide

theorem extendImages_eq (payload : Bytes) {images : List Bytes}
    (fits : ∀ image ∈ images, image.length < 2 ^ 32) :
    extendImages payload images = some (payload ++ images.flatMap Format.sized.encode) := by
  induction images generalizing payload with
  | nil => rw [extendImages, List.flatMap_nil, List.append_nil]
  | cons image images ih =>
      rw [List.forall_mem_cons] at fits
      rw [extendImages, packU32_of_lt fits.1, Option.bind_eq_bind, Option.bind_some,
        ih _ fits.2, List.flatMap_cons, Format.sized_encode]
      simp only [List.append_assoc]

/-- A message is its header and its payload. -/
theorem message_length (requestId : UInt32) (engine : EngineType) (metaText : String)
    (gpuId : Int32) (images : List Bytes) :
    (header requestId ++ payload engine metaText gpuId images).length =
      messageLength metaText images := by
  simp only [header, payload, messageLength, List.length_append, List.length_cons,
    Format.encodeU32_length, length_sized_flatMap]
  omega

/-- The client's constants are the server's. -/
theorem constants_eq :
    kMagic = kProtocolMagic.toNat ∧ kVersion = kProtocolVersion.toNat ∧
      msgTypeRequest = requestMessageType.toNat := by
  decide

/-- The lengths written in a message that fits its length word fit theirs. -/
theorem lengths_lt {metaText : String} {images : List Bytes}
    (fits : messageLength metaText images < 2 ^ 32) :
    metaText.length < 2 ^ 32 ∧ images.length < 2 ^ 32 ∧
      ∀ image ∈ images, image.length < 2 ^ 32 := by
  have metaLe := length_le_text_length metaText
  have countLe : images.length ≤ (images.map fun image => 4 + image.length).sum := by
    have bound := List.length_le_sum_of_one_le (images.map fun image => 4 + image.length) (by
      intro size member
      rcases List.mem_map.mp member with ⟨image, _, rfl⟩
      omega)
    rw [List.length_map] at bound
    exact bound
  simp only [messageLength] at fits
  refine ⟨by omega, by omega, ?_⟩
  intro image member
  have imageLe : 4 + image.length ≤ (images.map fun image => 4 + image.length).sum :=
    List.le_sum_of_mem (List.mem_map.mpr ⟨image, member, rfl⟩)
  omega

theorem packHeader_eq (requestId : UInt32) :
    packHeader requestId.toNat = some (header requestId) := by
  rcases constants_eq with ⟨magicEq, versionEq, msgTypeEq⟩
  rw [packHeader, magicEq, versionEq, msgTypeEq]
  simp only [packU32_toNat, Option.bind_eq_bind, Option.bind_some, Option.pure_def, header,
    List.append_assoc]

theorem packPayload_eq (engine : EngineType) {metaText : String} (gpuId : Int32)
    {images : List Bytes} (fits : messageLength metaText images < 2 ^ 32) :
    packPayload (engineByte engine).toNat metaText gpuId.toInt images.length images =
      some (payload engine metaText gpuId images) := by
  rcases lengths_lt fits with ⟨metaFits, countFits, imagesFit⟩
  rw [packPayload, append_engine, packU32_of_lt metaFits, packI32_toInt, packU32_of_lt countFits]
  simp only [Option.bind_eq_bind, Option.bind_some, extendImages_eq _ imagesFit, payload,
    List.append_assoc, List.singleton_append]

/-- A message that fits its length word is built, and is a frame. -/
theorem buildRequestFrame_eq (requestId : UInt32) (engine : EngineType) {metaText : String}
    (gpuId : Int32) {images : List Bytes} (fits : messageLength metaText images < 2 ^ 32) :
    buildRequestFrame requestId.toNat (engineByte engine).toNat metaText gpuId.toInt
        images.length images =
      some (Format.sized.encode
        (header requestId ++ payload engine metaText gpuId images)) := by
  have lengthEq := message_length requestId engine metaText gpuId images
  have total :
      packU32 ((header requestId).length + (payload engine metaText gpuId images).length) =
        some (Format.encodeU32 (UInt32.ofNat
          (header requestId ++ payload engine metaText gpuId images).length)) := by
    rw [← Int.natCast_add, ← List.length_append]
    rw [← lengthEq] at fits
    exact packU32_of_lt fits
  rw [buildRequestFrame, packHeader_eq, packPayload_eq engine gpuId fits]
  rw [Option.bind_eq_bind, Option.bind_some, Option.bind_some, total, Option.bind_some,
    Option.pure_def, Format.sized_encode, List.append_assoc]

/-! ## Reading -/

/-- The words of the client's header, whatever follows it. -/
theorem header_words (requestId : UInt32) (rest : Bytes) :
    HeaderOk (header requestId ++ rest) ∧
      decodeU32Le (header requestId ++ rest) 12 = requestId := by
  refine ⟨⟨?_, ?_, ?_⟩, ?_⟩
  · exact decodeU32Le_append [] kProtocolMagic _
  · exact decodeU32Le_append (Format.encodeU32 kProtocolMagic) kProtocolVersion _
  · exact decodeU32Le_append
      (Format.encodeU32 kProtocolMagic ++ Format.encodeU32 kProtocolVersion)
      requestMessageType _
  · exact decodeU32Le_append
      (Format.encodeU32 kProtocolMagic ++ Format.encodeU32 kProtocolVersion ++
        Format.encodeU32 requestMessageType) requestId _

theorem header_length (requestId : UInt32) :
    (header requestId).length = kProtocolHeaderSize := by
  simp only [header, List.length_append, Format.encodeU32_length]
  rfl

theorem header_drop (requestId : UInt32) (rest : Bytes) :
    (header requestId ++ rest).drop kProtocolHeaderSize = rest := by
  rw [← header_length requestId, List.drop_left]

/-- Whatever follows it, the client's header is accepted under its request id. -/
theorem parseProtocolHeader_header (requestId : UInt32) (rest : Bytes)
    (previous : ProtocolHeader) :
    parseProtocolHeader (header requestId ++ rest) previous =
      ({ magic := kProtocolMagic, version := kProtocolVersion
         msgType := requestMessageType, requestId }, none) := by
  have long : ¬(header requestId ++ rest).length < kProtocolHeaderSize := by
    rw [List.length_append, header_length]
    exact Nat.not_lt.mpr (Nat.le_add_right _ _)
  rcases header_words requestId rest with ⟨⟨magicEq, versionEq, msgTypeEq⟩, requestIdEq⟩
  simp only [parseProtocolHeader, if_neg long, magicEq, versionEq, msgTypeEq, requestIdEq,
    ne_eq, not_true_eq_false, if_false]

section Reading

variable {opts : Options} {engine : EngineType} {metaText : String} {gpuId : Int32}
  {images : List Bytes}

theorem WithinServerLimits.fits (limits : WithinServerLimits opts metaText images) :
    messageLength metaText images < 2 ^ 32 :=
  Nat.lt_of_le_of_lt limits.message_le (by decide)

/-- The message of a client within the limits, as a frame. -/
def messageFrame (requestId : UInt32) (engine : EngineType) (gpuId : Int32)
    (limits : WithinServerLimits opts metaText images) : Frame :=
  { body := header requestId ++ payload engine metaText gpuId images
    nonempty := by
      rw [List.length_append, header_length]
      exact Nat.lt_of_lt_of_le (by decide) (Nat.le_add_right _ _)
    fits := by
      rw [message_length]
      exact limits.fits }

theorem messageFrame_lengthOk (requestId : UInt32)
    (limits : WithinServerLimits opts metaText images) :
    LengthOk (messageFrame requestId engine gpuId limits).body := by
  refine ⟨?_, ?_⟩
  · simp only [messageFrame, List.length_append, header_length]
    exact Nat.le_add_right _ _
  · simp only [messageFrame, message_length]
    exact limits.message_le

/-- The client's payload is accepted as its request exactly when the metadata has as
many characters as bytes. -/
theorem parseRequestPayload_payload_iff (engine : EngineType) (gpuId : Int32)
    (metaShort : (text metaText).length ≤ kMaxMetaStringBytes)
    (limits : WithinServerLimits opts metaText images) :
    parseRequestPayload (payload engine metaText gpuId images) (batchLimit opts) =
        .ok (request engine metaText gpuId images) ↔
      metaText.length = (text metaText).length := by
  rcases lengths_lt limits.fits with ⟨metaFits, countFits, _⟩
  have countWord : (UInt32.ofNat images.length).toNat = images.length :=
    UInt32.toNat_ofNat_of_lt' countFits
  have within : (request engine metaText gpuId images).WithinLimits (batchLimit opts) :=
    { meta_le := metaShort
      count_eq := countWord.symm
      count_pos := by
        change 1 ≤ (UInt32.ofNat images.length).toNat
        rw [countWord]
        exact limits.count_pos
      count_le := by
        change (UInt32.ofNat images.length).toNat ≤ batchLimit opts
        rw [countWord]
        exact limits.count_le
      bytes_le := limits.bytes_le }
  rw [parseRequestPayload_eq_ok_iff, and_iff_left within, RequestPayload.encode_eq]
  constructor
  · intro same
    have wordEq : UInt32.ofNat metaText.length = UInt32.ofNat (text metaText).length :=
      (Format.u32.encode_append_inj trivial trivial (List.cons.inj same).2).1
    have bytesFit : (text metaText).length < 2 ^ 32 := Nat.lt_of_le_of_lt metaShort (by decide)
    calc metaText.length = (UInt32.ofNat metaText.length).toNat :=
          (UInt32.toNat_ofNat_of_lt' metaFits).symm
      _ = (UInt32.ofNat (text metaText).length).toNat := by rw [wordEq]
      _ = (text metaText).length := UInt32.toNat_ofNat_of_lt' bytesFit
  · intro same
    simp only [payload, request]
    rw [same]

/-! ## Agreement -/

/-- What the server makes of a client's frame is settled by the payload alone. -/
theorem agrees_iff (requestId : UInt32) (engine : EngineType) (gpuId : Int32)
    (limits : WithinServerLimits opts metaText images) :
    Agrees opts requestId engine metaText gpuId images ↔
      parseRequestPayload (payload engine metaText gpuId images) (batchLimit opts) =
        .ok (request engine metaText gpuId images) := by
  have built := buildRequestFrame_eq requestId engine gpuId limits.fits
  constructor
  · intro agrees
    rcases agrees with ⟨frame, frameBuilt, reads⟩
    rw [built] at frameBuilt
    have messageFits := (messageFrame requestId engine gpuId limits).fits
    have encodeEq := congrArg (fun bytes => bytes ++ []) (Option.some.inj frameBuilt)
    have bodyEq : header requestId ++ payload engine metaText gpuId images = frame.body :=
      (Format.sized.encode_append_inj ((Format.sized_valid _).mpr messageFits)
        ((Format.sized_valid _).mpr frame.fits) encodeEq).1
    have parsed := reads.payload
    rw [← bodyEq, header_drop] at parsed
    exact parsed
  · intro parsed
    let frame := messageFrame requestId engine gpuId limits
    refine ⟨frame, built, ?_⟩
    exact
      { taken := by
          intro σ server session rest
          rw [iterate_frame, serveFrame_of_length server opts
            (messageFrame_lengthOk requestId limits)]
        header := parseProtocolHeader_header requestId _
        payload := by
          change parseRequestPayload ((header requestId ++
            payload engine metaText gpuId images).drop kProtocolHeaderSize) (batchLimit opts) = _
          rw [header_drop]
          exact parsed }

/-- What is shown of bodies that carry a request holds of a client's. -/
theorem messageFrame_carries (requestId : UInt32) (engine : EngineType) (gpuId : Int32)
    (metaShort : (text metaText).length ≤ kMaxMetaStringBytes)
    (limits : WithinServerLimits opts metaText images) (ascii : AsciiOnly metaText) :
    Carries opts (messageFrame requestId engine gpuId limits).body
      (request engine metaText gpuId images) := by
  have parsed := (parseRequestPayload_payload_iff engine gpuId metaShort limits).mpr
    ((length_eq_text_length_iff metaText).mpr ascii)
  refine ⟨messageFrame_lengthOk requestId limits, (header_words requestId _).1, ?_⟩
  simp only [messageFrame]
  rw [header_drop]
  exact parsed

/-- The session of the benchmark, one frame and the shutdown word: on ASCII metadata
the loop handles the request that the client asks for, and nothing else. -/
theorem session_handles_request {σ : Type} (server : Engine σ) (state : σ)
    (requestId : UInt32) (engine : EngineType) (gpuId : Int32)
    (metaShort : (text metaText).length ≤ kMaxMetaStringBytes)
    (limits : WithinServerLimits opts metaText images) (ascii : AsciiOnly metaText) :
    ∃ frame,
      buildRequestFrame requestId.toNat (engineByte engine).toNat metaText gpuId.toInt
          images.length images = some frame ∧
        (runKeepAliveProtocolV2 server opts state (frame ++ Format.encodeU32 0)).trace =
          (handleRequest server opts requestId (request engine metaText gpuId images)
            (messageLength metaText images) state).events := by
  let frame := messageFrame requestId engine gpuId limits
  refine ⟨frame.encode, buildRequestFrame_eq requestId engine gpuId limits.fits, ?_⟩
  have carries := messageFrame_carries requestId engine gpuId metaShort limits ascii
  have shutdown : Residual (Format.encodeU32 0) := .inr (.inr ⟨[], (List.append_nil _).symm⟩)
  rcases run_frames server opts { stdin := [], engine := state } [frame] shutdown with
    ⟨left, runEq⟩
  have traceEq := congrArg Session.trace runEq
  rw [List.flatMap_singleton] at traceEq
  refine traceEq.trans ?_
  have idEq : decodeU32Le frame.body 12 = requestId := (header_words requestId _).2
  have lengthEq : frame.body.length = messageLength metaText images :=
    message_length requestId engine metaText gpuId images
  rcases serveFrame_cases server opts frame.body state with
    ⟨other, otherCarries, serveEq⟩ | ⟨carriesNone, _⟩
  · rw [otherCarries.unique carries, idEq, lengthEq] at serveEq
    change [] ++ (serveFrame server opts frame.body state).events = _
    rw [List.nil_append, serveEq]
  · exact absurd carries (carriesNone _)

end Reading

/-- For every request within the server's limits, the frame that the client builds
is read by the loop as one complete frame, with a header the server accepts under
the request id and a payload it accepts as exactly that request, if and only if the
metadata is ASCII. -/
theorem client_server_agree_iff (opts : Options) (requestId : UInt32) (engine : EngineType)
    (metaText : String) (gpuId : Int32) (images : List Bytes)
    (metaShort : (text metaText).length ≤ kMaxMetaStringBytes)
    (limits : WithinServerLimits opts metaText images) :
    Agrees opts requestId engine metaText gpuId images ↔ AsciiOnly metaText := by
  rw [agrees_iff requestId engine gpuId limits,
    parseRequestPayload_payload_iff engine gpuId metaShort limits, length_eq_text_length_iff]

/-- The request of the benchmark, with one image. -/
theorem benchmark_request_agrees : Agrees {} 1 .realCUGAN "F" 0 [[0x01, 0x02, 0x03]] :=
  (client_server_agree_iff {} 1 .realCUGAN "F" 0 [[0x01, 0x02, 0x03]] (by decide)
    ⟨by decide, by decide, by decide, by decide⟩).mpr
    ((length_eq_text_length_iff "F").mp (by decide))

/-- Metadata of one character and two bytes. -/
theorem accented_request_disagrees :
    (text "é").length ≤ kMaxMetaStringBytes ∧ WithinServerLimits {} "é" [[0x01, 0x02, 0x03]] ∧
      ¬Agrees {} 1 .realCUGAN "é" 0 [[0x01, 0x02, 0x03]] := by
  have metaShort : (text "é").length ≤ kMaxMetaStringBytes := by decide
  have limits : WithinServerLimits {} "é" [[0x01, 0x02, 0x03]] :=
    ⟨by decide, by decide, by decide, by decide⟩
  refine ⟨metaShort, limits, ?_⟩
  rw [agrees_iff 1 .realCUGAN 0 limits,
    parseRequestPayload_payload_iff .realCUGAN 0 metaShort limits]
  decide

/-- The server takes the second byte of the metadata for the first of the next field. -/
example :
    parseRequestPayload (payload .realCUGAN "é" 0 [[0x01, 0x02, 0x03]]) 8 =
      .error
        { error := "batch_count exceeds --max-batch-items", status := .validationError } := by
  rfl

end Client

end NcnnUpscaler.KeepAlive
