import Mathlib.Data.List.GetD
import NcnnUpscaler.Protocol.RequestFormat

/-!
# Responses

`write_protocol_response` with its 32-bit length arithmetic, the documented
response format, and the proof that a sequence of responses that fit the length
word is read back as it was written.
-/

namespace NcnnUpscaler.Protocol

open Wire

/-- The arguments of one `write_protocol_response` call. -/
structure Response where
  requestId : UInt32
  status : ProtocolStatus
  error : Bytes
  outputs : List Bytes
  deriving DecidableEq, Repr

/-- `write_u32`. -/
def writeU32 (value : UInt32) : Bytes :=
  [(value &&& 0xFF).toUInt8, ((value >>> 8) &&& 0xFF).toUInt8,
    ((value >>> 16) &&& 0xFF).toUInt8, ((value >>> 24) &&& 0xFF).toUInt8]

namespace Response

/-- The `payload_bytes` that `write_protocol_response` computes. -/
def payloadBytes (response : Response) : UInt32 :=
  let errorLen := UInt32.ofNat response.error.length
  let outputsBytes := response.outputs.foldl
    (fun sum output => sum + (4 + UInt32.ofNat output.length)) 0
  4 + 4 + 4 + errorLen + 4 + outputsBytes

/-- The number of bytes a response has after its length word. -/
def size (response : Response) : Nat :=
  4 + 4 + 4 + response.error.length + 4 +
    (response.outputs.map fun output => 4 + output.length).sum

/-- The size of the response fits the length word of the format. -/
def Fits (response : Response) : Prop := response.size < 2 ^ 32

instance (response : Response) : Decidable response.Fits :=
  inferInstanceAs (Decidable (_ < _))

end Response

/-- `write_protocol_response`: the bytes one call writes. -/
def writeProtocolResponse (response : Response) : Bytes :=
  let errorLen := UInt32.ofNat response.error.length
  writeU32 response.payloadBytes ++ writeU32 response.requestId ++
    writeU32 response.status.code ++ writeU32 errorLen ++
    (if errorLen > 0 then response.error.take errorLen.toNat else []) ++
    writeU32 (UInt32.ofNat response.outputs.length) ++
    response.outputs.flatMap fun output =>
      writeU32 (UInt32.ofNat output.length) ++ (if output ≠ [] then output else [])

/-- `write_protocol_error`. -/
def errorResponse (requestId : UInt32) (status : ProtocolStatus) (message : Bytes) :
    Response :=
  { requestId, status, error := message, outputs := [] }

/-! ## The documented format -/

/-- A status code. -/
def statusFormat : Format ProtocolStatus :=
  Format.u32.refine ProtocolStatus.ofCode ProtocolStatus.code
    (by
      intro code status _ found
      exact ProtocolStatus.code_of_ofCode found)

/-- What follows the length word of a response: request id, status, error and
outputs, the last two preceded by their lengths. -/
def responseFormat : Format Response :=
  (Format.u32.pair (statusFormat.pair (Format.sized.pair Format.sized.counted))).refine
    (fun (requestId, status, error, outputs) => some { requestId, status, error, outputs })
    (fun response =>
      (response.requestId, response.status, response.error, response.outputs))
    (by
      intro raw response _ packed
      cases packed
      rfl)

/-- Split what the program writes to stdout into responses. -/
def readResponses (bytes : Bytes) : Option (List Response) :=
  responseFormat.framed.decodeStream bytes

/-! ## Written responses are encodings -/

private theorem masked_byte (value : UInt32) : (value &&& 0xFF).toUInt8 = value.toUInt8 := by
  apply UInt8.toNat_inj.mp
  have masked : value.toNat &&& 255 = value.toNat % 256 :=
    Nat.and_two_pow_sub_one_eq_mod value.toNat 8
  rw [UInt32.toNat_toUInt8, UInt32.toNat_toUInt8, UInt32.toNat_and]
  change (value.toNat &&& 255) % 256 = value.toNat % 256
  rw [masked, Nat.mod_mod]

@[simp] theorem writeU32_eq (value : UInt32) : writeU32 value = Format.encodeU32 value := by
  simp only [writeU32, masked_byte, Format.encodeU32]

theorem length_sized_flatMap (outputs : List Bytes) :
    (outputs.flatMap Format.sized.encode).length =
      (outputs.map fun output => 4 + output.length).sum := by
  induction outputs with
  | nil => rfl
  | cons output outputs ih =>
      simp only [List.flatMap_cons, List.length_append, Format.sized_encode_length, ih,
        List.map_cons, List.sum_cons]

/-- The encoding of a response in the documented format, field by field. -/
theorem responseFormat_encode (response : Response) :
    responseFormat.encode response =
      Format.encodeU32 response.requestId ++ (Format.encodeU32 response.status.code ++
        ((Format.encodeU32 (UInt32.ofNat response.error.length) ++ response.error) ++
          (Format.encodeU32 (UInt32.ofNat response.outputs.length) ++
            response.outputs.flatMap Format.sized.encode))) := rfl

/-- The word written after some bytes is the one decoded there. -/
theorem decodeU32Le_append (before : Bytes) (word : UInt32) (rest : Bytes) :
    decodeU32Le (before ++ (Format.encodeU32 word ++ rest)) before.length = word := by
  have byteAt (offset : Nat) :
      (before ++ (Format.encodeU32 word ++ rest)).getD (before.length + offset) 0 =
        (Format.encodeU32 word ++ rest).getD offset 0 := by
    rw [List.getD_append_right _ _ _ _ (Nat.le_add_right _ _), Nat.add_sub_cancel_left]
  have first := byteAt 0
  rw [Nat.add_zero] at first
  rw [decodeU32Le, first, byteAt 1, byteAt 2, byteAt 3]
  exact Format.decodeU32_bytes word

/-- A response takes as many bytes as its size says. -/
theorem responseFormat_encode_length (response : Response) :
    (responseFormat.encode response).length = response.size := by
  rw [responseFormat_encode]
  simp only [List.length_append, Format.encodeU32_length, length_sized_flatMap,
    Response.size]
  omega

namespace Response

variable {response : Response}

/-- The 32-bit sum of the output lengths is their sum reduced to a word. -/
theorem foldl_lengths (outputs : List Bytes) (start : Nat) :
    outputs.foldl (fun sum output => sum + (4 + UInt32.ofNat output.length))
        (UInt32.ofNat start) =
      UInt32.ofNat (start + (outputs.map fun output => 4 + output.length).sum) := by
  induction outputs generalizing start with
  | nil => simp
  | cons output outputs ih =>
      have step : UInt32.ofNat start + (4 + UInt32.ofNat output.length) =
          UInt32.ofNat (start + (4 + output.length)) := by
        rw [UInt32.ofNat_add, UInt32.ofNat_add]
        rfl
      rw [List.foldl_cons, step, ih, List.map_cons, List.sum_cons, Nat.add_assoc]

/-- The computed payload length is the size reduced to a word. -/
theorem payloadBytes_eq (response : Response) :
    response.payloadBytes = UInt32.ofNat response.size := by
  have sum : response.outputs.foldl
      (fun sum output => sum + (4 + UInt32.ofNat output.length)) 0 =
        UInt32.ofNat (response.outputs.map fun output => 4 + output.length).sum := by
    have started := foldl_lengths response.outputs 0
    rw [Nat.zero_add] at started
    exact started
  have fixed : 4 + 4 + 4 + UInt32.ofNat response.error.length + 4 =
      UInt32.ofNat (4 + 4 + 4 + response.error.length + 4) := by
    rw [UInt32.ofNat_add, UInt32.ofNat_add]
    rfl
  simp only [payloadBytes, size]
  rw [sum, fixed, ← UInt32.ofNat_add]

theorem Fits.error_lt (fits : response.Fits) : response.error.length < 2 ^ 32 := by
  simp only [Fits, size] at fits
  omega

/-- Each output of a response that fits has at least its four length bytes in
the size, so both their number and their lengths fit a word. -/
theorem Fits.outputs_lt (fits : response.Fits) : response.outputs.length < 2 ^ 32 := by
  have counted : ∀ outputs : List Bytes,
      outputs.length ≤ (outputs.map fun output => 4 + output.length).sum := by
    intro outputs
    induction outputs with
    | nil => exact Nat.le_refl 0
    | cons output outputs ih =>
        simp only [List.length_cons, List.map_cons, List.sum_cons]
        omega
  have bounded := counted response.outputs
  simp only [Fits, size] at fits
  omega

theorem Fits.output_lt (fits : response.Fits) {output : Bytes}
    (member : output ∈ response.outputs) : output.length < 2 ^ 32 := by
  have mapped : 4 + output.length ∈ response.outputs.map fun output => 4 + output.length :=
    List.mem_map_of_mem member
  have bounded := List.le_sum_of_mem mapped
  simp only [Fits, size] at fits
  omega

/-- A response that fits is a value of the documented format. -/
theorem Fits.valid (fits : response.Fits) : responseFormat.framed.Valid response := by
  rw [Format.framed_valid, responseFormat_encode_length]
  have statusValid : statusFormat.Valid response.status :=
    ⟨trivial, ProtocolStatus.ofCode_code response.status⟩
  have errorValid : Format.sized.Valid response.error :=
    (Format.sized_valid _).mpr fits.error_lt
  have outputsValid : Format.sized.counted.Valid response.outputs := by
    rw [Format.counted_valid]
    refine ⟨fits.outputs_lt, ?_⟩
    intro output member
    exact (Format.sized_valid output).mpr (fits.output_lt member)
  exact ⟨fits, ⟨trivial, statusValid, errorValid, outputsValid⟩, rfl⟩

end Response

variable {response : Response}

theorem write_output_eq (output : Bytes) :
    writeU32 (UInt32.ofNat output.length) ++ (if output ≠ [] then output else []) =
      Format.sized.encode output := by
  rw [writeU32_eq, Format.sized_encode]
  cases output with
  | nil => rfl
  | cons byte bytes => rfl

theorem write_error_eq {error : Bytes} (small : error.length < 2 ^ 32) :
    (if UInt32.ofNat error.length > 0 then
      error.take (UInt32.ofNat error.length).toNat else []) = error := by
  have word : (UInt32.ofNat error.length).toNat = error.length :=
    UInt32.toNat_ofNat_of_lt' small
  cases error with
  | nil => rfl
  | cons byte bytes =>
      have positive : UInt32.ofNat (byte :: bytes).length > 0 := by
        change (0 : UInt32).toNat < (UInt32.ofNat (byte :: bytes).length).toNat
        rw [word]
        exact Nat.succ_pos _
      rw [if_pos positive, word, List.take_length]

/-- What is written is the payload length, as computed, and the encoding of the
response in the documented format. -/
theorem writeProtocolResponse_split (small : response.error.length < 2 ^ 32) :
    writeProtocolResponse response =
      writeU32 response.payloadBytes ++ responseFormat.encode response := by
  simp only [writeProtocolResponse, write_error_eq small, write_output_eq]
  simp only [writeU32_eq, responseFormat_encode, List.append_assoc]

/-- Where a response has the length of the output that comes after `earlier`: behind its
words, its text and these outputs. -/
def lengthOffset (response : Response) (earlier : List Bytes) : Nat :=
  20 + response.error.length + (earlier.map fun output => 4 + output.length).sum

/-- The word that is written there. -/
theorem decodeU32Le_lengthOffset (small : response.error.length < 2 ^ 32)
    {earlier later : List Bytes} {output : Bytes}
    (split : response.outputs = earlier ++ output :: later) :
    decodeU32Le (writeProtocolResponse response) (lengthOffset response earlier) =
      UInt32.ofNat output.length := by
  let front := Format.encodeU32 response.payloadBytes ++ (Format.encodeU32 response.requestId ++
    (Format.encodeU32 response.status.code ++
      ((Format.encodeU32 (UInt32.ofNat response.error.length) ++ response.error) ++
        (Format.encodeU32 (UInt32.ofNat response.outputs.length) ++
          earlier.flatMap Format.sized.encode))))
  have frontLength : front.length = lengthOffset response earlier := by
    simp only [front, List.length_append, Format.encodeU32_length, length_sized_flatMap,
      lengthOffset]
    omega
  have writtenEq : writeProtocolResponse response =
      front ++ (Format.encodeU32 (UInt32.ofNat output.length) ++
        (output ++ later.flatMap Format.sized.encode)) := by
    have outputsEq : response.outputs.flatMap Format.sized.encode =
        earlier.flatMap Format.sized.encode ++
          (Format.encodeU32 (UInt32.ofNat output.length) ++
            (output ++ later.flatMap Format.sized.encode)) := by
      rw [split, List.flatMap_append, List.flatMap_cons, Format.sized_encode, List.append_assoc]
    rw [writeProtocolResponse_split small, writeU32_eq, responseFormat_encode, outputsEq]
    simp only [front, List.append_assoc]
  rw [writtenEq, ← frontLength]
  exact decodeU32Le_append front _ _

/-- What is written for a response that fits is its encoding in the documented
format. -/
theorem writeProtocolResponse_eq (fits : response.Fits) :
    writeProtocolResponse response = responseFormat.framed.encode response := by
  rw [writeProtocolResponse_split fits.error_lt, Format.framed_encode, Format.sized_encode,
    responseFormat_encode_length, Response.payloadBytes_eq, writeU32_eq]

/-- The computed payload length is the size exactly when the response fits. -/
theorem Response.toNat_payloadBytes_iff :
    response.payloadBytes.toNat = response.size ↔ response.Fits := by
  rw [Response.payloadBytes_eq, UInt32.toNat_ofNat']
  constructor
  · intro same
    rw [Response.Fits, ← same]
    exact Nat.mod_lt _ (by decide)
  · exact Nat.mod_eq_of_lt

/-- The responses written one after the other are read back as exactly that
sequence, and the length word of each is the number of bytes that follow it. -/
theorem responses_read_back (responses : List Response)
    (fits : ∀ response ∈ responses, response.Fits) :
    readResponses (responses.flatMap writeProtocolResponse) = some responses ∧
      ∀ response ∈ responses, ∃ payload,
        writeProtocolResponse response = writeU32 response.payloadBytes ++ payload ∧
          response.payloadBytes.toNat = payload.length := by
  constructor
  · have written : responses.flatMap writeProtocolResponse =
        responses.flatMap responseFormat.framed.encode := by
      apply List.flatMap_congr
      intro response member
      exact writeProtocolResponse_eq (fits response member)
    rw [written]
    apply Format.decodeStream_flatMap
    · intro response member
      exact (fits response member).valid
    · intro response
      rw [Format.framed_encode, Format.sized_encode]
      simp [Format.encodeU32]
  · intro response member
    have size := fits response member
    refine ⟨responseFormat.encode response, writeProtocolResponse_split size.error_lt, ?_⟩
    rw [responseFormat_encode_length]
    exact Response.toNat_payloadBytes_iff.mpr size

/-- An error response followed by a response with two outputs, one of them
empty. -/
theorem responses_read_back_two :
    let responses : List Response :=
      [errorResponse 7 .validationError (text "request body empty"),
        { requestId := 8, status := .ok, error := [], outputs := [[1, 2, 3], []] }]
    readResponses (responses.flatMap writeProtocolResponse) = some responses ∧
      ∀ response ∈ responses, ∃ payload,
        writeProtocolResponse response = writeU32 response.payloadBytes ++ payload ∧
          response.payloadBytes.toNat = payload.length :=
  responses_read_back _ (by decide)

end NcnnUpscaler.Protocol
