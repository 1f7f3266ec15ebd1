import NcnnUpscaler.Options
import NcnnUpscaler.Library.Cursor

/-!
# Protocol version 2: constants, status codes and header

The declarations at the head of `protocol_v2.hpp`, with the header parser.  A
`std::string` is a byte string here; the texts the code writes as literals are
their UTF-8 bytes.
-/

namespace NcnnUpscaler.Protocol

open Wire

/-- `'BRDR'`. -/
def kProtocolMagic : UInt32 := 0x42524452

def kProtocolVersion : UInt32 := 2

def kProtocolHeaderSize : Nat := 4 + 4 + 4 + 4

def kMaxMetaStringBytes : Nat := 64

def kMaxImageSizeBytes : Nat := 50 * 1024 * 1024

def kMaxBatchPayloadBytes : Nat := 48 * 1024 * 1024

/-- `ProtocolMessageType::Request`, the only type the loop accepts. -/
def requestMessageType : UInt32 := 1

/-- `ProtocolStatus`. -/
inductive ProtocolStatus where
  | ok
  | invalidFrame
  | validationError
  | engineError
  | resourceLimit
  | timeout
  deriving DecidableEq, Repr

namespace ProtocolStatus

/-- The code a status has on the wire. -/
def code : ProtocolStatus → UInt32
  | .ok => 0
  | .invalidFrame => 1
  | .validationError => 2
  | .engineError => 3
  | .resourceLimit => 4
  | .timeout => 5

def ofCode : UInt32 → Option ProtocolStatus
  | 0 => some .ok
  | 1 => some .invalidFrame
  | 2 => some .validationError
  | 3 => some .engineError
  | 4 => some .resourceLimit
  | 5 => some .timeout
  | _ => none

@[simp] theorem ofCode_code (status : ProtocolStatus) :
    ofCode status.code = some status := by
  cases status <;> rfl

theorem code_of_ofCode {code : UInt32} {status : ProtocolStatus}
    (found : ofCode code = some status) : status.code = code := by
  simp only [ofCode] at found
  split at found <;> cases found <;> rfl

end ProtocolStatus

/-- The bytes of a text. -/
def text (message : String) : Bytes := message.toUTF8.data.toList

theorem text_length (message : String) : (text message).length = message.utf8ByteSize := by
  rw [← String.size_toByteArray]
  rfl

theorem text_ne_nil {message : String} (nonempty : message ≠ "") : text message ≠ [] := by
  intro empty
  apply nonempty
  have size : message.utf8ByteSize = 0 := by
    rw [← text_length, empty, List.length_nil]
  exact String.utf8ByteSize_eq_zero_iff.mp size

/-- A text that begins with a nonempty literal is not empty. -/
theorem append_ne_empty {literal : String} (nonempty : literal ≠ "") (rest : String) :
    literal ++ rest ≠ "" := by
  intro empty
  have size := congrArg String.utf8ByteSize empty
  rw [String.utf8ByteSize_append, String.utf8ByteSize_empty] at size
  exact nonempty (String.utf8ByteSize_eq_zero_iff.mp (Nat.eq_zero_of_add_eq_zero_right size))

theorem utf8ByteSize_ofList_le (chars : List Char) :
    (String.ofList chars).utf8ByteSize ≤ 4 * chars.length := by
  induction chars with
  | nil => exact Nat.le_refl 0
  | cons char chars ih =>
      have charLe := char.utf8Size_le_four
      rw [String.ofList_cons, String.utf8ByteSize_append, String.utf8ByteSize_singleton,
        List.length_cons]
      omega

/-- Every character of the text is one byte of it. -/
def AsciiOnly (message : String) : Prop := ∀ char ∈ message.toList, char.val ≤ 127

instance (message : String) : Decidable (AsciiOnly message) :=
  inferInstanceAs (Decidable (∀ char ∈ message.toList, char.val ≤ 127))

theorem length_le_utf8ByteSize_ofList (chars : List Char) :
    chars.length ≤ (String.ofList chars).utf8ByteSize := by
  induction chars with
  | nil => exact Nat.le_refl 0
  | cons char chars ih =>
      have charPos := char.utf8Size_pos
      rw [String.ofList_cons, String.utf8ByteSize_append, String.utf8ByteSize_singleton,
        List.length_cons]
      omega

theorem length_le_text_length (message : String) :
    message.length ≤ (text message).length := by
  have bound := length_le_utf8ByteSize_ofList message.toList
  rw [String.ofList_toList, String.length_toList] at bound
  rw [text_length]
  exact bound

theorem length_eq_utf8ByteSize_ofList_iff (chars : List Char) :
    chars.length = (String.ofList chars).utf8ByteSize ↔ ∀ char ∈ chars, char.val ≤ 127 := by
  induction chars with
  | nil =>
      refine iff_of_true rfl ?_
      intro char member
      cases member
  | cons char chars ih =>
      have charPos := char.utf8Size_pos
      have tailLe := length_le_utf8ByteSize_ofList chars
      rw [String.ofList_cons, String.utf8ByteSize_append, String.utf8ByteSize_singleton,
        List.length_cons, List.forall_mem_cons, ← ih, ← Char.utf8Size_eq_one_iff]
      omega

/-- A text has as many characters as bytes exactly when it is ASCII. -/
theorem length_eq_text_length_iff (message : String) :
    message.length = (text message).length ↔ AsciiOnly message := by
  have counts := length_eq_utf8ByteSize_ofList_iff message.toList
  rw [String.ofList_toList, String.length_toList] at counts
  rw [text_length]
  exact counts

/-- A text the loop can answer with: not empty, and of a length that no response
is too large for. -/
structure ErrorText (message : String) : Prop where
  nonempty : message ≠ ""
  short : (text message).length ≤ 128

theorem ErrorText.literal {message : String} (nonempty : message ≠ "")
    (short : message.utf8ByteSize ≤ 128) : ErrorText message :=
  ⟨nonempty, by rw [text_length]; exact short⟩

/-- A literal followed by a word in decimal. -/
theorem ErrorText.numbered {literal : String} {number : Nat} (nonempty : literal ≠ "")
    (short : literal.utf8ByteSize ≤ 64) (word : number < 2 ^ 32) :
    ErrorText (literal ++ toString number) := by
  refine ⟨append_ne_empty nonempty _, ?_⟩
  have digits : (Nat.toDigits 10 number).length ≤ 10 :=
    (Nat.length_toDigits_le_iff (by decide) (by decide)).mpr (by omega)
  have sizeLe := utf8ByteSize_ofList_le (Nat.toDigits 10 number)
  rw [text_length, String.utf8ByteSize_append, Nat.toString_eq_ofList_toDigits]
  omega

/-- `decode_u32_le(ptr + offset)`. -/
def decodeU32Le (bytes : Bytes) (offset : Nat) : UInt32 :=
  (bytes.getD offset 0).toUInt32 |||
    ((bytes.getD (offset + 1) 0).toUInt32 <<< 8) |||
    ((bytes.getD (offset + 2) 0).toUInt32 <<< 16) |||
    ((bytes.getD (offset + 3) 0).toUInt32 <<< 24)

structure ProtocolHeader where
  magic : UInt32
  version : UInt32
  msgType : UInt32
  requestId : UInt32
  deriving DecidableEq, Repr

/-- `parse_protocol_header`: the header as the call leaves it, and the error
text when it returns false. -/
def parseProtocolHeader (payload : Bytes) (header : ProtocolHeader) :
    ProtocolHeader × Option String :=
  if payload.length < kProtocolHeaderSize then
    (header, some "payload too small for protocol header")
  else
    let header : ProtocolHeader :=
      { magic := decodeU32Le payload 0
        version := decodeU32Le payload 4
        msgType := decodeU32Le payload 8
        requestId := decodeU32Le payload 12 }
    if header.magic ≠ kProtocolMagic then
      (header, some "invalid magic, expected BRDR")
    else if header.version ≠ kProtocolVersion then
      (header, some ("unsupported protocol version " ++ toString header.version.toNat))
    else if header.msgType ≠ requestMessageType then
      (header, some ("unsupported msg_type " ++ toString header.msgType.toNat))
    else
      (header, none)

/-- The header carries the magic, the version and the type of a request. -/
def HeaderOk (payload : Bytes) : Prop :=
  decodeU32Le payload 0 = kProtocolMagic ∧
    decodeU32Le payload 4 = kProtocolVersion ∧
    decodeU32Le payload 8 = requestMessageType

instance (payload : Bytes) : Decidable (HeaderOk payload) :=
  inferInstanceAs (Decidable (_ ∧ _ ∧ _))

variable {payload : Bytes} {header : ProtocolHeader}

/-- Once the payload holds a header, its request id is read whether or not the
header is accepted. -/
theorem parseProtocolHeader_requestId (header : ProtocolHeader)
    (long : kProtocolHeaderSize ≤ payload.length) :
    (parseProtocolHeader payload header).1.requestId = decodeU32Le payload 12 := by
  simp only [parseProtocolHeader, if_neg (Nat.not_lt.mpr long)]
  split
  · rfl
  · split
    · rfl
    · split <;> rfl

/-- The header is accepted exactly when its first three fields are right. -/
theorem parseProtocolHeader_eq_none_iff (header : ProtocolHeader)
    (long : kProtocolHeaderSize ≤ payload.length) :
    (parseProtocolHeader payload header).2 = none ↔ HeaderOk payload := by
  simp only [parseProtocolHeader, if_neg (Nat.not_lt.mpr long), HeaderOk]
  split
  · next magicBad => simp [magicBad]
  · next magicOk =>
      split
      · next versionBad => simp [versionBad]
      · next versionOk =>
          split
          · next typeBad => simp [typeBad]
          · next typeOk => simp_all

/-- An accepted header carries the request type. -/
theorem parseProtocolHeader_msgType (header : ProtocolHeader)
    (accepted : (parseProtocolHeader payload header).2 = none) :
    (parseProtocolHeader payload header).1.msgType = requestMessageType := by
  by_cases short : payload.length < kProtocolHeaderSize
  · simp [parseProtocolHeader, short] at accepted
  · have long := Nat.not_lt.mp short
    have fields := (parseProtocolHeader_eq_none_iff header long).mp accepted
    simp only [parseProtocolHeader, if_neg short, ne_eq, fields.1, fields.2.1,
      fields.2.2, not_true_eq_false, if_false]

/-- A rejected header comes with an error text. -/
theorem parseProtocolHeader_errorText (header : ProtocolHeader) {message : String}
    (rejected : (parseProtocolHeader payload header).2 = some message) :
    ErrorText message := by
  simp only [parseProtocolHeader] at rejected
  split at rejected
  · cases rejected
    exact .literal (by decide) (by decide)
  · split at rejected
    · cases rejected
      exact .literal (by decide) (by decide)
    · split at rejected
      · cases rejected
        exact .numbered (by decide) (by decide) (UInt32.toNat_lt _)
      · split at rejected
        · cases rejected
          exact .numbered (by decide) (by decide) (UInt32.toNat_lt _)
        · cases rejected

end NcnnUpscaler.Protocol
