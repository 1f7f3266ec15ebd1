import NcnnUpscaler.Protocol.Format

/-!
# The request parser

`parse_request_payload` as the pointer walk it is in `protocol_v2.hpp`, and the
same parser on the unread suffix of the payload.  The walk refines the suffix
parser, so it never reads outside the payload, and everything about what it
accepts and how it fails can be shown on suffixes.
-/

namespace NcnnUpscaler.Protocol

open Wire

/-- `RequestPayload`. -/
structure RequestPayload where
  engine : EngineType
  qualityOrScale : Bytes
  gpuId : Int32
  batchCount : UInt32
  images : List Bytes
  deriving DecidableEq, Repr

/-- The out-parameters `status` and `error` of a rejected payload. -/
structure ParseFailure where
  status : ProtocolStatus
  error : String
  deriving DecidableEq, Repr

/-- A rejection that leaves `status` at its initial value. -/
def invalid (error : String) : ParseFailure :=
  { status := .validationError, error }

/-- `read_le_u32(ptr, remaining, value)`; `none` when it returns false. -/
def readLeU32 (data : Bytes) : Walk ParseFailure (Option UInt32) := do
  let remaining ← Walk.remaining
  if remaining < 4 then
    pure none
  else
    let bytes ← Walk.take data 4
    pure (some (decodeU32Le bytes 0))

/-- `read_le_i32(ptr, remaining, value)`. -/
def readLeI32 (data : Bytes) : Walk ParseFailure (Option Int32) := do
  let raw ← readLeU32 data
  pure (raw.map UInt32.toInt32)

/-- The image loop of `parse_request_payload`, from entry `index` on, with
`left` entries to go and `totalImageBytes` counted so far. -/
def readImages (data : Bytes) :
    (left index totalImageBytes : Nat) → Walk ParseFailure (List Bytes)
  | 0, _, _ => pure []
  | left + 1, index, totalImageBytes => do
      let imageLen ← Walk.require (readLeU32 data)
        (invalid ("missing image length for entry " ++ toString index))
      let totalImageBytes := totalImageBytes + imageLen.toNat
      Walk.rejectIf (totalImageBytes > kMaxBatchPayloadBytes)
        { status := .resourceLimit, error := "batch payload exceeds memory budget" }
      Walk.rejectIf (imageLen.toNat > kMaxImageSizeBytes)
        { status := .resourceLimit
          error := "image size exceeds limit: " ++ toString imageLen.toNat }
      let remaining ← Walk.remaining
      Walk.rejectIf (imageLen.toNat > remaining)
        (invalid ("image payload truncated for entry " ++ toString index))
      let image ← Walk.take data imageLen.toNat
      let images ← readImages data left (index + 1) totalImageBytes
      pure (image :: images)

/-- `parse_request_payload` after its out-parameter `status` has been set. -/
def requestWalk (data : Bytes) (maxBatchItems : Nat) :
    Walk ParseFailure RequestPayload := do
  let remaining ← Walk.remaining
  Walk.rejectIf (remaining < 1) (invalid "missing engine enum")
  let engineByte ← Walk.take data 1
  let engineId := engineByte.getD 0 0
  Walk.rejectIf (engineId > 1)
    (invalid "engine enum must be 0 (RealCUGAN) or 1 (RealESRGAN)")
  let engine : EngineType := if engineId = 1 then .realESRGAN else .realCUGAN
  let metaLen ← Walk.require (readLeU32 data) (invalid "incomplete quality/scale length")
  Walk.rejectIf (metaLen.toNat > kMaxMetaStringBytes)
    (invalid "quality/scale metadata too long")
  let remaining ← Walk.remaining
  Walk.rejectIf (metaLen.toNat > remaining) (invalid "quality/scale metadata truncated")
  let qualityOrScale ← Walk.take data metaLen.toNat
  let gpuId ← Walk.require (readLeI32 data) (invalid "missing gpu_id")
  let batchCount ← Walk.require (readLeU32 data) (invalid "missing batch_count")
  Walk.rejectIf (batchCount = 0) (invalid "batch_count must be positive")
  Walk.rejectIf (batchCount.toNat > maxBatchItems)
    (invalid "batch_count exceeds --max-batch-items")
  let images ← readImages data batchCount.toNat 0 0
  let remaining ← Walk.remaining
  Walk.rejectIf (remaining > 0) (invalid "trailing bytes after images")
  pure { engine, qualityOrScale, gpuId, batchCount, images }

/-- `parse_request_payload(data, size, max_batch_items, request, error, status)`:
the request when it returns true, the error and status when it returns false. -/
def parseRequestPayload (data : Bytes) (maxBatchItems : Nat) :
    Except ParseFailure RequestPayload :=
  (requestWalk data maxBatchItems (Cursor.start data)).1

/-- The offsets from `data` that the call dereferences. -/
def requestReads (data : Bytes) (maxBatchItems : Nat) : List Nat :=
  (requestWalk data maxBatchItems (Cursor.start data)).2.reads

/-! ## The parser on suffixes -/

/-- The 32-bit signed integer, by the bits of its word. -/
def i32 : Format Int32 :=
  Format.u32.refine (fun word => some word.toInt32) Int32.toUInt32
    (by
      intro raw value _ packed
      cases packed
      simp)

/-- `readImages` on the unread bytes. -/
def imagesParser : (left index totalImageBytes : Nat) → Parser ParseFailure (List Bytes)
  | 0, _, _ => pure []
  | left + 1, index, totalImageBytes => do
      let imageLen ← Parser.require Format.u32
        (invalid ("missing image length for entry " ++ toString index))
      Parser.rejectIf (totalImageBytes + imageLen.toNat > kMaxBatchPayloadBytes)
        { status := .resourceLimit, error := "batch payload exceeds memory budget" }
      Parser.rejectIf (imageLen.toNat > kMaxImageSizeBytes)
        { status := .resourceLimit
          error := "image size exceeds limit: " ++ toString imageLen.toNat }
      let remaining ← Parser.remaining
      Parser.rejectIf (imageLen.toNat > remaining)
        (invalid ("image payload truncated for entry " ++ toString index))
      let image ← Parser.take imageLen.toNat
      let images ← imagesParser left (index + 1) (totalImageBytes + imageLen.toNat)
      pure (image :: images)

/-- `requestWalk` on the unread bytes. -/
def requestParser (maxBatchItems : Nat) : Parser ParseFailure RequestPayload := do
  let remaining ← Parser.remaining
  Parser.rejectIf (remaining < 1) (invalid "missing engine enum")
  let engineByte ← Parser.take 1
  Parser.rejectIf (engineByte.getD 0 0 > 1)
    (invalid "engine enum must be 0 (RealCUGAN) or 1 (RealESRGAN)")
  let metaLen ← Parser.require Format.u32 (invalid "incomplete quality/scale length")
  Parser.rejectIf (metaLen.toNat > kMaxMetaStringBytes)
    (invalid "quality/scale metadata too long")
  let remaining ← Parser.remaining
  Parser.rejectIf (metaLen.toNat > remaining) (invalid "quality/scale metadata truncated")
  let qualityOrScale ← Parser.take metaLen.toNat
  let gpuId ← Parser.require i32 (invalid "missing gpu_id")
  let batchCount ← Parser.require Format.u32 (invalid "missing batch_count")
  Parser.rejectIf (batchCount = 0) (invalid "batch_count must be positive")
  Parser.rejectIf (batchCount.toNat > maxBatchItems)
    (invalid "batch_count exceeds --max-batch-items")
  let images ← imagesParser batchCount.toNat 0 0
  let remaining ← Parser.remaining
  Parser.rejectIf (remaining > 0) (invalid "trailing bytes after images")
  pure
    { engine := if engineByte.getD 0 0 = 1 then .realESRGAN else .realCUGAN
      qualityOrScale, gpuId, batchCount, images }

/-- The fields before the images: the engine, the quality or scale, the GPU id and
the batch count. -/
def leadingParser (maxBatchItems : Nat) :
    Parser ParseFailure (EngineType × Bytes × Int32 × UInt32) := do
  let remaining ← Parser.remaining
  Parser.rejectIf (remaining < 1) (invalid "missing engine enum")
  let engineByte ← Parser.take 1
  Parser.rejectIf (engineByte.getD 0 0 > 1)
    (invalid "engine enum must be 0 (RealCUGAN) or 1 (RealESRGAN)")
  let metaLen ← Parser.require Format.u32 (invalid "incomplete quality/scale length")
  Parser.rejectIf (metaLen.toNat > kMaxMetaStringBytes)
    (invalid "quality/scale metadata too long")
  let remaining ← Parser.remaining
  Parser.rejectIf (metaLen.toNat > remaining) (invalid "quality/scale metadata truncated")
  let qualityOrScale ← Parser.take metaLen.toNat
  let gpuId ← Parser.require i32 (invalid "missing gpu_id")
  let batchCount ← Parser.require Format.u32 (invalid "missing batch_count")
  Parser.rejectIf (batchCount = 0) (invalid "batch_count must be positive")
  Parser.rejectIf (batchCount.toNat > maxBatchItems)
    (invalid "batch_count exceeds --max-batch-items")
  pure (if engineByte.getD 0 0 = 1 then .realESRGAN else .realCUGAN, qualityOrScale, gpuId,
    batchCount)

/-- The rest of a request: its images and nothing behind them. -/
def trailingParser (engine : EngineType) (qualityOrScale : Bytes) (gpuId : Int32)
    (batchCount : UInt32) : Parser ParseFailure RequestPayload := do
  let images ← imagesParser batchCount.toNat 0 0
  let remaining ← Parser.remaining
  Parser.rejectIf (remaining > 0) (invalid "trailing bytes after images")
  pure { engine := engine, qualityOrScale, gpuId, batchCount, images }

theorem requestParser_eq (maxBatchItems : Nat) :
    requestParser maxBatchItems =
      leadingParser maxBatchItems >>= fun fields =>
        trailingParser fields.1 fields.2.1 fields.2.2.1 fields.2.2.2 := by
  simp only [requestParser, leadingParser, trailingParser, bind_assoc, pure_bind]

/-! ## Refinement -/

variable {data : Bytes} {cursor : Cursor}

theorem readLeU32_short (short : cursor.remaining < 4) :
    readLeU32 data cursor = (.ok none, cursor) := by
  change (if cursor.remaining < 4 then pure none
    else Walk.take data 4 >>= fun bytes => pure (some (decodeU32Le bytes 0)) :
      Walk ParseFailure (Option UInt32)) cursor = _
  rw [if_pos short]
  rfl

theorem readLeU32_long (valid : cursor.At data) (long : 4 ≤ cursor.remaining) :
    readLeU32 data cursor =
      (.ok (some (decodeU32Le ((cursor.unread data).take 4) 0)),
        (cursor.touch 4).advance 4) := by
  rw [← Walk.map_getD_eq_take valid long]
  change (if cursor.remaining < 4 then pure none
    else Walk.take data 4 >>= fun bytes => pure (some (decodeU32Le bytes 0)) :
      Walk ParseFailure (Option UInt32)) cursor = _
  rw [if_neg (Nat.not_lt.mpr long)]
  rfl

/-- `read_le_u32` reads a little-endian word. -/
theorem readLeU32_readsAs (valid : cursor.At data) :
    Walk.ReadsAs data cursor (readLeU32 data) Format.u32 := by
  have lengthEq := valid.unread_length
  have restEq := Cursor.unread_consume data cursor 4
  simp only [Walk.ReadsAs]
  by_cases short : cursor.remaining < 4
  · match unreadEq : cursor.unread data with
    | [] | [_] | [_, _] | [_, _, _] => exact readLeU32_short short
    | _ :: _ :: _ :: _ :: _ =>
        rw [unreadEq] at lengthEq
        simp only [List.length_cons] at lengthEq
        omega
  · have long := Nat.not_lt.mp short
    have readEq := readLeU32_long valid long
    match unreadEq : cursor.unread data with
    | [] | [_] | [_, _] | [_, _, _] =>
        rw [unreadEq] at lengthEq
        simp only [List.length_cons, List.length_nil] at lengthEq
        omega
    | b0 :: b1 :: b2 :: b3 :: rest =>
        rw [unreadEq] at readEq restEq
        exact ⟨_, readEq, valid.consume long, restEq⟩

/-- `read_le_i32` reads the same word as a signed integer. -/
theorem readLeI32_readsAs (valid : cursor.At data) :
    Walk.ReadsAs data cursor (readLeI32 data) i32 := by
  have reads := readLeU32_readsAs valid
  simp only [Walk.ReadsAs] at reads ⊢
  cases wordEq : Format.u32.read (cursor.unread data) with
  | none =>
      rw [wordEq] at reads
      have readEq : i32.read (cursor.unread data) = none := by
        simp only [i32, Format.refine, wordEq]
      rw [readEq]
      simp only [readLeI32, Bind.bind, reads]
      rfl
  | some found =>
      rw [wordEq] at reads
      have readEq : i32.read (cursor.unread data) =
          some (found.1.toInt32, found.2) := by
        simp only [i32, Format.refine, wordEq, Option.map_some]
      rw [readEq]
      rcases reads with ⟨moved, walkEq, movedAt, restEq⟩
      refine ⟨moved, ?_, movedAt, restEq⟩
      simp only [readLeI32, Bind.bind, walkEq]
      rfl

theorem readImages_refines (left index totalImageBytes : Nat) (valid : cursor.At data) :
    Walk.RefinesAt data cursor (readImages data left index totalImageBytes)
      (imagesParser left index totalImageBytes) := by
  induction left generalizing cursor index totalImageBytes with
  | zero => exact Walk.refinesAt_pure valid []
  | succ left ih =>
      simp only [readImages, imagesParser]
      apply ((readLeU32_readsAs valid).require valid _).bind
      intro imageLen moved movedAt
      apply Walk.refinesAt_rejectIf movedAt
      intro _
      apply Walk.refinesAt_rejectIf movedAt
      intro _
      apply Walk.refinesAt_remaining movedAt
      apply Walk.refinesAt_rejectIf movedAt
      intro complete
      apply (Walk.refinesAt_take movedAt (Nat.not_lt.mp complete)).bind
      intro image afterImage afterImageAt
      apply (ih _ _ afterImageAt).bind
      intro images last lastAt
      exact Walk.refinesAt_pure lastAt (image :: images)

theorem requestWalk_refines (data : Bytes) (maxBatchItems : Nat) :
    Walk.RefinesAt data (Cursor.start data) (requestWalk data maxBatchItems)
      (requestParser maxBatchItems) := by
  have atStart := Cursor.at_start data
  simp only [requestWalk, requestParser]
  apply Walk.refinesAt_remaining atStart
  apply Walk.refinesAt_rejectIf atStart
  intro present
  apply (Walk.refinesAt_take atStart (Nat.not_lt.mp present)).bind
  intro engineByte afterEngine afterEngineAt
  apply Walk.refinesAt_rejectIf afterEngineAt
  intro _
  apply ((readLeU32_readsAs afterEngineAt).require afterEngineAt _).bind
  intro metaLen afterLen afterLenAt
  apply Walk.refinesAt_rejectIf afterLenAt
  intro _
  apply Walk.refinesAt_remaining afterLenAt
  apply Walk.refinesAt_rejectIf afterLenAt
  intro complete
  apply (Walk.refinesAt_take afterLenAt (Nat.not_lt.mp complete)).bind
  intro qualityOrScale afterMeta afterMetaAt
  apply ((readLeI32_readsAs afterMetaAt).require afterMetaAt _).bind
  intro gpuId afterGpu afterGpuAt
  apply ((readLeU32_readsAs afterGpuAt).require afterGpuAt _).bind
  intro batchCount afterCount afterCountAt
  apply Walk.refinesAt_rejectIf afterCountAt
  intro _
  apply Walk.refinesAt_rejectIf afterCountAt
  intro _
  apply (readImages_refines _ _ _ afterCountAt).bind
  intro images last lastAt
  apply Walk.refinesAt_remaining lastAt
  apply Walk.refinesAt_rejectIf lastAt
  intro _
  exact Walk.refinesAt_pure lastAt _

/-- The pointer walk returns what the suffix parser returns. -/
theorem parseRequestPayload_eq_suffix (data : Bytes) (maxBatchItems : Nat) :
    parseRequestPayload data maxBatchItems =
      (requestParser maxBatchItems data).map Prod.fst :=
  (requestWalk_refines data maxBatchItems).run.1

/-- The pointer walk dereferences only offsets inside the payload, whether or
not it accepts it. -/
theorem requestReads_inBounds (data : Bytes) (maxBatchItems : Nat) :
    ∀ offset ∈ requestReads data maxBatchItems, offset < data.length :=
  (requestWalk_refines data maxBatchItems).run.2

/-! ## Failures -/

/-- The rejection of a batch over the memory budget. -/
def overBudget : ParseFailure :=
  { status := .resourceLimit, error := "batch payload exceeds memory budget" }

/-- The texts of the rejections before the image loop and after it. -/
def fieldErrors : List String :=
  ["missing engine enum", "engine enum must be 0 (RealCUGAN) or 1 (RealESRGAN)",
    "incomplete quality/scale length", "quality/scale metadata too long",
    "quality/scale metadata truncated", "missing gpu_id", "missing batch_count",
    "batch_count must be positive", "batch_count exceeds --max-batch-items",
    "trailing bytes after images"]

/-- How the texts of the rejections at an entry begin. -/
def entryErrors : List String :=
  ["missing image length for entry ", "image payload truncated for entry "]

/-- A rejection the parser can end with.  That of a single image is not among
them. -/
inductive Rejection : ParseFailure → Prop where
  | field {error : String} (member : error ∈ fieldErrors) : Rejection (invalid error)
  | entry {literal : String} (index : Nat) (small : index < 2 ^ 32)
      (member : literal ∈ entryErrors) : Rejection (invalid (literal ++ toString index))
  | overBudget : Rejection overBudget

/-- Within the budget of the batch an image is within its own limit. -/
theorem imageLimit_of_budget {totalImageBytes length : Nat}
    (within : ¬totalImageBytes + length > kMaxBatchPayloadBytes) :
    ¬length > kMaxImageSizeBytes := by
  simp only [kMaxBatchPayloadBytes, kMaxImageSizeBytes] at within ⊢
  omega

theorem imagesParser_failsWith (left index totalImageBytes : Nat)
    (counted : index + left ≤ 2 ^ 32) :
    Parser.FailsWith Rejection (imagesParser left index totalImageBytes) := by
  induction left generalizing index totalImageBytes with
  | zero => exact Parser.failsWith_pure _
  | succ left ih =>
      have small : index < 2 ^ 32 := by omega
      refine Parser.FailsWith.bind (Parser.failsWith_require ?_) ?_
      · exact .entry index small (by decide)
      intro imageLen
      refine Parser.FailsWith.guard (fun _ => .overBudget) ?_
      intro within
      refine Parser.FailsWith.guard ?_ ?_
      · intro large
        exact absurd large (imageLimit_of_budget within)
      intro _
      refine Parser.FailsWith.bind Parser.failsWith_remaining ?_
      intro remaining
      refine Parser.FailsWith.bind (Parser.failsWith_rejectIf ?_) ?_
      · exact .entry index small (by decide)
      intro _
      refine Parser.FailsWith.bind (Parser.failsWith_take _) ?_
      intro image
      refine Parser.FailsWith.bind (ih _ _ (by omega)) ?_
      intro images
      exact Parser.failsWith_pure _

theorem leadingParser_failsWith (maxBatchItems : Nat) :
    Parser.FailsWith (fun failure => ∃ error ∈ fieldErrors, failure = invalid error)
      (leadingParser maxBatchItems) := by
  have field {error : String} (member : error ∈ fieldErrors) :
      ∃ literal ∈ fieldErrors, invalid error = invalid literal := ⟨error, member, rfl⟩
  refine Parser.FailsWith.bind Parser.failsWith_remaining ?_
  intro remaining
  refine Parser.FailsWith.bind (Parser.failsWith_rejectIf (field (by decide))) ?_
  intro _
  refine Parser.FailsWith.bind (Parser.failsWith_take 1) ?_
  intro engineByte
  refine Parser.FailsWith.bind (Parser.failsWith_rejectIf (field (by decide))) ?_
  intro _
  refine Parser.FailsWith.bind (Parser.failsWith_require (field (by decide))) ?_
  intro metaLen
  refine Parser.FailsWith.bind (Parser.failsWith_rejectIf (field (by decide))) ?_
  intro _
  refine Parser.FailsWith.bind Parser.failsWith_remaining ?_
  intro remaining
  refine Parser.FailsWith.bind (Parser.failsWith_rejectIf (field (by decide))) ?_
  intro _
  refine Parser.FailsWith.bind (Parser.failsWith_take _) ?_
  intro qualityOrScale
  refine Parser.FailsWith.bind (Parser.failsWith_require (field (by decide))) ?_
  intro gpuId
  refine Parser.FailsWith.bind (Parser.failsWith_require (field (by decide))) ?_
  intro batchCount
  refine Parser.FailsWith.bind (Parser.failsWith_rejectIf (field (by decide))) ?_
  intro _
  refine Parser.FailsWith.bind (Parser.failsWith_rejectIf (field (by decide))) ?_
  intro _
  exact Parser.failsWith_pure _

theorem requestParser_failsWith (maxBatchItems : Nat) :
    Parser.FailsWith Rejection (requestParser maxBatchItems) := by
  rw [requestParser_eq]
  refine Parser.FailsWith.bind ((leadingParser_failsWith maxBatchItems).mono ?_) ?_
  · intro failure fails
    rcases fails with ⟨error, member, failureEq⟩
    rw [failureEq]
    exact .field member
  intro fields
  have counted : 0 + fields.2.2.2.toNat ≤ 2 ^ 32 := by
    have wordLt := fields.2.2.2.toNat_lt
    omega
  refine Parser.FailsWith.bind (imagesParser_failsWith _ _ _ counted) ?_
  intro images
  refine Parser.FailsWith.bind Parser.failsWith_remaining ?_
  intro remaining
  refine Parser.FailsWith.bind (Parser.failsWith_rejectIf (.field (by decide))) ?_
  intro _
  exact Parser.failsWith_pure _

/-- The pointer walk fails as the suffix parser does. -/
theorem parseRequestPayload_eq_error_iff {data : Bytes} {maxBatchItems : Nat}
    {failure : ParseFailure} :
    parseRequestPayload data maxBatchItems = .error failure ↔
      requestParser maxBatchItems data = .error failure := by
  rw [parseRequestPayload_eq_suffix]
  cases parserEq : requestParser maxBatchItems data with
  | error found =>
      constructor
      · intro failed
        cases failed
        rfl
      · intro failed
        cases failed
        rfl
  | ok found =>
      constructor
      · intro failed
        cases failed
      · intro failed
        cases failed

/-- The parser ends with one of its rejections. -/
theorem parseRequestPayload_rejection {data : Bytes} {maxBatchItems : Nat}
    {failure : ParseFailure} (rejected : parseRequestPayload data maxBatchItems = .error failure) :
    Rejection failure :=
  requestParser_failsWith maxBatchItems data failure
    (parseRequestPayload_eq_error_iff.mp rejected)

/-- A failure the loop can answer with: not the status of a success, and with a
text. -/
def ParseFailure.Reported (failure : ParseFailure) : Prop :=
  failure.status ≠ .ok ∧ failure.error ≠ ""

instance (failure : ParseFailure) : Decidable failure.Reported :=
  inferInstanceAs (Decidable (_ ∧ _))

theorem Rejection.errorText {failure : ParseFailure} (rejection : Rejection failure) :
    ErrorText failure.error := by
  cases rejection with
  | field member =>
      have literals : ∀ error ∈ fieldErrors, error ≠ "" ∧ error.utf8ByteSize ≤ 128 := by
        decide
      exact .literal (literals _ member).1 (literals _ member).2
  | entry index small member =>
      have literals : ∀ literal ∈ entryErrors, literal ≠ "" ∧ literal.utf8ByteSize ≤ 64 := by
        decide
      exact .numbered (literals _ member).1 (literals _ member).2 small
  | overBudget => exact .literal (by decide) (by decide)

theorem Rejection.reported {failure : ParseFailure} (rejection : Rejection failure) :
    failure.Reported := by
  refine ⟨?_, rejection.errorText.nonempty⟩
  cases rejection with
  | field member => simp [invalid]
  | entry index small member => simp [invalid]
  | overBudget => simp [Protocol.overBudget]

end NcnnUpscaler.Protocol
