import Mathlib.Algebra.Order.Ring.Int
import NcnnUpscaler.Protocol.RequestFormat

/-!
# Rejected requests

Which status a rejected payload gets.  The image loop checks the budget of the
batch before it looks at an entry's bytes, so a batch is over the limit as soon
as the lengths it declares are, whether or not the images follow.
-/

namespace NcnnUpscaler.Protocol

open Wire

/-- The rejection of a single image over its own limit. -/
def imageTooLarge (imageLen : UInt32) : ParseFailure :=
  { status := .resourceLimit
    error := "image size exceeds limit: " ++ toString imageLen.toNat }

/-! ## Declared lengths -/

/-- The payload begins with an engine, a quality or scale, a GPU id and a batch
count, well formed and within the limits, and `entries` follows them. -/
structure LeadingFields (maxBatchItems : Nat) (data : Bytes) (batchCount : UInt32)
    (entries : Bytes) : Prop where
  fields : ∃ engine qualityOrScale gpuId,
    qualityOrScale.length ≤ kMaxMetaStringBytes ∧
      data = buildPayload (engineByte engine) qualityOrScale gpuId batchCount [] ++ entries
  count_pos : 1 ≤ batchCount.toNat
  count_le : batchCount.toNat ≤ maxBatchItems

/-- The lengths that up to `left` entries declare: those of the complete entries,
and that of the first incomplete one when its length word is there. -/
def declaredLengths : (left : Nat) → (entries : Bytes) → List Nat
  | 0, _ => []
  | left + 1, entries =>
      match Format.u32.read entries with
      | none => []
      | some (imageLen, rest) =>
          imageLen.toNat ::
            if imageLen.toNat ≤ rest.length then
              declaredLengths left (rest.drop imageLen.toNat)
            else []

/-- One of the next `left` entries has its length word, the entries before it are
complete, and with `totalImageBytes` counted so far the lengths declared up to it
exceed the budget. -/
def ExceedsBudget (totalImageBytes left : Nat) (entries : Bytes) : Prop :=
  ∃ index < left, ∃ earlier imageLen rest,
    earlier.length = index ∧ (∀ image ∈ earlier, image.length < 2 ^ 32) ∧
      entries = earlier.flatMap Format.sized.encode ++ (Format.encodeU32 imageLen ++ rest) ∧
      totalImageBytes + RequestPayload.imageBytes earlier + imageLen.toNat >
        kMaxBatchPayloadBytes

variable {left index totalImageBytes : Nat} {bytes rest : Bytes} {imageLen : UInt32}

/-- No entry can exceed the budget where there is none, or where no length word
is left. -/
theorem not_exceedsBudget_zero : ¬ExceedsBudget totalImageBytes 0 bytes := by
  intro exceeds
  rcases exceeds with ⟨index, indexLt, _⟩
  exact absurd indexLt (Nat.not_lt_zero index)

theorem not_exceedsBudget_of_read (readEq : Format.u32.read bytes = none) :
    ¬ExceedsBudget totalImageBytes left bytes := by
  intro exceeds
  rcases exceeds with ⟨_, _, earlier, imageLen, rest, _, _, rfl, _⟩
  cases earlier with
  | nil =>
      have read := Format.u32.read_encode imageLen rest trivial
      rw [List.flatMap_nil, List.nil_append] at readEq
      cases readEq.symm.trans read
  | cons image earlier =>
      simp only [List.flatMap_cons, Format.sized_encode, List.append_assoc] at readEq
      cases readEq.symm.trans (Format.u32.read_encode _ _ trivial)

/-- The budget is exceeded at the first entry, or that entry is complete and the
budget is exceeded after it. -/
theorem exceedsBudget_succ_iff (readEq : Format.u32.read bytes = some (imageLen, rest)) :
    ExceedsBudget totalImageBytes (left + 1) bytes ↔
      totalImageBytes + imageLen.toNat > kMaxBatchPayloadBytes ∨
        imageLen.toNat ≤ rest.length ∧
          ExceedsBudget (totalImageBytes + imageLen.toNat) left
            (rest.drop imageLen.toNat) := by
  rcases Format.u32.of_read _ _ _ readEq with ⟨_, bytesEq⟩
  constructor
  · intro exceeds
    rcases exceeds with ⟨_, indexLt, earlier, lastLen, last, rfl, small, entriesEq, exceeds⟩
    rw [bytesEq] at entriesEq
    cases earlier with
    | nil =>
        have sameLen := (Format.u32.encode_append_inj trivial trivial entriesEq).1
        simp only [RequestPayload.imageBytes, List.map_nil, List.sum_nil] at exceeds
        rw [sameLen]
        exact .inl exceeds
    | cons image earlier =>
        simp only [List.flatMap_cons, Format.sized_encode, List.append_assoc] at entriesEq
        rcases Format.u32.encode_append_inj trivial trivial entriesEq with ⟨sameLen, restEq⟩
        have lengthEq : imageLen.toNat = image.length := by
          rw [sameLen]
          exact UInt32.toNat_ofNat_of_lt' (small image List.mem_cons_self)
        simp only [RequestPayload.imageBytes, List.map_cons, List.sum_cons] at exceeds
        refine .inr ⟨?_, earlier.length, Nat.lt_of_succ_lt_succ indexLt, earlier, lastLen, last,
          rfl, ?_, ?_, ?_⟩
        · rw [lengthEq, restEq, List.length_append]
          exact Nat.le_add_right _ _
        · intro other member
          exact small other (List.mem_cons_of_mem _ member)
        · rw [lengthEq, restEq, List.drop_left]
        · rw [lengthEq, RequestPayload.imageBytes]
          omega
  · intro exceeds
    rcases exceeds with first | ⟨complete, _, indexLt, earlier, lastLen, last, rfl, small,
      restEq, exceeds⟩
    · refine ⟨0, Nat.succ_pos left, [], imageLen, rest, rfl, ?_, bytesEq, first⟩
      intro image member
      exact absurd member List.not_mem_nil
    · have lengthEq : (rest.take imageLen.toNat).length = imageLen.toNat :=
        List.length_take_of_le complete
      refine ⟨earlier.length + 1, Nat.succ_lt_succ indexLt,
        rest.take imageLen.toNat :: earlier, lastLen, last, rfl, ?_, ?_, ?_⟩
      · intro image member
        rcases List.mem_cons.mp member with first | later
        · rw [first, lengthEq]
          exact imageLen.toNat_lt
        · exact small image later
      · rw [bytesEq, List.flatMap_cons, List.append_assoc, ← restEq, Format.sized_encode,
          lengthEq, UInt32.ofNat_toNat, List.append_assoc, List.take_append_drop]
        rfl
      · simp only [RequestPayload.imageBytes, List.map_cons, List.sum_cons, lengthEq]
          at exceeds ⊢
        omega

/-- The budget is exceeded at some entry exactly when the declared lengths
together exceed it. -/
theorem exceedsBudget_iff_sum (within : totalImageBytes ≤ kMaxBatchPayloadBytes) :
    ExceedsBudget totalImageBytes left bytes ↔
      totalImageBytes + (declaredLengths left bytes).sum > kMaxBatchPayloadBytes := by
  induction left generalizing totalImageBytes bytes with
  | zero => exact iff_of_false not_exceedsBudget_zero (Nat.not_lt.mpr within)
  | succ left ih =>
      simp only [declaredLengths]
      split
      · next readEq =>
          exact iff_of_false (not_exceedsBudget_of_read readEq) (Nat.not_lt.mpr within)
      · next imageLen rest readEq =>
          rw [exceedsBudget_succ_iff readEq, List.sum_cons, ← Nat.add_assoc]
          by_cases beyond : totalImageBytes + imageLen.toNat > kMaxBatchPayloadBytes
          · exact iff_of_true (.inl beyond) (Nat.lt_of_lt_of_le beyond (Nat.le_add_right _ _))
          · rw [or_iff_right beyond, ih (Nat.not_lt.mp beyond)]
            by_cases complete : imageLen.toNat ≤ rest.length
            · rw [if_pos complete, and_iff_right complete]
            · rw [if_neg complete, List.sum_nil]
              exact iff_of_false (fun exceeds => complete exceeds.1) beyond

/-! ## How the parser rejects -/

/-- From an entry on, the image loop stops over the budget exactly when the
declared lengths exceed it. -/
theorem imagesParser_eq_overBudget_iff (within : totalImageBytes ≤ kMaxBatchPayloadBytes) :
    imagesParser left index totalImageBytes bytes = .error overBudget ↔
      ExceedsBudget totalImageBytes left bytes := by
  induction left generalizing index totalImageBytes bytes with
  | zero => exact iff_of_false Parser.pure_ne_error not_exceedsBudget_zero
  | succ left ih =>
      have notInvalid (error : String) :
          (.error (invalid error) : Except ParseFailure (List Bytes × Bytes)) ≠
            .error overBudget := by
        intro same
        cases same
      simp only [imagesParser]
      cases readEq : Format.u32.read bytes with
      | none =>
          rw [Parser.bind_of_error (Parser.require_eq_error.mpr ⟨readEq, rfl⟩)]
          exact iff_of_false (notInvalid _) (not_exceedsBudget_of_read readEq)
      | some found =>
          rcases found with ⟨imageLen, rest⟩
          rw [Parser.bind_of_ok (Parser.require_eq_ok.mpr (Format.u32.of_read _ _ _ readEq)),
            exceedsBudget_succ_iff readEq]
          by_cases beyond : totalImageBytes + imageLen.toNat > kMaxBatchPayloadBytes
          · rw [Parser.bind_of_error (Parser.rejectIf_eq_error.mpr ⟨beyond, rfl⟩)]
            exact iff_of_true rfl (.inl beyond)
          · rw [Parser.bind_of_ok (Parser.rejectIf_of_not beyond),
              Parser.bind_of_ok (Parser.rejectIf_of_not (imageLimit_of_budget beyond)),
              Parser.bind_of_ok (Parser.remaining_eq_ok.mpr ⟨rfl, rfl⟩), or_iff_right beyond]
            by_cases cut : imageLen.toNat > rest.length
            · rw [Parser.bind_of_error (Parser.rejectIf_eq_error.mpr ⟨cut, rfl⟩)]
              exact iff_of_false (notInvalid _)
                (fun exceeds => Nat.not_le.mpr cut exceeds.1)
            · rw [Parser.bind_of_ok (Parser.rejectIf_of_not cut),
                Parser.bind_of_ok (Parser.take_eq_ok.mpr ⟨rfl, rfl⟩), Parser.bind_eq_error,
                ih (Nat.not_lt.mp beyond), and_iff_right (Nat.not_lt.mp cut)]
              constructor
              · intro failed
                rcases failed with failed | ⟨_, _, _, failed⟩
                · exact failed
                · exact absurd failed Parser.pure_ne_error
              · exact .inl

theorem overBudget_ne_invalid (error : String) : overBudget ≠ invalid error := by
  intro same
  cases congrArg ParseFailure.status same

variable {maxBatchItems : Nat} {data entries : Bytes} {batchCount : UInt32}

/-- The leading fields are what the leading parser accepts. -/
theorem leadingFields_iff :
    LeadingFields maxBatchItems data batchCount entries ↔
      ∃ engine qualityOrScale gpuId, leadingParser maxBatchItems data =
        .ok ((engine, qualityOrScale, gpuId, batchCount), entries) := by
  have layout (engine : EngineType) (qualityOrScale : Bytes) (gpuId : Int32) :
      buildPayload (engineByte engine) qualityOrScale gpuId batchCount [] ++ entries =
        engineByte engine ::
          (Format.encodeU32 (UInt32.ofNat qualityOrScale.length) ++
            (qualityOrScale ++ (Format.encodeU32 gpuId.toUInt32 ++
              (Format.encodeU32 batchCount ++ entries)))) := by
    simp only [buildPayload, List.flatMap_nil, List.append_nil, List.append_assoc]
    rfl
  constructor
  · intro leading
    rcases leading.fields with ⟨engine, qualityOrScale, gpuId, metaLe, dataEq⟩
    rw [layout] at dataEq
    exact ⟨engine, qualityOrScale, gpuId, leadingParser_eq_ok_iff.mpr
      ⟨dataEq, metaLe, leading.count_pos, leading.count_le⟩⟩
  · intro accepted
    rcases accepted with ⟨engine, qualityOrScale, gpuId, accepted⟩
    rcases leadingParser_eq_ok_iff.mp accepted with ⟨dataEq, metaLe, countPos, countLe⟩
    rw [← layout] at dataEq
    exact ⟨⟨engine, qualityOrScale, gpuId, metaLe, dataEq⟩, countPos, countLe⟩

/-- Only the image loop stops over the budget. -/
theorem trailingParser_eq_overBudget_iff (engine : EngineType) (qualityOrScale : Bytes)
    (gpuId : Int32) :
    trailingParser engine qualityOrScale gpuId batchCount entries = .error overBudget ↔
      ExceedsBudget 0 batchCount.toNat entries := by
  have stops : imagesParser batchCount.toNat 0 0 entries = .error overBudget ↔
      ExceedsBudget 0 batchCount.toNat entries :=
    imagesParser_eq_overBudget_iff (Nat.zero_le _)
  simp only [trailingParser, Parser.bind_eq_error, Parser.rejectIf_eq_error,
    Parser.remaining_ne_error, overBudget_ne_invalid, Parser.pure_ne_error, and_false,
    exists_false, or_false, stops]

theorem requestParser_eq_overBudget_iff :
    requestParser maxBatchItems data = .error overBudget ↔
      ∃ batchCount entries, LeadingFields maxBatchItems data batchCount entries ∧
        ExceedsBudget 0 batchCount.toNat entries := by
  rw [requestParser_eq, Parser.bind_eq_error]
  constructor
  · intro failed
    rcases failed with refused | ⟨⟨engine, qualityOrScale, gpuId, batchCount⟩, entries,
      leading, failed⟩
    · rcases leadingParser_failsWith maxBatchItems data overBudget refused with
        ⟨error, _, failureEq⟩
      exact absurd failureEq (overBudget_ne_invalid error)
    · exact ⟨batchCount, entries,
        leadingFields_iff.mpr ⟨engine, qualityOrScale, gpuId, leading⟩,
        (trailingParser_eq_overBudget_iff engine qualityOrScale gpuId).mp failed⟩
  · intro exceeds
    rcases exceeds with ⟨batchCount, entries, leading, exceeds⟩
    rcases leadingFields_iff.mp leading with ⟨engine, qualityOrScale, gpuId, accepted⟩
    exact .inr ⟨(engine, qualityOrScale, gpuId, batchCount), entries, accepted,
      (trailingParser_eq_overBudget_iff engine qualityOrScale gpuId).mpr exceeds⟩

/-- The leading fields are read in one way only. -/
theorem LeadingFields.unique {otherCount : UInt32} {otherEntries : Bytes}
    (leading : LeadingFields maxBatchItems data batchCount entries)
    (other : LeadingFields maxBatchItems data otherCount otherEntries) :
    batchCount = otherCount ∧ entries = otherEntries := by
  rcases leadingFields_iff.mp leading with ⟨engine, qualityOrScale, gpuId, accepted⟩
  rcases leadingFields_iff.mp other with ⟨_, _, _, otherAccepted⟩
  rw [accepted] at otherAccepted
  cases otherAccepted
  exact ⟨rfl, rfl⟩

/-- A complete encoding declares the lengths of its images. -/
theorem declaredLengths_complete {images : List Bytes}
    (small : ∀ image ∈ images, image.length < 2 ^ 32) :
    declaredLengths images.length (images.flatMap Format.sized.encode) =
      images.map List.length := by
  induction images with
  | nil => rfl
  | cons image images ih =>
      have later : ∀ image ∈ images, image.length < 2 ^ 32 := by
        intro other member
        exact small other (List.mem_cons_of_mem _ member)
      have lengthEq : (UInt32.ofNat image.length).toNat = image.length :=
        UInt32.toNat_ofNat_of_lt' (small image List.mem_cons_self)
      have readEq : Format.u32.read (Format.encodeU32 (UInt32.ofNat image.length) ++
          (image ++ images.flatMap Format.sized.encode)) = _ :=
        Format.u32.read_encode _ _ trivial
      simp only [List.length_cons, List.flatMap_cons, Format.sized_encode, List.append_assoc,
        declaredLengths, readEq, lengthEq, List.length_append, Nat.le_add_right, if_true,
        List.drop_left, ih later, List.map_cons]

theorem Rejection.status {failure : ParseFailure} (rejection : Rejection failure) :
    failure = Protocol.overBudget ∨ failure.status = .validationError := by
  cases rejection with
  | field member => exact .inr rfl
  | entry index small member => exact .inr rfl
  | overBudget => exact .inl rfl

/-- Among the rejections that of a single image never occurs. -/
theorem Rejection.ne_imageTooLarge {failure : ParseFailure} (rejection : Rejection failure)
    (imageLen : UInt32) : failure ≠ imageTooLarge imageLen := by
  intro same
  cases rejection.status with
  | inl beyond =>
      have errors := congrArg ParseFailure.error (beyond.symm.trans same)
      have first := congrArg (fun error : String => error.toList.head?) errors
      simp [Protocol.overBudget, imageTooLarge] at first
  | inr validation =>
      rw [same] at validation
      cases validation

/-- Among the rejections only the one over the budget has its status. -/
theorem status_resourceLimit_iff {failure : ParseFailure}
    (rejected : parseRequestPayload data maxBatchItems = .error failure) :
    failure.status = .resourceLimit ↔ requestParser maxBatchItems data = .error overBudget := by
  rw [← parseRequestPayload_eq_error_iff, rejected]
  constructor
  · intro status
    rcases (parseRequestPayload_rejection rejected).status with beyond | validation
    · rw [beyond]
    · rw [validation] at status
      cases status
  · intro beyond
    cases beyond
    rfl

theorem LeadingFields.rejected (leading : LeadingFields maxBatchItems data batchCount entries)
    (exceeds : ExceedsBudget 0 batchCount.toNat entries) :
    ∃ failure, parseRequestPayload data maxBatchItems = .error failure ∧
      failure.status = .resourceLimit :=
  ⟨overBudget, parseRequestPayload_eq_error_iff.mpr
    (requestParser_eq_overBudget_iff.mpr ⟨batchCount, entries, leading, exceeds⟩), rfl⟩

/-- A rejected payload has the status `resourceLimit` exactly when its leading
fields are in order and, at some entry whose length word is there and behind
complete entries only, the declared lengths exceed the budget; otherwise it has the
status `validationError`, and it is never rejected for a single image's length.  Such
a payload is always rejected, in particular a complete encoding of a batch over the
budget; one whose declared lengths stay within the budget never has that status. -/
theorem resource_limit_iff_exceeds_budget (data : Bytes) (maxBatchItems : Nat) :
    (∀ failure, parseRequestPayload data maxBatchItems = .error failure →
      (failure.status = .resourceLimit ↔
        ∃ batchCount entries, LeadingFields maxBatchItems data batchCount entries ∧
          ExceedsBudget 0 batchCount.toNat entries) ∧
      (failure.status ≠ .resourceLimit → failure.status = .validationError) ∧
      ∀ imageLen, failure ≠ imageTooLarge imageLen) ∧
    (∀ batchCount entries, LeadingFields maxBatchItems data batchCount entries →
      ExceedsBudget 0 batchCount.toNat entries →
      ∃ failure, parseRequestPayload data maxBatchItems = .error failure ∧
        failure.status = .resourceLimit) ∧
    (∀ batchCount images,
      LeadingFields maxBatchItems data batchCount (images.flatMap Format.sized.encode) →
      images.length = batchCount.toNat → (∀ image ∈ images, image.length < 2 ^ 32) →
      RequestPayload.imageBytes images > kMaxBatchPayloadBytes →
      ∃ failure, parseRequestPayload data maxBatchItems = .error failure ∧
        failure.status = .resourceLimit) ∧
    ∀ batchCount entries, LeadingFields maxBatchItems data batchCount entries →
      (declaredLengths batchCount.toNat entries).sum ≤ kMaxBatchPayloadBytes →
      ∀ failure, parseRequestPayload data maxBatchItems = .error failure →
        failure.status ≠ .resourceLimit := by
  refine ⟨?_, ?_, ?_, ?_⟩
  · intro failure rejected
    have rejection := parseRequestPayload_rejection rejected
    refine ⟨(status_resourceLimit_iff rejected).trans requestParser_eq_overBudget_iff, ?_,
      rejection.ne_imageTooLarge⟩
    intro notLimited
    rcases rejection.status with beyond | validation
    · rw [beyond] at notLimited
      exact absurd rfl notLimited
    · exact validation
  · intro batchCount entries leading exceeds
    exact leading.rejected exceeds
  · intro batchCount images leading count small beyond
    apply leading.rejected
    rw [exceedsBudget_iff_sum (Nat.zero_le _), Nat.zero_add, ← count,
      declaredLengths_complete small]
    exact beyond
  · intro batchCount entries leading within failure rejected status
    rcases requestParser_eq_overBudget_iff.mp ((status_resourceLimit_iff rejected).mp status) with
      ⟨otherCount, otherEntries, other, exceeds⟩
    rcases leading.unique other with ⟨rfl, rfl⟩
    rw [exceedsBudget_iff_sum (Nat.zero_le _), Nat.zero_add] at exceeds
    exact Nat.not_le.mpr exceeds within

/-- One image that declares a byte more than the budget, with no bytes behind its
length. -/
example :
    parseRequestPayload
        (buildPayload 0 (text "E") 0 1 [] ++ Format.encodeU32 (48 * 1024 * 1024 + 1)) 8 =
      .error overBudget := by
  rfl

end NcnnUpscaler.Protocol
