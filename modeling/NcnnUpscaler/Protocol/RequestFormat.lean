import Mathlib.Algebra.Order.BigOperators.Group.List
import Mathlib.Algebra.Order.Group.Nat
import NcnnUpscaler.Protocol.Request

/-!
# The request format

The layout the parser is meant to accept, written as an encoder, and the proof
that the parser accepts exactly the encodings of requests within the limits.
-/

namespace NcnnUpscaler.Protocol

open Wire

/-- The engine byte of a request. -/
def engineByte : EngineType → UInt8
  | .realCUGAN => 0
  | .realESRGAN => 1

/-- `build_payload` of the parser's test. -/
def buildPayload (engine : UInt8) (qualityOrScale : Bytes) (gpuId : Int32)
    (batchCount : UInt32) (images : List Bytes) : Bytes :=
  [engine] ++ (Format.encodeU32 (UInt32.ofNat qualityOrScale.length) ++ qualityOrScale) ++
    Format.encodeU32 gpuId.toUInt32 ++ Format.encodeU32 batchCount ++
    images.flatMap fun image =>
      Format.encodeU32 (UInt32.ofNat image.length) ++ image

namespace RequestPayload

/-- The payload of a request. -/
def encode (request : RequestPayload) : Bytes :=
  buildPayload (engineByte request.engine) request.qualityOrScale request.gpuId
    request.batchCount request.images

/-- Number of image bytes in a request. -/
def imageBytes (images : List Bytes) : Nat := (images.map List.length).sum

/-- The limits of the protocol. -/
structure WithinLimits (maxBatchItems : Nat) (request : RequestPayload) : Prop where
  meta_le : request.qualityOrScale.length ≤ kMaxMetaStringBytes
  count_eq : request.images.length = request.batchCount.toNat
  count_pos : 1 ≤ request.batchCount.toNat
  count_le : request.batchCount.toNat ≤ maxBatchItems
  bytes_le : imageBytes request.images ≤ kMaxBatchPayloadBytes

instance (maxBatchItems : Nat) (request : RequestPayload) :
    Decidable (request.WithinLimits maxBatchItems) :=
  decidable_of_iff
    (request.qualityOrScale.length ≤ kMaxMetaStringBytes ∧
      request.images.length = request.batchCount.toNat ∧
      1 ≤ request.batchCount.toNat ∧ request.batchCount.toNat ≤ maxBatchItems ∧
      imageBytes request.images ≤ kMaxBatchPayloadBytes)
    ⟨fun ⟨metaLe, countEq, countPos, countLe, bytesLe⟩ =>
        ⟨metaLe, countEq, countPos, countLe, bytesLe⟩,
      fun ⟨metaLe, countEq, countPos, countLe, bytesLe⟩ =>
        ⟨metaLe, countEq, countPos, countLe, bytesLe⟩⟩

end RequestPayload

/-! ## The format -/

/-- The engine selector. -/
def engineFormat : Format EngineType :=
  Format.u8.refine
    (fun byte => if byte > 1 then none
      else some (if byte = 1 then .realESRGAN else .realCUGAN))
    engineByte
    (by
      intro byte engine _ packed
      split at packed
      · cases packed
      · next inRange =>
          cases packed
          split
          · next one => exact one.symm
          · next notOne =>
              apply UInt8.toNat_inj.mp
              change 0 = byte.toNat
              have leOne : byte.toNat ≤ 1 := Nat.not_lt.mp inRange
              have neOne : byte.toNat ≠ 1 := by
                intro equal
                exact notOne (UInt8.toNat_inj.mp equal)
              omega)

/-- The layout of a request payload. -/
def requestFormat : Format RequestPayload :=
  (engineFormat.pair (Format.sized.pair (i32.pair
    (Format.u32.dep fun batchCount => Format.sized.replicate batchCount.toNat)))).refine
    (fun (engine, qualityOrScale, gpuId, batchCount, images) =>
      some { engine, qualityOrScale, gpuId, batchCount, images })
    (fun request => (request.engine, request.qualityOrScale, request.gpuId,
      request.batchCount, request.images))
    (by
      intro raw request _ packed
      cases packed
      rfl)

theorem requestFormat_encode (request : RequestPayload) :
    requestFormat.encode request = request.encode := by
  simp only [RequestPayload.encode, buildPayload, List.append_assoc]
  rfl

/-- Every image of a request within the budget has a length that fits its word. -/
theorem length_le_imageBytes {images : List Bytes} {image : Bytes}
    (member : image ∈ images) : image.length ≤ RequestPayload.imageBytes images :=
  List.le_sum_of_mem (List.mem_map_of_mem member)

@[simp] theorem engineByte_le_one (engine : EngineType) : ¬engineByte engine > 1 := by
  cases engine <;> decide

theorem engineOf_engineByte (engine : EngineType) :
    (if engineByte engine = 1 then EngineType.realESRGAN else .realCUGAN) = engine := by
  cases engine <;> decide

theorem RequestPayload.WithinLimits.valid {maxBatchItems : Nat}
    {request : RequestPayload} (limits : request.WithinLimits maxBatchItems) :
    requestFormat.Valid request := by
  have metaLe := limits.meta_le
  simp only [kMaxMetaStringBytes] at metaLe
  have engineValid : engineFormat.Valid request.engine := by
    refine ⟨trivial, ?_⟩
    simp only [engineByte_le_one, if_false, engineOf_engineByte]
  have metaValid : Format.sized.Valid request.qualityOrScale := by
    rw [Format.sized_valid]
    omega
  have gpuValid : i32.Valid request.gpuId := by
    refine ⟨trivial, ?_⟩
    simp
  have imagesValid : ∀ image ∈ request.images, Format.sized.Valid image := by
    intro image member
    rw [Format.sized_valid]
    have bounded := Nat.le_trans (length_le_imageBytes member) limits.bytes_le
    simp only [kMaxBatchPayloadBytes] at bounded
    omega
  exact ⟨⟨engineValid, metaValid, gpuValid, trivial, limits.count_eq, imagesValid⟩, rfl⟩

/-! ## What the suffix parser accepts -/

variable {bytes rest : Bytes}

/-- Taking bytes that are there reads a byte string of known length. -/
theorem take_complete_iff {count : Nat} {taken middle : Bytes} :
    (¬count > bytes.length ∧ taken = bytes.take count ∧ middle = bytes.drop count) ↔
      taken.length = count ∧ bytes = taken ++ middle := by
  constructor
  · intro takes
    rcases takes with ⟨complete, takenEq, middleEq⟩
    rw [takenEq, middleEq]
    refine ⟨?_, (List.take_append_drop count bytes).symm⟩
    rw [List.length_take]
    omega
  · intro given
    rcases given with ⟨lengthEq, bytesEq⟩
    rw [bytesEq, ← lengthEq]
    simp

/-- From an entry on, the image loop accepts exactly a run of length-prefixed
images that stays within the budget left. -/
theorem imagesParser_eq_ok_iff (left index totalImageBytes : Nat)
    (within : totalImageBytes ≤ kMaxBatchPayloadBytes) {images : List Bytes} :
    imagesParser left index totalImageBytes bytes = .ok (images, rest) ↔
      images.length = left ∧
        bytes = images.flatMap Format.sized.encode ++ rest ∧
        totalImageBytes + RequestPayload.imageBytes images ≤ kMaxBatchPayloadBytes := by
  induction left generalizing bytes index totalImageBytes images with
  | zero =>
      simp only [imagesParser, Parser.pure_eq_ok, RequestPayload.imageBytes]
      constructor
      · intro given
        rcases given with ⟨imagesEq, restEq⟩
        subst imagesEq restEq
        simpa using within
      · intro given
        rcases given with ⟨imagesEq, bytesEq, _⟩
        have empty := List.length_eq_zero_iff.mp imagesEq
        subst empty
        exact ⟨rfl, bytesEq.symm⟩
  | succ left ih =>
      simp only [imagesParser, Parser.bind_eq_ok, Parser.rejectIf_eq_ok,
        Parser.remaining_eq_ok, Parser.require_eq_ok, Parser.take_eq_ok,
        Parser.pure_eq_ok]
      constructor
      · intro accepted
        rcases accepted with ⟨imageLen, afterLen, ⟨_, rfl⟩, _, _, ⟨budget, rfl⟩, _, _,
          ⟨_, rfl⟩, _, _, ⟨rfl, rfl⟩, _, _, ⟨complete, rfl⟩, image, afterImage, takeEq,
          tail, afterTail, tailEq, rfl, rfl⟩
        rcases take_complete_iff.mp ⟨complete, takeEq⟩ with ⟨lengthEq, rfl⟩
        rcases (ih _ _ (Nat.not_lt.mp budget)).mp tailEq with ⟨rfl, rfl, sumLe⟩
        refine ⟨rfl, ?_, ?_⟩
        · simp only [List.flatMap_cons, Format.sized_encode, lengthEq, Format.u32,
            UInt32.ofNat_toNat, List.append_assoc]
        · simp only [RequestPayload.imageBytes, List.map_cons, List.sum_cons, lengthEq]
            at sumLe ⊢
          omega
      · intro given
        rcases given with ⟨lengthEq, bytesEq, sumLe⟩
        cases images with
        | nil => simp at lengthEq
        | cons image images =>
            simp only [RequestPayload.imageBytes, List.map_cons, List.sum_cons] at sumLe
            have small : image.length < 2 ^ 32 := by
              simp only [kMaxBatchPayloadBytes] at sumLe
              omega
            have word : (UInt32.ofNat image.length).toNat = image.length :=
              UInt32.toNat_ofNat_of_lt' small
            simp only [List.flatMap_cons, Format.sized_encode, List.append_assoc]
              at bytesEq
            have tailOk : imagesParser left (index + 1) (totalImageBytes + image.length)
                (images.flatMap Format.sized.encode ++ rest) = .ok (images, rest) :=
              (ih _ _ (by omega)).mpr ⟨by simpa using lengthEq, rfl, by
                simp only [RequestPayload.imageBytes]
                omega⟩
            rcases take_complete_iff.mpr (⟨rfl, rfl⟩ : image.length = image.length ∧
              image ++ (images.flatMap Format.sized.encode ++ rest) = _) with
              ⟨complete, takenEq, middleEq⟩
            refine ⟨UInt32.ofNat image.length, _, ⟨trivial, bytesEq⟩, (), _, ⟨?_, rfl⟩,
              (), _, ⟨?_, rfl⟩, _, _, ⟨rfl, rfl⟩, (), _, ⟨?_, rfl⟩, image,
              images.flatMap Format.sized.encode ++ rest, ⟨?_, ?_⟩, images, rest, ?_,
              rfl, rfl⟩
            all_goals rw [word]
            · omega
            · simp only [kMaxBatchPayloadBytes, kMaxImageSizeBytes] at sumLe ⊢
              omega
            · exact complete
            · exact takenEq
            · exact middleEq
            · exact tailOk

/-- A one-byte prefix that is an engine selector is the byte of an engine. -/
theorem take_one_engine {engineBytes middle : Bytes} (present : ¬bytes.length < 1)
    (taken : engineBytes = bytes.take 1 ∧ middle = bytes.drop 1)
    (inRange : ¬engineBytes.getD 0 0 > 1) :
    bytes = engineByte (if engineBytes.getD 0 0 = 1 then .realESRGAN else .realCUGAN) ::
      middle := by
  cases bytes with
  | nil => simp at present
  | cons byte bytes =>
      rcases taken with ⟨rfl, rfl⟩
      have selector := engineFormat.of_read (byte :: middle)
        (if byte = 1 then .realESRGAN else .realCUGAN) middle (by
          change ¬byte > 1 at inRange
          simp only [engineFormat, Format.refine, Format.u8, if_neg inRange,
            Option.map_some])
      exact selector.2

/-- The fields of an encoding, first to last. -/
theorem RequestPayload.encode_eq (request : RequestPayload) :
    request.encode =
      engineByte request.engine ::
        (Format.encodeU32 (UInt32.ofNat request.qualityOrScale.length) ++
          (request.qualityOrScale ++ (Format.encodeU32 request.gpuId.toUInt32 ++
            (Format.encodeU32 request.batchCount ++
              request.images.flatMap Format.sized.encode)))) := by
  simp only [encode, buildPayload, List.append_assoc]
  rfl

theorem require_u32_append (word : UInt32) (failure : ParseFailure) :
    Parser.require Format.u32 failure (Format.encodeU32 word ++ rest) = .ok (word, rest) :=
  Parser.require_eq_ok.mpr ⟨trivial, rfl⟩

theorem require_i32_append (value : Int32) (failure : ParseFailure) :
    Parser.require i32 failure (Format.encodeU32 value.toUInt32 ++ rest) =
      .ok (value, rest) :=
  Parser.require_eq_ok.mpr ⟨⟨trivial, by simp⟩, rfl⟩

/-- The leading parser accepts exactly well-formed fields within the limits,
whatever follows them. -/
theorem leadingParser_eq_ok_iff {maxBatchItems : Nat} {engine : EngineType}
    {qualityOrScale : Bytes} {gpuId : Int32} {batchCount : UInt32} :
    leadingParser maxBatchItems bytes =
        .ok ((engine, qualityOrScale, gpuId, batchCount), rest) ↔
      bytes = engineByte engine ::
          (Format.encodeU32 (UInt32.ofNat qualityOrScale.length) ++
            (qualityOrScale ++ (Format.encodeU32 gpuId.toUInt32 ++
              (Format.encodeU32 batchCount ++ rest)))) ∧
        qualityOrScale.length ≤ kMaxMetaStringBytes ∧
        1 ≤ batchCount.toNat ∧ batchCount.toNat ≤ maxBatchItems := by
  constructor
  · intro accepted
    simp only [leadingParser, Parser.bind_eq_ok, Parser.rejectIf_eq_ok,
      Parser.remaining_eq_ok, Parser.require_eq_ok, Parser.take_eq_ok, Parser.pure_eq_ok]
      at accepted
    rcases accepted with ⟨_, _, ⟨rfl, rfl⟩, _, _, ⟨present, rfl⟩, engineBytes, afterEngine,
      taken, _, _, ⟨inRange, rfl⟩, metaLen, afterLen, ⟨_, afterEngineEq⟩, accepted⟩
    rcases accepted with ⟨_, _, ⟨metaShort, rfl⟩, _, _, ⟨rfl, rfl⟩, _, _,
      ⟨metaComplete, rfl⟩, metaBytes, afterMeta, metaTaken, accepted⟩
    rcases accepted with ⟨_, afterGpu, ⟨_, afterMetaEq⟩, _, afterCount, ⟨_, afterGpuEq⟩,
      _, _, ⟨countPos, rfl⟩, _, _, ⟨countLe, rfl⟩, fieldsEq, restEq⟩
    have headEq := take_one_engine present taken inRange
    rcases take_complete_iff.mp ⟨metaComplete, metaTaken⟩ with ⟨metaLength, afterLenEq⟩
    cases fieldsEq
    refine ⟨?_, ?_, ?_, Nat.not_lt.mp countLe⟩
    · rw [headEq, afterEngineEq, afterLenEq, afterMetaEq, afterGpuEq, restEq, metaLength,
        UInt32.ofNat_toNat]
      rfl
    · rw [metaLength]
      exact Nat.not_lt.mp metaShort
    · exact Nat.pos_of_ne_zero fun zero => countPos (UInt32.toNat_inj.mp zero)
  · intro given
    rcases given with ⟨bytesEq, metaLe, countPos, countLe⟩
    have metaWord : (UInt32.ofNat qualityOrScale.length).toNat = qualityOrScale.length := by
      apply UInt32.toNat_ofNat_of_lt'
      exact Nat.lt_of_le_of_lt metaLe (by decide)
    have engineInRange : ¬[engineByte engine].getD 0 0 > 1 := engineByte_le_one engine
    have engineTaken (rest : Bytes) : (Parser.take 1 : Parser ParseFailure Bytes)
        (engineByte engine :: rest) = .ok ([engineByte engine], rest) := rfl
    have metaTaken (rest : Bytes) := take_complete_iff.mpr
      (⟨rfl, rfl⟩ : qualityOrScale.length = qualityOrScale.length ∧
        qualityOrScale ++ rest = qualityOrScale ++ rest)
    have countNonzero : ¬batchCount = 0 := by
      intro zero
      rw [zero] at countPos
      exact absurd countPos (by decide)
    rw [bytesEq]
    simp only [leadingParser]
    rw [Parser.bind_of_ok (Parser.remaining_eq_ok.mpr ⟨rfl, rfl⟩)]
    rw [Parser.bind_of_ok (Parser.rejectIf_of_not (by simp))]
    rw [Parser.bind_of_ok (engineTaken _)]
    rw [Parser.bind_of_ok (Parser.rejectIf_of_not engineInRange)]
    rw [Parser.bind_of_ok (require_u32_append _ _)]
    rw [metaWord]
    rw [Parser.bind_of_ok (Parser.rejectIf_of_not (Nat.not_lt.mpr metaLe))]
    rw [Parser.bind_of_ok (Parser.remaining_eq_ok.mpr ⟨rfl, rfl⟩)]
    rw [Parser.bind_of_ok (Parser.rejectIf_of_not ((metaTaken _).1))]
    rw [Parser.bind_of_ok (Parser.take_eq_ok.mpr (metaTaken _).2)]
    rw [Parser.bind_of_ok (require_i32_append gpuId _)]
    rw [Parser.bind_of_ok (require_u32_append _ _)]
    rw [Parser.bind_of_ok (Parser.rejectIf_of_not countNonzero)]
    rw [Parser.bind_of_ok (Parser.rejectIf_of_not (Nat.not_lt.mpr countLe))]
    simp only [List.getD_cons_zero, engineOf_engineByte]
    rfl

/-- The trailing parser accepts exactly the images counted, within the budget, and
nothing behind them. -/
theorem trailingParser_eq_ok_iff {engine : EngineType} {qualityOrScale : Bytes}
    {gpuId : Int32} {batchCount : UInt32} {request : RequestPayload} :
    trailingParser engine qualityOrScale gpuId batchCount bytes = .ok (request, rest) ↔
      ∃ images, request = { engine, qualityOrScale, gpuId, batchCount, images } ∧
        images.length = batchCount.toNat ∧
        bytes = images.flatMap Format.sized.encode ∧ rest = [] ∧
        RequestPayload.imageBytes images ≤ kMaxBatchPayloadBytes := by
  simp only [trailingParser, Parser.bind_eq_ok, Parser.rejectIf_eq_ok,
    Parser.remaining_eq_ok, Parser.pure_eq_ok, imagesParser_eq_ok_iff _ _ _ (Nat.zero_le _),
    Nat.zero_add]
  constructor
  · intro accepted
    rcases accepted with ⟨images, last, ⟨countEq, bytesEq, bytesLe⟩, _, _, ⟨rfl, rfl⟩, _, _,
      ⟨consumed, rfl⟩, requestEq, restEq⟩
    have lastNil := List.length_eq_zero_iff.mp (Nat.eq_zero_of_not_pos consumed)
    rw [lastNil, List.append_nil] at bytesEq
    exact ⟨images, requestEq, countEq, bytesEq, restEq.trans lastNil, bytesLe⟩
  · intro given
    rcases given with ⟨images, requestEq, countEq, bytesEq, restEq, bytesLe⟩
    exact ⟨images, [], ⟨countEq, by rw [List.append_nil]; exact bytesEq, bytesLe⟩, _, _,
      ⟨rfl, rfl⟩, (), [], ⟨Nat.lt_irrefl 0, rfl⟩, requestEq, restEq⟩

/-- The suffix parser accepts exactly the encodings of requests within the limits,
and reads all of them. -/
theorem requestParser_eq_ok_iff {maxBatchItems : Nat} {request : RequestPayload} :
    requestParser maxBatchItems bytes = .ok (request, rest) ↔
      bytes = request.encode ∧ request.WithinLimits maxBatchItems ∧ rest = [] := by
  rw [requestParser_eq, Parser.bind_eq_ok]
  constructor
  · intro accepted
    rcases accepted with ⟨⟨engine, qualityOrScale, gpuId, batchCount⟩, entries, leading,
      trailing⟩
    rcases leadingParser_eq_ok_iff.mp leading with ⟨bytesEq, metaLe, countPos, countLe⟩
    rcases trailingParser_eq_ok_iff.mp trailing with
      ⟨images, rfl, countEq, entriesEq, restEq, bytesLe⟩
    refine ⟨?_, ⟨metaLe, countEq, countPos, countLe, bytesLe⟩, restEq⟩
    rw [bytesEq, entriesEq, RequestPayload.encode_eq]
  · intro given
    rcases given with ⟨bytesEq, limits, restEq⟩
    rcases request with ⟨engine, qualityOrScale, gpuId, batchCount, images⟩
    rcases limits with ⟨metaLe, countEq, countPos, countLe, bytesLe⟩
    rw [RequestPayload.encode_eq] at bytesEq
    exact ⟨(engine, qualityOrScale, gpuId, batchCount), _,
      leadingParser_eq_ok_iff.mpr ⟨bytesEq, metaLe, countPos, countLe⟩,
      trailingParser_eq_ok_iff.mpr ⟨images, rfl, countEq, rfl, restEq, bytesLe⟩⟩

/-! ## What the pointer walk accepts -/

theorem parseRequestPayload_eq_ok_iff (data : Bytes) (maxBatchItems : Nat)
    (request : RequestPayload) :
    parseRequestPayload data maxBatchItems = .ok request ↔
      data = request.encode ∧ request.WithinLimits maxBatchItems := by
  rw [parseRequestPayload_eq_suffix]
  constructor
  · intro accepted
    cases parserEq : requestParser maxBatchItems data with
    | error failure =>
        rw [parserEq] at accepted
        cases accepted
    | ok found =>
        rw [parserEq] at accepted
        cases accepted
        rcases requestParser_eq_ok_iff.mp parserEq with ⟨dataEq, limits, _⟩
        exact ⟨dataEq, limits⟩
  · intro encoded
    rw [requestParser_eq_ok_iff.mpr ⟨encoded.1, encoded.2, rfl⟩]
    rfl

/-- The request parser accepts exactly the encodings of the requests within the
limits, as those requests; so it inverts the encoder, accepts one byte string
for each request, accepts no proper prefix or extension of an accepted payload,
and on any payload whatever reads only bytes of the payload. -/
theorem request_parser_exact (maxBatchItems : Nat) :
    (∀ data request, parseRequestPayload data maxBatchItems = .ok request ↔
      data = request.encode ∧ request.WithinLimits maxBatchItems) ∧
    (∀ request : RequestPayload, request.WithinLimits maxBatchItems →
      parseRequestPayload request.encode maxBatchItems = .ok request) ∧
    (∀ data other request, parseRequestPayload data maxBatchItems = .ok request →
      parseRequestPayload other maxBatchItems = .ok request → data = other) ∧
    (∀ data suffix request other, parseRequestPayload data maxBatchItems = .ok request →
      parseRequestPayload (data ++ suffix) maxBatchItems = .ok other → suffix = []) ∧
    ∀ data, ∀ offset ∈ requestReads data maxBatchItems, offset < data.length := by
  refine ⟨fun data request => parseRequestPayload_eq_ok_iff data maxBatchItems request,
    ?_, ?_, ?_, fun data => requestReads_inBounds data maxBatchItems⟩
  · intro request limits
    exact (parseRequestPayload_eq_ok_iff _ _ _).mpr ⟨rfl, limits⟩
  · intro data other request dataOk otherOk
    have dataEq := ((parseRequestPayload_eq_ok_iff _ _ _).mp dataOk).1
    have otherEq := ((parseRequestPayload_eq_ok_iff _ _ _).mp otherOk).1
    exact dataEq.trans otherEq.symm
  · intro data suffix request other dataOk extendedOk
    rcases (parseRequestPayload_eq_ok_iff _ _ _).mp dataOk with ⟨dataEq, limits⟩
    rcases (parseRequestPayload_eq_ok_iff _ _ _).mp extendedOk with
      ⟨extendedEq, otherLimits⟩
    have decoded : requestFormat.decode data = some request :=
      requestFormat.decode_eq_some_iff.mpr
        ⟨limits.valid, by rw [requestFormat_encode, dataEq]⟩
    have extended : requestFormat.decode (data ++ suffix) = some other :=
      requestFormat.decode_eq_some_iff.mpr
        ⟨otherLimits.valid, by rw [requestFormat_encode, extendedEq]⟩
    exact requestFormat.decode_append decoded extended

/-- The payload of the parser's test with two images. -/
example :
    parseRequestPayload
        (buildPayload 0 (text "E") (-1) 2 [[0x01, 0x02, 0x03], [0xAA, 0xBB, 0xCC, 0xDD]]) 8 =
      .ok
        { engine := .realCUGAN, qualityOrScale := text "E", gpuId := -1, batchCount := 2
          images := [[0x01, 0x02, 0x03], [0xAA, 0xBB, 0xCC, 0xDD]] } := by
  rfl

end NcnnUpscaler.Protocol
