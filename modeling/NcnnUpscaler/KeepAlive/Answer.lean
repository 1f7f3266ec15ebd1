import NcnnUpscaler.KeepAlive.Framing

/-!
# Answers

What the response to a complete frame says.  A frame is answered with `ok` only
when both parsers accept it and the engine succeeds on every image, and then it
carries one output for each image; every other answer carries a text and no
output.
-/

namespace NcnnUpscaler.KeepAlive

open Wire Protocol

variable {σ : Type} {engine : Engine σ} {opts : Options}

/-! ## The batch loop -/

/-- The engine's state when the batch loop reaches the image at `index`. -/
def stateAt (engine : Engine σ) (outputFormat : String) (state : σ) (images : List Bytes)
    (index : Nat) : σ :=
  (images.take index).foldl
    (fun state image => (engine.processSingle state image outputFormat).1) state

/-- What the engine returns for the image at `index`, reached by the batch
loop. -/
def outputAt (engine : Engine σ) (outputFormat : String) (state : σ) (images : List Bytes)
    (index : Nat) : Option Bytes :=
  (engine.processSingle (stateAt engine outputFormat state images index)
    (images.getD index []) outputFormat).2

/-- The engine fails on the image at `index` and on none before it. -/
structure FailsFirstAt (engine : Engine σ) (outputFormat : String) (state : σ)
    (images : List Bytes) (index : Nat) : Prop where
  inRange : index < images.length
  earlier : ∀ before < index, (outputAt engine outputFormat state images before).isSome
  fails : outputAt engine outputFormat state images index = none

/-- The engine returns these outputs for the images, one after the other. -/
structure Returns (engine : Engine σ) (outputFormat : String) (state : σ)
    (images outputs : List Bytes) : Prop where
  length_eq : outputs.length = images.length
  output_eq : ∀ index < images.length,
    outputAt engine outputFormat state images index = outputs[index]?

variable {outputFormat : String} {images : List Bytes} {state : σ}

theorem Returns.unique {outputs others : List Bytes}
    (returns : Returns engine outputFormat state images outputs)
    (otherReturns : Returns engine outputFormat state images others) : outputs = others := by
  apply List.ext_getElem?
  intro index
  by_cases inRange : index < images.length
  · rw [← returns.output_eq index inRange, otherReturns.output_eq index inRange]
  · have past := Nat.not_lt.mp inRange
    rw [List.getElem?_eq_none (by rw [returns.length_eq]; exact past),
      List.getElem?_eq_none (by rw [otherReturns.length_eq]; exact past)]

theorem Returns.nil : Returns engine outputFormat state [] [] := by
  refine ⟨rfl, ?_⟩
  intro index inRange
  exact absurd inRange (Nat.not_lt_zero index)

/-- The outputs of the images behind one the engine succeeds on are those it returns
from the state it was left in. -/
theorem Returns.cons {image output : Bytes} {after : σ} {outputs : List Bytes}
    (called : engine.processSingle state image outputFormat = (after, some output))
    (returns : Returns engine outputFormat after images outputs) :
    Returns engine outputFormat state (image :: images) (output :: outputs) := by
  refine ⟨by rw [List.length_cons, List.length_cons, returns.length_eq], ?_⟩
  intro index inRange
  cases index with
  | zero =>
      simp only [outputAt, stateAt, List.take_zero, List.foldl_nil, List.getD_cons_zero, called]
      rfl
  | succ index =>
      have later := returns.output_eq index (Nat.lt_of_succ_lt_succ inRange)
      simp only [outputAt, stateAt, List.take_succ_cons, List.foldl_cons, List.getD_cons_succ,
        called, List.getElem?_cons_succ] at later ⊢
      exact later

/-- Where the engine fails it does not return an output for each image. -/
theorem FailsFirstAt.not_returns {index : Nat}
    (failsFirst : FailsFirstAt engine outputFormat state images index) (outputs : List Bytes) :
    ¬Returns engine outputFormat state images outputs := by
  intro returns
  have produced := returns.output_eq index failsFirst.inRange
  have inRange : index < outputs.length := by
    rw [returns.length_eq]
    exact failsFirst.inRange
  rw [failsFirst.fails, List.getElem?_eq_getElem inRange] at produced
  cases produced

theorem FailsFirstAt.unique {index other : Nat}
    (first : FailsFirstAt engine outputFormat state images index)
    (otherFirst : FailsFirstAt engine outputFormat state images other) : index = other := by
  rcases Nat.lt_trichotomy index other with before | same | after
  · have succeeded := otherFirst.earlier index before
    rw [first.fails] at succeeded
    cases succeeded
  · exact same
  · have succeeded := first.earlier other after
    rw [otherFirst.fails] at succeeded
    cases succeeded

variable (engine outputFormat state)

theorem stateAt_succ {index : Nat} (inRange : index < images.length) :
    stateAt engine outputFormat state images (index + 1) =
      (engine.processSingle (stateAt engine outputFormat state images index)
        (images.getD index []) outputFormat).1 := by
  simp only [stateAt]
  rw [List.take_add_one, List.getElem?_eq_getElem inRange, List.foldl_append]
  simp [List.getD, List.getElem?_eq_getElem inRange]

theorem imagesOf_cons (image : Bytes) (output : Option Bytes) (events : List Event) :
    imagesOf (.processSingle image output :: events) = image :: imagesOf events := rfl

@[simp] theorem imagesOf_append (earlier later : List Event) :
    imagesOf (earlier ++ later) = imagesOf earlier ++ imagesOf later :=
  List.filterMap_append

/-- The batch loop from `index` on: it collects the outputs of all images left,
or stops at the first one the engine fails on. -/
theorem batchLoop_spec (left index : Nat) (outputs : List Bytes)
    (total : index + left = images.length)
    (earlier : ∀ before < index, (outputAt engine outputFormat state images before).isSome) :
    let batch := batchLoop engine outputFormat images left index outputs
      (stateAt engine outputFormat state images index)
    (∃ results, batch.result = .ok (outputs ++ results) ∧ results.length = left ∧
        ∀ offset < left,
          outputAt engine outputFormat state images (index + offset) = results[offset]?) ∨
      ∃ failed, batch.result = .error failed ∧ index ≤ failed ∧
        FailsFirstAt engine outputFormat state images failed ∧
        imagesOf batch.calls = (images.drop index).take (failed + 1 - index) := by
  induction left generalizing index outputs with
  | zero =>
      refine .inl ⟨[], by simp [batchLoop], rfl, ?_⟩
      intro offset offsetLt
      exact absurd offsetLt (Nat.not_lt_zero offset)
  | succ left ih =>
      have inRange : index < images.length := by omega
      have stateEq := stateAt_succ engine outputFormat state inRange
      have outputEq : outputAt engine outputFormat state images index =
          (engine.processSingle (stateAt engine outputFormat state images index)
            (images.getD index []) outputFormat).2 := rfl
      simp only [batchLoop]
      split
      · next after failedEq =>
          rw [failedEq] at outputEq
          refine .inr ⟨index, rfl, Nat.le_refl index, ⟨inRange, earlier, outputEq⟩, ?_⟩
          have single : index + 1 - index = 0 + 1 := by omega
          rw [single, List.take_add_one, List.take_zero, List.getElem?_drop]
          simp [imagesOf, List.getD, List.getElem?_eq_getElem inRange]
      · next after output okEq =>
          rw [okEq] at stateEq outputEq
          have earlierSucc : ∀ before < index + 1,
              (outputAt engine outputFormat state images before).isSome := by
            intro before beforeLt
            rcases Nat.lt_succ_iff_lt_or_eq.mp beforeLt with before | same
            · exact earlier _ before
            · rw [same, outputEq]
              rfl
          have rest := ih (index + 1) (outputs ++ [output]) (by omega) earlierSucc
          rw [stateEq] at rest
          rcases rest with ⟨results, resultEq, lengthEq, outputsEq⟩ |
            ⟨failed, resultEq, failedGe, failsFirst, callsEq⟩
          · refine .inl ⟨output :: results, ?_, ?_, ?_⟩
            · rw [resultEq, List.append_assoc]
              rfl
            · rw [List.length_cons, lengthEq]
            · intro offset offsetLt
              cases offset with
              | zero => exact outputEq
              | succ offset =>
                  have shifted := outputsEq offset (by omega)
                  rw [Nat.add_right_comm] at shifted
                  exact shifted
          · refine .inr ⟨failed, resultEq, by omega, failsFirst, ?_⟩
            rw [imagesOf_cons, callsEq]
            have count : failed + 1 - index = (failed + 1 - (index + 1)) + 1 := by omega
            rw [count, List.drop_eq_getElem_cons inRange, List.take_succ_cons]
            simp [List.getD, List.getElem?_eq_getElem inRange]

/-- The batch loop of a request: one output for each image, or the first index the
engine fails at, behind calls for the images up to it. -/
theorem batchLoop_complete {count : Nat} (counted : images.length = count) :
    let batch := batchLoop engine outputFormat images count 0 [] state
    (∃ outputs, batch.result = .ok outputs ∧
        Returns engine outputFormat state images outputs) ∨
      ∃ failed, batch.result = .error failed ∧
        FailsFirstAt engine outputFormat state images failed ∧
        imagesOf batch.calls = images.take (failed + 1) := by
  have noneBefore : ∀ before < 0,
      (outputAt engine outputFormat state images before).isSome := by
    intro before beforeLt
    exact absurd beforeLt (Nat.not_lt_zero before)
  rcases batchLoop_spec engine outputFormat state count 0 [] (by omega) noneBefore with
    ⟨outputs, resultEq, lengthEq, outputsEq⟩ | ⟨failed, resultEq, _, failsFirst, callsEq⟩
  · refine .inl ⟨outputs, resultEq, lengthEq.trans counted.symm, ?_⟩
    intro index indexLt
    have output := outputsEq index (by omega)
    rw [Nat.zero_add] at output
    exact output
  · exact .inr ⟨failed, resultEq, failsFirst, callsEq⟩

/-! ## Frames -/

/-- The length of the body is one the loop reads a header from. -/
def LengthOk (body : Bytes) : Prop :=
  kProtocolHeaderSize ≤ body.length ∧ body.length ≤ kMaxMessageBytes

instance (body : Bytes) : Decidable (LengthOk body) := inferInstanceAs (Decidable (_ ∧ _))

/-- The length, the header and the payload of the body are in order, and the
payload is that of `request`. -/
structure Carries (opts : Options) (body : Bytes) (request : RequestPayload) : Prop where
  length : LengthOk body
  header : HeaderOk body
  payload : parseRequestPayload (body.drop kProtocolHeaderSize) (batchLimit opts) = .ok request

/-- What the answer to a body that carries no request says, and under which id it
is recorded. -/
structure Refused (body : Bytes) (requestId recordedId : UInt32) (status : ProtocolStatus)
    (message : Bytes) : Prop where
  failed : status ≠ .ok
  nonempty : message ≠ []
  short : message.length ≤ 128
  answered : LengthOk body → requestId = decodeU32Le body 12
  recorded : recordedId = if LengthOk body ∧ ¬HeaderOk body then 0 else requestId

theorem Refused.of_text {body : Bytes} {requestId recordedId : UInt32}
    {status : ProtocolStatus} {message : String} (errorText : ErrorText message)
    (failed : status ≠ .ok) (answered : LengthOk body → requestId = decodeU32Le body 12)
    (recorded : recordedId = if LengthOk body ∧ ¬HeaderOk body then 0 else requestId) :
    Refused body requestId recordedId status (text message) :=
  ⟨failed, text_ne_nil errorText.nonempty, errorText.short, answered, recorded⟩

/-- A body of another length is refused whatever it holds. -/
theorem serveFrame_badLength (engine : Engine σ) (opts : Options) {body : Bytes}
    (bad : ¬LengthOk body) (state : σ) :
    ∃ message, ErrorText message ∧
      serveFrame engine opts body state =
        rejectFrame 0 0 .invalidFrame (text message) body.length state := by
  by_cases short : body.length < kProtocolHeaderSize
  · exact ⟨"frame too short for header", .literal (by decide) (by decide),
      by rw [serveFrame, if_pos short]⟩
  · have long : body.length > kMaxMessageBytes := by
      apply Nat.not_le.mp
      intro fits
      exact bad ⟨Nat.not_lt.mp short, fits⟩
    exact ⟨"frame exceeds max size", .literal (by decide) (by decide),
      by rw [serveFrame, if_neg short, if_pos long]⟩

theorem serveFrame_of_length (engine : Engine σ) (opts : Options) {body : Bytes}
    (lengthOk : LengthOk body) (state : σ) :
    serveFrame engine opts body state = handlePayload engine opts body state := by
  rw [serveFrame, if_neg (Nat.not_lt.mpr lengthOk.1), if_neg (Nat.not_lt.mpr lengthOk.2)]

/-- A frame is answered as its request is, or refused before the engine is
called; when there is a header, the answer bears the id in it. -/
theorem serveFrame_cases (engine : Engine σ) (opts : Options) (body : Bytes) (state : σ) :
    (∃ request, Carries opts body request ∧
        serveFrame engine opts body state =
          handleRequest engine opts (decodeU32Le body 12) request body.length state) ∨
      (∀ request, ¬Carries opts body request) ∧
        ∃ requestId recordedId status message,
          serveFrame engine opts body state =
            rejectFrame requestId recordedId status message body.length state ∧
          Refused body requestId recordedId status message := by
  by_cases lengthOk : LengthOk body
  case neg =>
    rcases serveFrame_badLength engine opts lengthOk state with ⟨message, errorText, serveEq⟩
    refine .inr ⟨?_, 0, 0, _, _, serveEq, .of_text errorText (by decide) ?_ (ite_self 0).symm⟩
    · intro request carries
      exact lengthOk carries.length
    · intro headed
      exact absurd headed lengthOk
  let blank : ProtocolHeader := { magic := 0, version := 0, msgType := 0, requestId := 0 }
  have idEq := parseProtocolHeader_requestId blank lengthOk.1
  have acceptedIff := parseProtocolHeader_eq_none_iff blank lengthOk.1
  rw [serveFrame_of_length engine opts lengthOk]
  simp only [handlePayload]
  split
  · next header headerError headerEq =>
      have errorText := parseProtocolHeader_errorText blank (congrArg Prod.snd headerEq)
      rw [headerEq] at idEq acceptedIff
      have headerBad : ¬HeaderOk body := by
        intro headerOk
        cases acceptedIff.mpr headerOk
      refine .inr ⟨?_, _, _, _, _, rfl, .of_text errorText (by decide) (fun _ => idEq) ?_⟩
      · intro request carries
        exact headerBad carries.header
      · rw [if_pos ⟨lengthOk, headerBad⟩]
  · next header headerEq =>
      have typeEq := parseProtocolHeader_msgType blank (congrArg Prod.snd headerEq)
      rw [headerEq] at idEq acceptedIff typeEq
      have headerOk : HeaderOk body := acceptedIff.mp rfl
      have recorded (requestId : UInt32) :
          requestId = if LengthOk body ∧ ¬HeaderOk body then 0 else requestId := by
        rw [if_neg (fun bad => bad.2 headerOk)]
      rw [if_neg (not_not_intro typeEq)]
      split
      · next empty =>
          refine .inr ⟨?_, _, _, _, _, rfl, .of_text (.literal (by decide) (by decide))
            (by decide) (fun _ => idEq) (recorded _)⟩
          intro request carries
          have noBody := List.length_eq_zero_iff.mp empty
          have parsed := carries.payload
          rw [noBody] at parsed
          have encoded := ((parseRequestPayload_eq_ok_iff _ _ _).mp parsed).1
          cases encoded
      · split
        · next failure parseEq =>
            have rejection := parseRequestPayload_rejection parseEq
            refine .inr ⟨?_, _, _, _, _, rfl, .of_text rejection.errorText
              rejection.reported.1 (fun _ => idEq) (recorded _)⟩
            intro request carries
            rw [carries.payload] at parseEq
            cases parseEq
        · next request parseEq =>
            rw [idEq]
            exact .inl ⟨request, ⟨lengthOk, headerOk, parseEq⟩, rfl⟩

/-- A body carries at most one request. -/
theorem Carries.unique {body : Bytes} {request other : RequestPayload}
    (carries : Carries opts body request) (otherCarries : Carries opts body other) :
    request = other := by
  have payload := carries.payload
  rw [otherCarries.payload] at payload
  cases payload
  rfl

theorem Carries.count {body : Bytes} {request : RequestPayload}
    (carries : Carries opts body request) :
    request.images.length = request.batchCount.toNat :=
  ((parseRequestPayload_eq_ok_iff _ _ _).mp carries.payload).2.count_eq

/-- The answer to a request: one output for each image, or a text that names the
first image the engine failed on. -/
theorem handleRequest_spec (requestId : UInt32) {request : RequestPayload}
    (messageLen : Nat) (state : σ)
    (count : request.images.length = request.batchCount.toNat) :
    let events := (handleRequest engine opts requestId request messageLen state).events
    ∃ response, responsesOf events = [response] ∧ response.requestId = requestId ∧
      ((response.status = .ok ∧ response.error = [] ∧
          Returns engine opts.outputFormat state request.images response.outputs) ∨
        ∃ failed, response.status = .engineError ∧ response.error ≠ [] ∧
          response.outputs = [] ∧
          FailsFirstAt engine opts.outputFormat state request.images failed ∧
          imagesOf events = request.images.take (failed + 1)) := by
  rcases batchLoop_complete engine opts.outputFormat state count with
    ⟨outputs, result, returns⟩ | ⟨failed, result, failsFirst, callsEq⟩
  · simp only [handleRequest, result]
    refine ⟨{ requestId, status := .ok, error := [], outputs }, ?_, rfl,
      .inl ⟨rfl, rfl, returns⟩⟩
    rw [responsesOf_append, batchLoop_responses]
    rfl
  · simp only [handleRequest, result]
    refine ⟨errorResponse requestId .engineError
        (text ("engine processing failed at index " ++ toString failed)), ?_, rfl,
      .inr ⟨failed, rfl, ?_, rfl, failsFirst, ?_⟩⟩
    · rw [responsesOf_append, batchLoop_responses]
      rfl
    · exact text_ne_nil (append_ne_empty (by decide) _)
    · rw [imagesOf_append, callsEq]
      exact List.append_nil _

/-- The frame carries a request and the engine succeeds on each of its images in
turn. -/
def Served (engine : Engine σ) (opts : Options) (state : σ) (body : Bytes) : Prop :=
  ∃ request, Carries opts body request ∧
    ∀ index < request.images.length,
      (outputAt engine opts.outputFormat state request.images index).isSome

/-- One iteration on a complete frame adds one response to the trace.  Its status
is `ok` exactly when the frame is served; then it has no error and one output
for each image, the engine's, in order.  Otherwise it has an error and no
output, and the engine was called on exactly the images up to the one it failed
on.  Whenever the frame has a header of an allowed length, the response bears the
id in it. -/
theorem answer_all_or_nothing (engine : Engine σ) (opts : Options) (session : Session σ)
    (frame : Frame) (rest : Bytes) :
    ∃ next events response,
      iterate engine opts { session with stdin := frame.encode ++ rest } = .next next ∧
      next.stdin = rest ∧ next.trace = session.trace ++ events ∧
      responsesOf events = [response] ∧
      (response.status = .ok ↔ Served engine opts session.engine frame.body) ∧
      (response.status = .ok → ∀ request, Carries opts frame.body request →
        response.error = [] ∧ response.outputs.length = request.batchCount.toNat ∧
        ∀ index < request.images.length,
          outputAt engine opts.outputFormat session.engine request.images index =
            response.outputs[index]?) ∧
      (response.status ≠ .ok → response.error ≠ [] ∧ response.outputs = []) ∧
      (∀ request index, Carries opts frame.body request →
        FailsFirstAt engine opts.outputFormat session.engine request.images index →
        imagesOf events = request.images.take (index + 1)) ∧
      (LengthOk frame.body → response.requestId = decodeU32Le frame.body 12) := by
  have stepEq := iterate_frame engine opts session frame rest
  rcases serveFrame_cases engine opts frame.body session.engine with
    ⟨request, carries, serveEq⟩ |
    ⟨carriesNone, requestId, recordedId, status, message, serveEq, refused⟩
  · rcases handleRequest_spec engine (decodeU32Le frame.body 12)
      frame.body.length session.engine carries.count with
      ⟨response, responsesEq, responseId, answered⟩
    rw [serveEq] at stepEq
    refine ⟨_, _, response, stepEq, rfl, rfl, responsesEq, ?_, ?_, ?_, ?_, fun _ => responseId⟩
    · rcases answered with ⟨ok, _, returns⟩ | ⟨failed, status, _, _, failsFirst, _⟩
      · refine ⟨fun _ => ⟨request, carries, ?_⟩, fun _ => ok⟩
        intro index indexLt
        have inRange : index < response.outputs.length := by
          rw [returns.length_eq]
          exact indexLt
        rw [returns.output_eq index indexLt, List.getElem?_eq_getElem inRange]
        rfl
      · refine ⟨fun ok => ?_, fun accepted => ?_⟩
        · rw [status] at ok
          cases ok
        · rcases accepted with ⟨other, otherCarries, succeeds⟩
          cases otherCarries.unique carries
          have succeeded := succeeds failed failsFirst.inRange
          rw [failsFirst.fails] at succeeded
          cases succeeded
    · intro ok other otherCarries
      cases otherCarries.unique carries
      rcases answered with ⟨_, noError, returns⟩ | ⟨failed, status, _⟩
      · exact ⟨noError, returns.length_eq.trans carries.count, returns.output_eq⟩
      · rw [status] at ok
        cases ok
    · intro notOk
      rcases answered with ⟨ok, _⟩ | ⟨failed, _, nonempty, noOutputs, _⟩
      · exact absurd ok notOk
      · exact ⟨nonempty, noOutputs⟩
    · intro other index otherCarries failsFirst
      cases otherCarries.unique carries
      rcases answered with ⟨_, _, returns⟩ |
        ⟨failed, _, _, _, otherFirst, callsEq⟩
      · exact absurd returns (failsFirst.not_returns response.outputs)
      · rw [failsFirst.unique otherFirst]
        exact callsEq
  · rw [serveEq] at stepEq
    refine ⟨_, _, _, stepEq, rfl, rfl, rfl, ?_, ?_, ?_, ?_, refused.answered⟩
    · constructor
      · intro ok
        exact absurd ok refused.failed
      · intro accepted
        rcases accepted with ⟨request, carries, _⟩
        exact absurd carries (carriesNone request)
    · intro ok
      exact absurd ok refused.failed
    · intro _
      exact ⟨refused.nonempty, rfl⟩
    · intro request index carries
      exact absurd carries (carriesNone request)

end NcnnUpscaler.KeepAlive
