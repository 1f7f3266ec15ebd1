import NcnnUpscaler.KeepAlive.Loop

/-!
# Framing

The loop on a stream of frames.  One iteration consumes exactly one complete
frame and answers it from its body and the engine's state alone; on what is left
after the last complete frame it stops without answering.  A run is therefore a
fold over the frames, however malformed they are.
-/

namespace NcnnUpscaler.KeepAlive

open Wire Protocol

variable {σ : Type} (engine : Engine σ) (opts : Options)

/-- A frame: a body whose length is a nonzero word. -/
structure Frame where
  body : Bytes
  nonempty : 0 < body.length
  fits : body.length < 2 ^ 32

/-- The bytes of a frame: its length, then its body. -/
def Frame.encode (frame : Frame) : Bytes := Format.sized.encode frame.body

/-- What may follow the last complete frame: nothing, a frame cut short, or a
zero length word with anything after it. -/
def Residual (tail : Bytes) : Prop :=
  tail = [] ∨
    (∃ (frame : Frame) (missing : Bytes), missing ≠ [] ∧ frame.encode = tail ++ missing) ∨
    ∃ rest, tail = Format.encodeU32 0 ++ rest

/-- What the loop does with one complete frame. -/
def serveFrame (engine : Engine σ) (opts : Options) (body : Bytes) (state : σ) :
    FrameResult σ :=
  if body.length < kProtocolHeaderSize then
    rejectFrame 0 0 .invalidFrame (text "frame too short for header") body.length state
  else if body.length > kMaxMessageBytes then
    rejectFrame 0 0 .invalidFrame (text "frame exceeds max size") body.length state
  else
    handlePayload engine opts body state

/-! ## One iteration -/

theorem readU32_encode (value : UInt32) (rest : Bytes) :
    readU32 (Format.encodeU32 value ++ rest) = some (value, rest) := by
  have word : readExact (Format.encodeU32 value ++ rest) 4 =
      some (Format.encodeU32 value, rest) :=
    readExact_append (Format.encodeU32 value) rest
  simp only [readU32, word]
  exact congrArg (fun value => some (value, rest)) (Format.decodeU32_bytes value)

theorem readU32_short {stdin : Bytes} (short : stdin.length < 4) : readU32 stdin = none := by
  simp only [readU32, readExact_eq_none short]

/-- An iteration on a nonzero length word: the frame is served when the input
holds it, and otherwise the loop stops with nothing done. -/
theorem iterate_length (session : Session σ) {length : Nat} {rest : Bytes}
    (positive : 0 < length) (fits : length < 2 ^ 32) :
    iterate engine opts
        { session with stdin := Format.encodeU32 (UInt32.ofNat length) ++ rest } =
      if length ≤ rest.length then
        .next ({ session with stdin := rest.drop length }.after
          (serveFrame engine opts (rest.take length) session.engine))
      else
        .leave { session with stdin := [] } := by
  have word : (UInt32.ofNat length).toNat = length := UInt32.toNat_ofNat_of_lt' fits
  have nonzero : UInt32.ofNat length ≠ 0 := by
    intro zero
    rw [zero] at word
    exact Nat.ne_of_lt positive word
  simp only [iterate, readU32_encode, if_neg nonzero, word, discardBytes_eq, readExact]
  by_cases complete : length ≤ rest.length
  · have bodyLength : (rest.take length).length = length := List.length_take_of_le complete
    simp only [if_pos complete, serveFrame, bodyLength]
    by_cases short : length < kProtocolHeaderSize
    · simp only [if_pos short]
    · simp only [if_neg short]
      by_cases long : length > kMaxMessageBytes
      · simp only [if_pos long]
      · simp only [if_neg long]
  · simp only [if_neg complete]
    by_cases short : length < kProtocolHeaderSize
    · simp only [if_pos short]
    · simp only [if_neg short]
      by_cases long : length > kMaxMessageBytes
      · simp only [if_pos long]
      · simp only [if_neg long]

/-- An iteration consumes exactly one complete frame, whatever follows it. -/
theorem iterate_frame (session : Session σ) (frame : Frame) (rest : Bytes) :
    iterate engine opts { session with stdin := frame.encode ++ rest } =
      .next ({ session with stdin := rest }.after
        (serveFrame engine opts frame.body session.engine)) := by
  simp only [Frame.encode, Format.sized_encode, List.append_assoc]
  rw [iterate_length engine opts session frame.nonempty frame.fits]
  have complete : frame.body.length ≤ (frame.body ++ rest).length := by
    rw [List.length_append]
    exact Nat.le_add_right _ _
  rw [if_pos complete, List.take_left, List.drop_left]

/-- A frame cut short after its length word lacks part of its body. -/
theorem Frame.cut_short {frame : Frame} {tail missing : Bytes} (cut : missing ≠ [])
    (encodeEq : frame.encode = tail ++ missing) (long : 4 ≤ tail.length) :
    ∃ body, tail = Format.encodeU32 (UInt32.ofNat frame.body.length) ++ body ∧
      body.length < frame.body.length := by
  have positive := List.length_pos_iff.mpr cut
  rw [Frame.encode, Format.sized_encode] at encodeEq
  rcases List.append_eq_append_iff.mp encodeEq with
    ⟨body, tailEq, bodyEq⟩ | ⟨word, wordEq, missingEq⟩
  · refine ⟨body, tailEq, ?_⟩
    rw [bodyEq, List.length_append]
    omega
  · have lengthEq := congrArg List.length wordEq
    rw [List.length_append, Format.encodeU32_length] at lengthEq
    have wordEmpty : word = [] := List.length_eq_zero_iff.mp (by omega)
    rw [wordEmpty, List.append_nil] at wordEq
    exact ⟨[], by rw [List.append_nil, wordEq], frame.nonempty⟩

/-- On what follows the last frame the loop stops with nothing done. -/
theorem iterate_residual (session : Session σ) {tail : Bytes} (residual : Residual tail) :
    ∃ left, iterate engine opts { session with stdin := tail } =
      .leave { session with stdin := left } := by
  have stopped {stdin : Bytes} (short : stdin.length < 4) :
      iterate engine opts { session with stdin } = .leave { session with stdin := [] } := by
    simp only [iterate, readU32_short short]
  rcases residual with empty | ⟨frame, missing, cut, encodeEq⟩ | ⟨rest, shutdown⟩
  · subst empty
    exact ⟨[], stopped (by decide)⟩
  · refine ⟨[], ?_⟩
    by_cases short : tail.length < 4
    · exact stopped short
    · rcases Frame.cut_short cut encodeEq (Nat.not_lt.mp short) with
        ⟨body, tailEq, truncated⟩
      rw [tailEq, iterate_length engine opts session frame.nonempty frame.fits]
      rw [if_neg (Nat.not_le.mpr truncated)]
  · subst shutdown
    refine ⟨rest, ?_⟩
    simp only [iterate, readU32_encode, if_true]

/-! ## Runs -/

/-- The session after one complete frame. -/
def Session.serve (engine : Engine σ) (opts : Options) (session : Session σ)
    (frame : Frame) : Session σ :=
  session.after (serveFrame engine opts frame.body session.engine)

theorem run_residual (session : Session σ) {tail : Bytes} (residual : Residual tail) :
    ∃ left, run engine opts { session with stdin := tail } =
      { session with stdin := left } := by
  rcases iterate_residual engine opts session residual with ⟨left, stepEq⟩
  refine ⟨left, ?_⟩
  rw [run]
  split
  · next last leaveEq =>
      rw [stepEq] at leaveEq
      cases leaveEq
      rfl
  · next session nextEq =>
      rw [stepEq] at nextEq
      cases nextEq

theorem run_frame (session : Session σ) (frame : Frame) (rest : Bytes) :
    run engine opts { session with stdin := frame.encode ++ rest } =
      run engine opts { session.serve engine opts frame with stdin := rest } := by
  rw [run]
  split
  · next last leaveEq =>
      rw [iterate_frame] at leaveEq
      cases leaveEq
  · next next nextEq =>
      rw [iterate_frame] at nextEq
      cases nextEq
      rfl

/-- After complete frames the loop goes on as from the session that served them. -/
theorem run_after (session : Session σ) (frames : List Frame) (rest : Bytes) :
    run engine opts { session with stdin := frames.flatMap Frame.encode ++ rest } =
      run engine opts
        { frames.foldl (Session.serve engine opts) session with stdin := rest } := by
  induction frames generalizing session with
  | nil => rfl
  | cons frame frames ih =>
      rw [List.flatMap_cons, List.append_assoc, run_frame, List.foldl_cons]
      exact ih (session.serve engine opts frame)

/-- A run over complete frames and a residual is a fold over the frames. -/
theorem run_frames (session : Session σ) (frames : List Frame) {tail : Bytes}
    (residual : Residual tail) :
    ∃ left, run engine opts { session with stdin := frames.flatMap Frame.encode ++ tail } =
      { frames.foldl (Session.serve engine opts) session with stdin := left } := by
  rw [run_after]
  exact run_residual engine opts _ residual

/-! ## Responses in a trace -/

@[simp] theorem responsesOf_append (earlier later : List Event) :
    responsesOf (earlier ++ later) = responsesOf earlier ++ responsesOf later :=
  List.filterMap_append

@[simp] theorem stdoutOf_append (earlier later : List Event) :
    stdoutOf (earlier ++ later) = stdoutOf earlier ++ stdoutOf later :=
  List.flatMap_append

/-- Only responses reach stdout. -/
theorem stdoutOf_eq (events : List Event) :
    stdoutOf events = (responsesOf events).flatMap writeProtocolResponse := by
  induction events with
  | nil => rfl
  | cons event events ih =>
      have tail : stdoutOf (event :: events) = event.stdoutBytes ++ stdoutOf events := rfl
      rw [tail, ih]
      cases event with
      | respond response => rfl
      | record outcome => rfl
      | processSingle image output => rfl
      | clearAllocators => rfl

/-- Whether an event is a call of `processSingle`. -/
def Event.isCall : Event → Bool
  | .processSingle _ _ => true
  | _ => false

/-- The batch loop only calls the engine. -/
theorem batchLoop_isCall (outputFormat : String) (images : List Bytes)
    (left index : Nat) (outputs : List Bytes) (state : σ) :
    ∀ event ∈ (batchLoop engine outputFormat images left index outputs state).calls,
      event.isCall := by
  induction left generalizing index outputs state with
  | zero =>
      intro event member
      cases member
  | succ left ih =>
      simp only [batchLoop]
      split
      · intro event member
        rw [List.mem_singleton.mp member]
        rfl
      · intro event member
        rcases List.mem_cons.mp member with first | later
        · rw [first]
          rfl
        · exact ih _ _ _ event later

/-- What picks nothing from a call of `processSingle` picks nothing from calls. -/
theorem filterMap_calls {β : Type} {pick : Event → Option β}
    (skips : ∀ image output, pick (.processSingle image output) = none) {events : List Event}
    (allCalls : ∀ event ∈ events, event.isCall) : events.filterMap pick = [] := by
  apply List.filterMap_eq_nil_iff.mpr
  intro event member
  have isCall := allCalls event member
  cases event with
  | processSingle image output => exact skips image output
  | respond response => cases isCall
  | record outcome => cases isCall
  | clearAllocators => cases isCall

theorem responsesOf_calls {events : List Event} (allCalls : ∀ event ∈ events, event.isCall) :
    responsesOf events = [] :=
  filterMap_calls (fun _ _ => rfl) allCalls

/-- The batch loop answers nothing by itself. -/
theorem batchLoop_responses (outputFormat : String) (images : List Bytes)
    (left index : Nat) (outputs : List Bytes) (state : σ) :
    responsesOf (batchLoop engine outputFormat images left index outputs state).calls = [] :=
  responsesOf_calls (batchLoop_isCall engine outputFormat images left index outputs state)

theorem handleRequest_responses (requestId : UInt32) (request : RequestPayload)
    (messageLen : Nat) (state : σ) :
    ∃ response,
      responsesOf (handleRequest engine opts requestId request messageLen state).events =
        [response] := by
  simp only [handleRequest]
  split
  · rw [responsesOf_append, batchLoop_responses]
    exact ⟨_, rfl⟩
  · rw [responsesOf_append, batchLoop_responses]
    exact ⟨_, rfl⟩

theorem handlePayload_responses (payload : Bytes) (state : σ) :
    ∃ response,
      responsesOf (handlePayload engine opts payload state).events = [response] := by
  simp only [handlePayload]
  split
  · exact ⟨_, rfl⟩
  · split
    · exact ⟨_, rfl⟩
    · split
      · exact ⟨_, rfl⟩
      · split
        · exact ⟨_, rfl⟩
        · exact handleRequest_responses engine opts _ _ _ _

/-- Every complete frame is answered exactly once. -/
theorem serveFrame_responses (body : Bytes) (state : σ) :
    ∃ response, responsesOf (serveFrame engine opts body state).events = [response] := by
  simp only [serveFrame]
  split
  · exact ⟨_, rfl⟩
  · split
    · exact ⟨_, rfl⟩
    · exact handlePayload_responses engine opts body state

/-! ## Engines whose outputs do not depend on their state -/

/-- What the engine returns for an image does not depend on the images before
it. -/
def Engine.Stateless (engine : Engine σ) : Prop :=
  ∀ (state other : σ) (image : Bytes) (outputFormat : String),
    (engine.processSingle state image outputFormat).2 =
      (engine.processSingle other image outputFormat).2

variable {engine opts}

theorem batchLoop_stateless (stateless : engine.Stateless) (outputFormat : String)
    (images : List Bytes) (left index : Nat) (outputs : List Bytes) (state other : σ) :
    (batchLoop engine outputFormat images left index outputs state).calls =
        (batchLoop engine outputFormat images left index outputs other).calls ∧
      (batchLoop engine outputFormat images left index outputs state).result =
        (batchLoop engine outputFormat images left index outputs other).result := by
  induction left generalizing index outputs state other with
  | zero => exact ⟨rfl, rfl⟩
  | succ left ih =>
      have same := stateless state other (images.getD index []) outputFormat
      simp only [batchLoop]
      split
      · next after stateEq =>
          split
          · exact ⟨rfl, rfl⟩
          · next otherAfter output otherEq =>
              rw [stateEq, otherEq] at same
              cases same
      · next after output stateEq =>
          split
          · next otherAfter otherEq =>
              rw [stateEq, otherEq] at same
              cases same
          · next otherAfter otherOutput otherEq =>
              rw [stateEq, otherEq] at same
              cases same
              rcases ih (index + 1) (outputs ++ [output]) after otherAfter with
                ⟨callsEq, resultEq⟩
              exact ⟨by rw [callsEq], resultEq⟩

theorem serveFrame_stateless (stateless : engine.Stateless) (body : Bytes)
    (state other : σ) :
    (serveFrame engine opts body state).events =
      (serveFrame engine opts body other).events := by
  have request (requestId : UInt32) (request : RequestPayload) (messageLen : Nat) :
      (handleRequest engine opts requestId request messageLen state).events =
        (handleRequest engine opts requestId request messageLen other).events := by
    rcases batchLoop_stateless stateless opts.outputFormat request.images
      request.batchCount.toNat 0 [] state other with ⟨callsEq, resultEq⟩
    simp only [handleRequest, callsEq, resultEq]
    split <;> rfl
  have payload : (handlePayload engine opts body state).events =
      (handlePayload engine opts body other).events := by
    simp only [handlePayload]
    split
    · rfl
    · split
      · rfl
      · split
        · rfl
        · split
          · rfl
          · exact request _ _ _
  simp only [serveFrame]
  split
  · rfl
  · split
    · rfl
    · exact payload

/-! ## The answers to a stream -/

variable (engine opts)

/-- The bytes written in answer to one frame. -/
def reply (engine : Engine σ) (opts : Options) (state : σ) (body : Bytes) : Bytes :=
  stdoutOf (serveFrame engine opts body state).events

/-- The answers to a list of frames, one for each, the engine's state carried
from one to the next. -/
def replies (engine : Engine σ) (opts : Options) : σ → List Frame → List Bytes
  | _, [] => []
  | state, frame :: frames =>
      reply engine opts state frame.body ::
        replies engine opts (serveFrame engine opts frame.body state).engine frames

theorem reply_eq_response (state : σ) (body : Bytes) :
    ∃ response, reply engine opts state body = writeProtocolResponse response := by
  rcases serveFrame_responses engine opts body state with
    ⟨response, responsesEq⟩
  refine ⟨response, ?_⟩
  rw [reply, stdoutOf_eq, responsesEq]
  simp

theorem replies_length (state : σ) (frames : List Frame) :
    (replies engine opts state frames).length = frames.length := by
  induction frames generalizing state with
  | nil => rfl
  | cons frame frames ih => rw [replies, List.length_cons, ih, List.length_cons]

variable {engine opts}

theorem mem_replies {state : σ} {frames : List Frame} {answer : Bytes}
    (member : answer ∈ replies engine opts state frames) :
    ∃ response, answer = writeProtocolResponse response := by
  induction frames generalizing state with
  | nil => cases member
  | cons frame frames ih =>
      rcases List.mem_cons.mp member with first | later
      · subst first
        exact reply_eq_response engine opts state frame.body
      · exact ih later

theorem replies_stateless (stateless : engine.Stateless) (state start : σ)
    (frames : List Frame) :
    replies engine opts state frames =
      frames.map fun frame => reply engine opts start frame.body := by
  induction frames generalizing state with
  | nil => rfl
  | cons frame frames ih =>
      have first : reply engine opts state frame.body = reply engine opts start frame.body :=
        congrArg stdoutOf (serveFrame_stateless stateless frame.body state start)
      rw [replies, List.map_cons, first, ih]

variable (engine opts)

theorem foldl_serve_trace (session : Session σ) (frames : List Frame) :
    stdoutOf (frames.foldl (Session.serve engine opts) session).trace =
        stdoutOf session.trace ++ (replies engine opts session.engine frames).flatten ∧
      (responsesOf (frames.foldl (Session.serve engine opts) session).trace).length =
        (responsesOf session.trace).length + frames.length := by
  induction frames generalizing session with
  | nil => simp [replies]
  | cons frame frames ih =>
      rcases ih (session.serve engine opts frame) with ⟨stdoutEq, countEq⟩
      rcases serveFrame_responses engine opts frame.body
        session.engine with ⟨response, responsesEq⟩
      constructor
      · rw [List.foldl_cons, stdoutEq]
        simp only [Session.serve, Session.after, stdoutOf_append, replies, reply,
          List.flatten_cons, List.append_assoc]
      · rw [List.foldl_cons, countEq]
        simp only [Session.serve, Session.after, responsesOf_append, responsesEq,
          List.length_append, List.length_cons, List.length_nil]
        omega

/-- On a stream of frames followed by something that completes no frame, the loop
writes exactly one response for each frame, in order, and no other byte.  The
answer to a frame is determined by its body, the options and the state the
engine is in; with an engine whose outputs do not depend on its state it is the
same whatever frames came before. -/
theorem frames_answered_in_order (engine : Engine σ) (opts : Options) (state : σ)
    (frames : List Frame) {tail : Bytes} (residual : Residual tail) :
    let last := runKeepAliveProtocolV2 engine opts state
      (frames.flatMap Frame.encode ++ tail)
    stdoutOf last.trace = (replies engine opts state frames).flatten ∧
      (responsesOf last.trace).length = frames.length ∧
      (replies engine opts state frames).length = frames.length ∧
      (∀ answer ∈ replies engine opts state frames,
        ∃ response, answer = writeProtocolResponse response) ∧
      (engine.Stateless → ∀ start, replies engine opts state frames =
        frames.map fun frame => reply engine opts start frame.body) := by
  let fresh : Session σ := { stdin := [], engine := state }
  rcases run_frames engine opts fresh frames residual with
    ⟨left, runEq⟩
  rcases foldl_serve_trace engine opts fresh frames with
    ⟨stdoutEq, countEq⟩
  have lastTrace : (runKeepAliveProtocolV2 engine opts state
      (frames.flatMap Frame.encode ++ tail)).trace =
        (frames.foldl (Session.serve engine opts) fresh).trace := by
    have traces := congrArg Session.trace runEq
    exact traces
  refine ⟨?_, ?_, replies_length engine opts state frames, ?_, ?_⟩
  · rw [lastTrace, stdoutEq]
    rfl
  · rw [lastTrace, countEq]
    exact Nat.zero_add _
  · intro answer member
    exact mem_replies member
  · intro stateless start
    exact replies_stateless stateless state start frames

/-- A frame too short for a header, a request for one image and a frame with a
bad header, followed by a length word cut short, for an engine that counts its
calls. -/
theorem frames_answered_in_order_two :
    let engine : Engine Nat :=
      { processSingle := fun calls image _ => (calls + 1, if calls = 3 then none else some image)
        clearAllocators := id }
    let frames : List Frame :=
      [{ body := [1, 2, 3], nonempty := by decide, fits := by decide },
        { body := [0x52, 0x44, 0x52, 0x42, 2, 0, 0, 0, 1, 0, 0, 0, 7, 0, 0, 0] ++
            buildPayload 0 [] 0 1 [[5]]
          nonempty := by decide, fits := by decide },
        { body := List.replicate 16 0, nonempty := by decide, fits := by decide }]
    let last := runKeepAliveProtocolV2 engine {} 0 (frames.flatMap Frame.encode ++ [9, 0])
    stdoutOf last.trace = (replies engine {} 0 frames).flatten ∧
      (responsesOf last.trace).length = frames.length ∧
      (replies engine {} 0 frames).length = frames.length ∧
      (∀ answer ∈ replies engine {} 0 frames,
        ∃ response, answer = writeProtocolResponse response) ∧
      (engine.Stateless → ∀ start, replies engine {} 0 frames =
        frames.map fun frame => reply engine {} start frame.body) :=
  frames_answered_in_order _ _ _ _
    (.inr (.inl ⟨{ body := List.replicate 9 7, nonempty := by decide, fits := by decide },
      [0, 0] ++ List.replicate 9 7, by decide, by decide⟩))

end NcnnUpscaler.KeepAlive
