import NcnnUpscaler.KeepAlive.Runs

/-!
# Clearing the allocators

When the loop clears the engine's allocator pools.  It does so once for each
request that succeeds, after its response; the exit taken when the engine fails
on an image goes to the next frame before that call.
-/

namespace NcnnUpscaler.KeepAlive

open Wire Protocol

variable {σ : Type}

/-- The events up to the next call of `processSingle`, or up to the end. -/
def untilNextCall (events : List Event) : List Event :=
  events.takeWhile fun event => !event.isCall

/-- The last call of a request is the one behind which a response comes before any
other call.  After each of them the allocators are cleared before the engine is
called again, and before the loop ends. -/
def ClearsAfterRequests (trace : List Event) : Prop :=
  ∀ before image output after, trace = before ++ .processSingle image output :: after →
    (∃ response, .respond response ∈ untilNextCall after) →
      .clearAllocators ∈ untilNextCall after

/-- The body carries a request and the engine, started in the given state, fails
on one of its images. -/
def EngineFails (engine : Engine σ) (opts : Options) (state : σ) (body : Bytes) : Prop :=
  ∃ request index, Carries opts body request ∧
    FailsFirstAt engine opts.outputFormat state request.images index

/-! ## Traces -/

theorem untilNextCall_call {event : Event} (isCall : event.isCall) (events : List Event) :
    untilNextCall (event :: events) = [] := by
  simp [untilNextCall, isCall]

@[simp] theorem untilNextCall_respond (response : Response) (events : List Event) :
    untilNextCall (.respond response :: events) =
      .respond response :: untilNextCall events := rfl

@[simp] theorem untilNextCall_record (outcome : Outcome) (events : List Event) :
    untilNextCall (.record outcome :: events) =
      .record outcome :: untilNextCall events := rfl

@[simp] theorem untilNextCall_clear (events : List Event) :
    untilNextCall (.clearAllocators :: events) =
      .clearAllocators :: untilNextCall events := rfl

theorem clearsAfterRequests_nil : ClearsAfterRequests [] := by
  intro before image output after split
  cases before with
  | nil => cases split
  | cons event before => cases split

/-- Only a call asks for anything. -/
theorem clearsAfterRequests_cons (event : Event) (events : List Event) :
    ClearsAfterRequests (event :: events) ↔
      (event.isCall → (∃ response, .respond response ∈ untilNextCall events) →
          .clearAllocators ∈ untilNextCall events) ∧
        ClearsAfterRequests events := by
  constructor
  · intro clears
    refine ⟨?_, ?_⟩
    · intro isCall
      cases event with
      | processSingle image output => exact clears [] image output events rfl
      | respond response => cases isCall
      | record outcome => cases isCall
      | clearAllocators => cases isCall
    · intro before image output after split
      exact clears (event :: before) image output after (by rw [split, List.cons_append])
  · intro clears before image output after split
    cases before with
    | nil =>
        cases split
        exact clears.1 rfl
    | cons first before =>
        cases split
        exact clears.2 before image output after rfl

/-- Of consecutive calls only the last one does. -/
theorem clearsAfterRequests_calls {calls : List Event} (nonempty : calls ≠ [])
    (allCalls : ∀ event ∈ calls, event.isCall) (events : List Event) :
    ClearsAfterRequests (calls ++ events) ↔
      ((∃ response, .respond response ∈ untilNextCall events) →
          .clearAllocators ∈ untilNextCall events) ∧
        ClearsAfterRequests events := by
  induction calls with
  | nil => exact absurd rfl nonempty
  | cons call calls ih =>
      have isCall := allCalls call List.mem_cons_self
      rw [List.cons_append, clearsAfterRequests_cons]
      cases calls with
      | nil => rw [List.nil_append, forall_prop_of_true isCall]
      | cons next calls =>
          have nextCall := allCalls next (List.mem_cons_of_mem _ List.mem_cons_self)
          have noAnswer : untilNextCall (next :: calls ++ events) = [] :=
            untilNextCall_call nextCall _
          rw [ih (List.cons_ne_nil next calls)
            (fun event member => allCalls event (List.mem_cons_of_mem _ member)), noAnswer]
          simp

/-- An answer that clears the allocators meets the request before it. -/
theorem clearsAfterRequests_cleared {calls : List Event} (nonempty : calls ≠ [])
    (allCalls : ∀ event ∈ calls, event.isCall) (response : Response) (outcome : Outcome)
    (events : List Event) :
    ClearsAfterRequests
        (calls ++ .respond response :: .clearAllocators :: .record outcome :: events) ↔
      ClearsAfterRequests events := by
  rw [clearsAfterRequests_calls nonempty allCalls]
  simp [clearsAfterRequests_cons, Event.isCall]

/-- An answer that does not leaves it to what follows. -/
theorem clearsAfterRequests_answered {calls : List Event} (nonempty : calls ≠ [])
    (allCalls : ∀ event ∈ calls, event.isCall) (response : Response) (outcome : Outcome)
    (events : List Event) :
    ClearsAfterRequests (calls ++ .respond response :: .record outcome :: events) ↔
      .clearAllocators ∈ untilNextCall events ∧ ClearsAfterRequests events := by
  rw [clearsAfterRequests_calls nonempty allCalls]
  simp [clearsAfterRequests_cons, Event.isCall]

/-! ## Frames -/

theorem batchLoop_calls_ne_nil (engine : Engine σ) (outputFormat : String)
    (images : List Bytes) {left : Nat} (positive : 1 ≤ left) (index : Nat)
    (outputs : List Bytes) (state : σ) :
    (batchLoop engine outputFormat images left index outputs state).calls ≠ [] := by
  cases left with
  | zero => cases positive
  | succ left =>
      simp only [batchLoop]
      split
      · exact List.cons_ne_nil _ _
      · exact List.cons_ne_nil _ _

/-- What a frame does to the engine: nothing; calls for a request, with the
allocators cleared after the answer; or calls the last of which failed. -/
inductive FrameCalls (engine : Engine σ) (opts : Options) (state : σ) (body : Bytes) :
    List Event → Prop
  | refused (response : Response) (outcome : Outcome)
      (succeeds : ¬EngineFails engine opts state body) :
      FrameCalls engine opts state body [.respond response, .record outcome]
  | served (calls : List Event) (response : Response) (outcome : Outcome)
      (nonempty : calls ≠ []) (allCalls : ∀ event ∈ calls, event.isCall)
      (succeeds : ¬EngineFails engine opts state body) :
      FrameCalls engine opts state body
        (calls ++ [.respond response, .clearAllocators, .record outcome])
  | failed (calls : List Event) (response : Response) (outcome : Outcome)
      (nonempty : calls ≠ []) (allCalls : ∀ event ∈ calls, event.isCall)
      (fails : EngineFails engine opts state body) :
      FrameCalls engine opts state body (calls ++ [.respond response, .record outcome])

variable (engine : Engine σ) (opts : Options)

/-- Every frame does one of these. -/
theorem serveFrame_calls (body : Bytes) (state : σ) :
    FrameCalls engine opts state body (serveFrame engine opts body state).events := by
  rcases serveFrame_cases engine opts body state with
    ⟨request, carries, serveEq⟩ | ⟨carriesNone, _, _, _, _, serveEq, _⟩
  · rw [serveEq]
    have positive : 1 ≤ request.batchCount.toNat :=
      ((parseRequestPayload_eq_ok_iff _ _ _).mp carries.payload).2.count_pos
    have allCalls := batchLoop_isCall engine opts.outputFormat request.images
      request.batchCount.toNat 0 [] state
    have nonempty := batchLoop_calls_ne_nil engine opts.outputFormat request.images positive 0
      [] state
    rcases batchLoop_complete engine opts.outputFormat state carries.count with
      ⟨outputs, resultEq, returns⟩ | ⟨index, resultEq, failsFirst, _⟩
    · simp only [handleRequest, resultEq]
      refine .served _ _ _ nonempty allCalls ?_
      intro fails
      rcases fails with ⟨other, index, otherCarries, failsFirst⟩
      rw [otherCarries.unique carries] at failsFirst
      exact failsFirst.not_returns outputs returns
    · simp only [handleRequest, resultEq]
      exact .failed _ _ _ nonempty allCalls ⟨request, index, carries, failsFirst⟩
  · rw [serveEq]
    refine .refused _ _ ?_
    intro fails
    rcases fails with ⟨request, _, carries, _⟩
    exact carriesNone request carries

/-! ## Runs -/

/-- Nothing is cleared between frames: of the events that follow an answer, none
clears the allocators before the next call. -/
theorem not_cleared_by_frames (state : σ) (frames : List Frame) :
    .clearAllocators ∉ untilNextCall (servedEvents engine opts state frames) := by
  induction frames generalizing state with
  | nil => exact List.not_mem_nil
  | cons frame frames ih =>
      have startsWithCall {calls answer : List Event} (nonempty : calls ≠ [])
          (allCalls : ∀ event ∈ calls, event.isCall) :
          .clearAllocators ∉ untilNextCall (calls ++ answer) := by
        cases calls with
        | nil => exact absurd rfl nonempty
        | cons call calls =>
            rw [List.cons_append, untilNextCall_call (allCalls call List.mem_cons_self)]
            exact List.not_mem_nil
      have later := ih (serveFrame engine opts frame.body state).engine
      have frameCalls := serveFrame_calls engine opts frame.body state
      rw [servedEvents]
      generalize (serveFrame engine opts frame.body state).events = events at frameCalls ⊢
      cases frameCalls with
      | refused response outcome succeeds => simpa using later
      | served calls response outcome nonempty allCalls succeeds =>
          rw [List.append_assoc]
          exact startsWithCall nonempty allCalls
      | failed calls response outcome nonempty allCalls fails =>
          rw [List.append_assoc]
          exact startsWithCall nonempty allCalls

/-- One frame more: what it owes is settled by its own events, since those of the
frames behind it clear nothing in time. -/
theorem clearsAfterRequests_serve (state : σ) (frame : Frame) (frames : List Frame) :
    ClearsAfterRequests (servedEvents engine opts state (frame :: frames)) ↔
      ¬EngineFails engine opts state frame.body ∧
        ClearsAfterRequests (servedEvents engine opts
          (serveFrame engine opts frame.body state).engine frames) := by
  have notCleared := not_cleared_by_frames engine opts
    (serveFrame engine opts frame.body state).engine frames
  have frameCalls := serveFrame_calls engine opts frame.body state
  rw [servedEvents]
  generalize (serveFrame engine opts frame.body state).events = events at frameCalls ⊢
  cases frameCalls with
  | refused response outcome succeeds =>
      rw [and_iff_right succeeds]
      simp [clearsAfterRequests_cons, Event.isCall]
  | served calls response outcome nonempty allCalls succeeds =>
      rw [and_iff_right succeeds, List.append_assoc]
      exact clearsAfterRequests_cleared nonempty allCalls response outcome _
  | failed calls response outcome nonempty allCalls fails =>
      rw [List.append_assoc]
      refine (clearsAfterRequests_answered nonempty allCalls response outcome _).trans ?_
      exact iff_of_false (fun cleared => notCleared cleared.1)
        (fun succeeds => succeeds.1 fails)

/-- The allocators are cleared after every request that used the engine exactly
when the engine fails on no image of a request that the stream holds. -/
theorem cleared_after_requests_iff (engine : Engine σ) (opts : Options) (state : σ)
    (stdin : Bytes) :
    ClearsAfterRequests (runKeepAliveProtocolV2 engine opts state stdin).trace ↔
      ∀ earlier frame, HoldsFrame stdin earlier frame →
        ¬EngineFails engine opts (engineAfter engine opts state earlier) frame.body :=
  run_trace_iff engine opts clearsAfterRequests_nil
    (clearsAfterRequests_serve engine opts) state stdin

/-- A request for one image on which the engine fails, and the end of the stream:
the engine was called and nothing is cleared. -/
theorem failed_request_not_cleared :
    let engine : Engine Unit :=
      { processSingle := fun state _ _ => (state, none), clearAllocators := id }
    let body : Bytes := [0x52, 0x44, 0x52, 0x42, 2, 0, 0, 0, 1, 0, 0, 0, 7, 0, 0, 0] ++
      buildPayload 0 [] 0 1 [[5]]
    ¬ClearsAfterRequests
      (runKeepAliveProtocolV2 engine {} () (Format.sized.encode body)).trace := by
  intro engine body clears
  let frame : Frame := { body, nonempty := by decide, fits := by decide }
  let request : RequestPayload :=
    { engine := .realCUGAN, qualityOrScale := [], gpuId := 0, batchCount := 1, images := [[5]] }
  have carries : Carries {} body request :=
    { length := by decide
      header := by decide
      payload := (parseRequestPayload_eq_ok_iff _ _ _).mpr ⟨by decide, by decide⟩ }
  have failsFirst : FailsFirstAt engine ({} : Options).outputFormat () request.images 0 :=
    { inRange := by decide
      earlier := fun before beforeLt => absurd beforeLt (Nat.not_lt_zero before)
      fails := rfl }
  have traceEq := run_trace_frames engine {} () [frame]
  rw [List.flatMap_singleton] at traceEq
  change ClearsAfterRequests (runKeepAliveProtocolV2 engine {} () frame.encode).trace at clears
  rw [traceEq, clearsAfterRequests_serve] at clears
  exact clears.1 ⟨request, 0, carries, failsFirst⟩

end NcnnUpscaler.KeepAlive
