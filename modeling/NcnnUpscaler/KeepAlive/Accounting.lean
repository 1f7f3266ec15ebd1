import NcnnUpscaler.KeepAlive.Runs

/-!
# Accounting

The loop writes a response and records an outcome in two separate calls at each
of its exits.  The two agree on status and text everywhere, so the counters are
right on every run; they agree on the request id except where a header is
refused, which is recorded under the id 0.
-/

namespace NcnnUpscaler.KeepAlive

open Wire Protocol

variable {σ : Type}

/-- The outcomes a trace recorded, in order. -/
def outcomesOf (events : List Event) : List Outcome :=
  events.filterMap fun
    | .record outcome => some outcome
    | _ => none

@[simp] theorem outcomesOf_append (earlier later : List Event) :
    outcomesOf (earlier ++ later) = outcomesOf earlier ++ outcomesOf later :=
  List.filterMap_append

/-- The id, the status and the text of a recorded outcome. -/
def Outcome.entry (outcome : Outcome) : UInt32 × ProtocolStatus × Bytes :=
  (outcome.requestId, outcome.status, outcome.errorMessage)

/-- The id, the status and the text of a response. -/
def responseEntry (response : Response) : UInt32 × ProtocolStatus × Bytes :=
  (response.requestId, response.status, response.error)

/-- Each response is recorded once, in order, with its id, status and text. -/
def RecordsResponses (events : List Event) : Prop :=
  (outcomesOf events).map Outcome.entry = (responsesOf events).map responseEntry

/-- The counters of the session count the responses written so far. -/
structure CountsResponses (session : Session σ) : Prop where
  processed : session.metrics.processed =
    UInt32.ofNat ((responsesOf session.trace).countP fun response => response.status = .ok)
  errors : session.metrics.errors =
    UInt32.ofNat ((responsesOf session.trace).countP fun response => response.status ≠ .ok)
  handled : session.handled = session.metrics.processed

/-- A body of an allowed length whose header is refused although it bears a
request id. -/
def RefusedWithId (body : Bytes) : Prop :=
  LengthOk body ∧ ¬HeaderOk body ∧ decodeU32Le body 12 ≠ 0

instance (body : Bytes) : Decidable (RefusedWithId body) :=
  inferInstanceAs (Decidable (_ ∧ _ ∧ _))

/-! ## One frame -/

theorem outcomesOf_calls {events : List Event} (allCalls : ∀ event ∈ events, event.isCall) :
    outcomesOf events = [] :=
  filterMap_calls (fun _ _ => rfl) allCalls

/-- How a frame is accounted for: one response and one outcome, which differ at
most in the id. -/
structure Accounts (body : Bytes) (result : FrameResult σ) (response : Response)
    (outcome : Outcome) : Prop where
  responses : responsesOf result.events = [response]
  outcomes : outcomesOf result.events = [outcome]
  status : outcome.status = response.status
  error : outcome.errorMessage = response.error
  requestId : outcome.requestId = response.requestId ↔ ¬RefusedWithId body
  handled : result.handled = if response.status = .ok then 1 else 0

/-- Calls to the engine before the answer do not matter. -/
theorem Accounts.of_calls {body : Bytes} {calls answer : List Event} {state : σ}
    {handled : UInt32} {response : Response} {outcome : Outcome}
    (allCalls : ∀ event ∈ calls, event.isCall)
    (accounts : Accounts body { events := answer, engine := state, handled } response outcome) :
    Accounts body { events := calls ++ answer, engine := state, handled } response outcome where
  responses := by
    rw [responsesOf_append, responsesOf_calls allCalls]
    exact accounts.responses
  outcomes := by
    rw [outcomesOf_append, outcomesOf_calls allCalls]
    exact accounts.outcomes
  status := accounts.status
  error := accounts.error
  requestId := accounts.requestId
  handled := accounts.handled

variable (engine : Engine σ) (opts : Options)

theorem handleRequest_accounts {body : Bytes} (headerOk : HeaderOk body) (requestId : UInt32)
    (request : RequestPayload) (messageLen : Nat) (state : σ) :
    ∃ response outcome,
      Accounts body (handleRequest engine opts requestId request messageLen state) response
        outcome := by
  have accepted : ¬RefusedWithId body := fun refused => refused.2.1 headerOk
  have allCalls := batchLoop_isCall engine opts.outputFormat request.images
    request.batchCount.toNat 0 [] state
  simp only [handleRequest]
  split
  · exact ⟨_, _, .of_calls allCalls ⟨rfl, rfl, rfl, rfl, iff_of_true rfl accepted, rfl⟩⟩
  · exact ⟨_, _, .of_calls allCalls ⟨rfl, rfl, rfl, rfl, iff_of_true rfl accepted, rfl⟩⟩

theorem serveFrame_accounts (body : Bytes) (state : σ) :
    ∃ response outcome,
      Accounts body (serveFrame engine opts body state) response outcome := by
  rcases serveFrame_cases engine opts body state with
    ⟨request, carries, serveEq⟩ | ⟨_, requestId, recordedId, status, message, serveEq, refused⟩
  · rw [serveEq]
    exact handleRequest_accounts engine opts carries.header _ request _ state
  · rw [serveEq]
    refine ⟨_, _, rfl, rfl, rfl, rfl, ?_, (if_neg refused.failed).symm⟩
    change recordedId = requestId ↔ ¬RefusedWithId body
    rw [refused.recorded]
    by_cases bad : LengthOk body ∧ ¬HeaderOk body
    · rw [if_pos bad, refused.answered bad.1]
      constructor
      · intro zero refusedWithId
        exact refusedWithId.2.2 zero.symm
      · intro noId
        by_contra nonzero
        exact noId ⟨bad.1, bad.2, fun zero => nonzero zero.symm⟩
    · rw [if_neg bad]
      exact iff_of_true rfl (fun refusedWithId => bad ⟨refusedWithId.1, refusedWithId.2.1⟩)

/-- The outcome of a frame is recorded as the response was written, unless its
header was refused although it bears an id. -/
theorem Accounts.records_iff {body : Bytes} {result : FrameResult σ} {response : Response}
    {outcome : Outcome} (accounts : Accounts body result response outcome) :
    RecordsResponses result.events ↔ ¬RefusedWithId body := by
  rw [← accounts.requestId, RecordsResponses, accounts.outcomes, accounts.responses]
  simp [Outcome.entry, responseEntry, accounts.status, accounts.error]

/-! ## Runs -/

/-- What precedes a trace, recorded response by response, does not matter for the
rest of it. -/
theorem recordsResponses_append {earlier later : List Event}
    (lengths : (outcomesOf earlier).length = (responsesOf earlier).length) :
    RecordsResponses (earlier ++ later) ↔
      RecordsResponses earlier ∧ RecordsResponses later := by
  simp only [RecordsResponses, outcomesOf_append, responsesOf_append, List.map_append]
  constructor
  · intro same
    exact List.append_inj same (by rw [List.length_map, List.length_map, lengths])
  · intro same
    rw [same.1, same.2]

theorem run_records_iff (state : σ) (stdin : Bytes) :
    RecordsResponses (runKeepAliveProtocolV2 engine opts state stdin).trace ↔
      ∀ earlier frame, HoldsFrame stdin earlier frame → ¬RefusedWithId frame.body := by
  have empty : RecordsResponses [] := rfl
  have step (state : σ) (frame : Frame) (frames : List Frame) :
      RecordsResponses (servedEvents engine opts state (frame :: frames)) ↔
        ¬RefusedWithId frame.body ∧
          RecordsResponses (servedEvents engine opts
            (serveFrame engine opts frame.body state).engine frames) := by
    rcases serveFrame_accounts engine opts frame.body state with ⟨response, outcome, accounts⟩
    have lengths : (outcomesOf (serveFrame engine opts frame.body state).events).length =
        (responsesOf (serveFrame engine opts frame.body state).events).length := by
      rw [accounts.outcomes, accounts.responses]
      rfl
    rw [servedEvents, recordsResponses_append lengths, accounts.records_iff]
  exact run_trace_iff engine opts empty step state stdin

/-- Only recorded outcomes move the counters. -/
theorem foldl_update (events : List Event) (metrics : ProtocolMetrics) :
    events.foldl ProtocolMetrics.update metrics =
      (outcomesOf events).foldl (fun metrics outcome => metrics.update (.record outcome))
        metrics := by
  induction events generalizing metrics with
  | nil => rfl
  | cons event events ih =>
      cases event with
      | respond response => exact ih metrics
      | record outcome => exact ih (metrics.update (.record outcome))
      | processSingle image output => exact ih metrics
      | clearAllocators => exact ih metrics

theorem CountsResponses.serve {session : Session σ} (counts : CountsResponses session)
    (frame : Frame) : CountsResponses (session.serve engine opts frame) := by
  rcases serveFrame_accounts engine opts frame.body session.engine with
    ⟨response, outcome, accounts⟩
  have metricsEq : (session.serve engine opts frame).metrics =
      session.metrics.update (.record outcome) := by
    simp only [Session.serve, Session.after, foldl_update, accounts.outcomes]
    rfl
  have traceEq : responsesOf (session.serve engine opts frame).trace =
      responsesOf session.trace ++ [response] := by
    simp only [Session.serve, Session.after, responsesOf_append, accounts.responses]
  have handledEq : (session.serve engine opts frame).handled =
      session.handled + if response.status = .ok then 1 else 0 := by
    simp only [Session.serve, Session.after, accounts.handled]
  by_cases ok : response.status = .ok
  · have updateEq : session.metrics.update (.record outcome) =
        { session.metrics with processed := session.metrics.processed + 1 } := by
      simp only [ProtocolMetrics.update, accounts.status, if_pos ok]
    constructor
    · rw [metricsEq, traceEq, updateEq, List.countP_append]
      simp [ok, counts.processed, UInt32.ofNat_add]
    · rw [metricsEq, traceEq, updateEq, List.countP_append]
      simp [ok, counts.errors]
    · rw [handledEq, metricsEq, updateEq, if_pos ok, counts.handled]
  · have updateEq : session.metrics.update (.record outcome) =
        { session.metrics with errors := session.metrics.errors + 1 } := by
      simp only [ProtocolMetrics.update, accounts.status, if_neg ok]
    constructor
    · rw [metricsEq, traceEq, updateEq, List.countP_append]
      simp [ok, counts.processed]
    · rw [metricsEq, traceEq, updateEq, List.countP_append]
      simp [ok, counts.errors, UInt32.ofNat_add]
    · rw [handledEq, metricsEq, updateEq, if_neg ok, counts.handled, UInt32.add_zero]

theorem foldl_serve_counts (session : Session σ) (counts : CountsResponses session)
    (frames : List Frame) :
    CountsResponses (frames.foldl (Session.serve engine opts) session) := by
  induction frames generalizing session with
  | nil => exact counts
  | cons frame frames ih => exact ih _ (counts.serve engine opts frame)

/-- The counters count the responses of every run. -/
theorem run_counts (state : σ) (stdin : Bytes) :
    CountsResponses (runKeepAliveProtocolV2 engine opts state stdin) := by
  rcases run_served engine opts state stdin with ⟨frames, left, runEq, _⟩
  have fresh : CountsResponses (Session.fresh state) := ⟨rfl, rfl, rfl⟩
  have counts := foldl_serve_counts engine opts _ fresh frames
  rw [runEq]
  exact ⟨counts.processed, counts.errors, counts.handled⟩

/-- Every response of a run is recorded once, in order and with its id, status and
text, exactly when the stream holds no frame of an allowed length whose header is
refused although it bears a request id.  The counters are right on every run: the
processed ones are the `ok` responses, the errors the others, and as many frames
are handled as processed. -/
theorem responses_accounted_iff (engine : Engine σ) (opts : Options) (state : σ)
    (stdin : Bytes) :
    let last := runKeepAliveProtocolV2 engine opts state stdin
    (RecordsResponses last.trace ∧ CountsResponses last ↔
      ∀ earlier frame, HoldsFrame stdin earlier frame → ¬RefusedWithId frame.body) ∧
    CountsResponses last := by
  have counts := run_counts engine opts state stdin
  exact ⟨(and_iff_left counts).trans (run_records_iff engine opts state stdin), counts⟩

/-- A frame with the id 7 and no magic is answered with the id 7 and recorded with
the id 0. -/
theorem refused_header_misrecorded :
    let engine : Engine Unit :=
      { processSingle := fun state image _ => (state, some image), clearAllocators := id }
    let last := runKeepAliveProtocolV2 engine {} ()
      ([16, 0, 0, 0] ++ [0, 0, 0, 0, 2, 0, 0, 0, 1, 0, 0, 0, 7, 0, 0, 0])
    ¬(RecordsResponses last.trace ∧ CountsResponses last) := by
  intro engine last given
  let frame : Frame :=
    { body := [0, 0, 0, 0, 2, 0, 0, 0, 1, 0, 0, 0, 7, 0, 0, 0]
      nonempty := by decide
      fits := by decide }
  exact (run_records_iff engine {} () _).mp given.1 [] frame ⟨[], by decide⟩ (by decide)

end NcnnUpscaler.KeepAlive
