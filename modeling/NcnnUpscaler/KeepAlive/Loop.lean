import NcnnUpscaler.Protocol.Response

/-!
# The keep-alive loop

`run_keep_alive_protocol_v2` over a finite standard input.  The engine is a
state transformer; what the loop does is recorded as a trace of events, in the
order of the calls in the source: responses written to stdout, outcomes
recorded, and calls made to the engine.  Log lines go to stderr and are left
out, and so is the clock.
-/

namespace NcnnUpscaler.KeepAlive

open Wire Protocol

/-- `BaseEngine` as the loop uses it.  `processSingle` returns the output when
the call returns true. -/
structure Engine (σ : Type) where
  processSingle : σ → (image : Bytes) → (outputFormat : String) → σ × Option Bytes
  clearAllocators : σ → σ

/-- The arguments of one `record_outcome` call. -/
structure Outcome where
  requestId : UInt32
  status : ProtocolStatus
  errorMessage : Bytes
  resultCount : Nat
  bytesIn : Nat
  bytesOut : Nat
  requestInfo : Option RequestPayload
  deriving DecidableEq, Repr

/-- One observable action of the loop. -/
inductive Event where
  | respond (response : Response)
  | record (outcome : Outcome)
  | processSingle (image : Bytes) (output : Option Bytes)
  | clearAllocators
  deriving DecidableEq, Repr

/-- `ProtocolMetrics`, without the accumulated time. -/
structure ProtocolMetrics where
  processed : UInt32 := 0
  errors : UInt32 := 0
  deriving DecidableEq, Repr

/-- The counters after one event. -/
def ProtocolMetrics.update (metrics : ProtocolMetrics) : Event → ProtocolMetrics
  | .record outcome =>
      if outcome.status = .ok then { metrics with processed := metrics.processed + 1 }
      else { metrics with errors := metrics.errors + 1 }
  | _ => metrics

/-- The state of the loop between two frames. -/
structure Session (σ : Type) where
  stdin : Bytes
  engine : σ
  trace : List Event := []
  metrics : ProtocolMetrics := {}
  handled : UInt32 := 0

/-- What handling one frame does: the events, the engine afterwards, and by how
much `handled` grows. -/
structure FrameResult (σ : Type) where
  events : List Event
  engine : σ
  handled : UInt32 := 0

/-- Continue the session with the result of a frame. -/
def Session.after {σ : Type} (session : Session σ) (result : FrameResult σ) : Session σ :=
  { session with
    engine := result.engine
    trace := session.trace ++ result.events
    metrics := result.events.foldl ProtocolMetrics.update session.metrics
    handled := session.handled + result.handled }

def kMaxMessageBytes : Nat := 64 * 1024 * 1024

/-! ## Reading stdin -/

/-- `read_exact`: the bytes read and the input left, or `none` when the input
ends first. -/
def readExact (stdin : Bytes) (size : Nat) : Option (Bytes × Bytes) :=
  if size ≤ stdin.length then some (stdin.take size, stdin.drop size) else none

/-- `read_u32`. -/
def readU32 (stdin : Bytes) : Option (UInt32 × Bytes) :=
  match readExact stdin 4 with
  | none => none
  | some (bytes, rest) => some (decodeU32Le bytes 0, rest)

/-- `discard_bytes`, in chunks of `kChunk` bytes: the input left, or `none` when
the input ends first. -/
def discardBytes (stdin : Bytes) (bytesToDiscard : Nat) : Option Bytes :=
  let kChunk := 4096
  if bytesToDiscard > 0 then
    let chunk := min bytesToDiscard kChunk
    match readExact stdin chunk with
    | none => none
    | some (_, rest) => discardBytes rest (bytesToDiscard - chunk)
  else
    some stdin
termination_by bytesToDiscard
decreasing_by omega

/-! ## Handling a frame -/

variable {σ : Type}

/-- An exit that answers with an error and records it.  `recordedId` is the id
passed to `record_outcome`, which one exit spells differently from the id it
answers with. -/
def rejectFrame (requestId recordedId : UInt32) (status : ProtocolStatus)
    (message : Bytes) (messageLen : Nat) (state : σ) : FrameResult σ :=
  { events :=
      [.respond (errorResponse requestId status message),
        .record
          { requestId := recordedId, status, errorMessage := message, resultCount := 0
            bytesIn := messageLen, bytesOut := 0, requestInfo := none }]
    engine := state }

/-- What the batch loop did: the engine calls in order, the engine afterwards,
and the outputs, or the index at which the engine failed. -/
structure BatchRun (σ : Type) where
  calls : List Event
  engine : σ
  result : Except Nat (List Bytes)

/-- The batch loop from entry `index` on, with `left` entries to go. -/
def batchLoop (engine : Engine σ) (outputFormat : String) (images : List Bytes) :
    (left index : Nat) → (outputs : List Bytes) → σ → BatchRun σ
  | 0, _, outputs, state => { calls := [], engine := state, result := .ok outputs }
  | left + 1, index, outputs, state =>
      let image := images.getD index []
      match engine.processSingle state image outputFormat with
      | (state, none) =>
          { calls := [.processSingle image none], engine := state, result := .error index }
      | (state, some output) =>
          let rest := batchLoop engine outputFormat images left (index + 1)
            (outputs ++ [output]) state
          { rest with calls := .processSingle image (some output) :: rest.calls }

/-- The loop body from the parsed request on. -/
def handleRequest (engine : Engine σ) (opts : Options) (requestId : UInt32)
    (request : RequestPayload) (messageLen : Nat) (state : σ) : FrameResult σ :=
  let batch := batchLoop engine opts.outputFormat request.images request.batchCount.toNat 0
    [] state
  match batch.result with
  | .error index =>
      let errorMsg := text ("engine processing failed at index " ++ toString index)
      { events := batch.calls ++
          [.respond (errorResponse requestId .engineError errorMsg),
            .record
              { requestId, status := .engineError, errorMessage := errorMsg
                resultCount := index, bytesIn := messageLen, bytesOut := 0
                requestInfo := some request }]
        engine := batch.engine }
  | .ok outputs =>
      { events := batch.calls ++
          [.respond { requestId, status := .ok, error := [], outputs },
            .clearAllocators,
            .record
              { requestId, status := .ok, errorMessage := [], resultCount := outputs.length
                bytesIn := messageLen, bytesOut := (outputs.map List.length).sum
                requestInfo := some request }]
        engine := engine.clearAllocators batch.engine
        handled := 1 }

/-- `opts.max_batch_items`, converted from `int` to the `size_t` of the parser. -/
def batchLimit (opts : Options) : Nat := (opts.maxBatchItems % 2 ^ 64).toNat

/-- The conversion changes nothing on options that were accepted. -/
theorem batchLimit_eq {opts : Options} (accepted : opts.Accepted)
    (isInt : opts.maxBatchItems < 2 ^ 31) : (batchLimit opts : Int) = opts.maxBatchItems := by
  rcases opts.accepted_iff.mp accepted with ⟨_, _, positive⟩
  simp only [batchLimit]
  omega

/-- The loop body once the payload of a frame has been read. -/
def handlePayload (engine : Engine σ) (opts : Options) (payload : Bytes) (state : σ) :
    FrameResult σ :=
  let messageLen := payload.length
  -- The source leaves the header uninitialised; the parser sets every field of it.
  match parseProtocolHeader payload { magic := 0, version := 0, msgType := 0, requestId := 0 }
    with
  | (header, some headerError) =>
      rejectFrame header.requestId 0 .validationError (text headerError) messageLen state
  | (header, none) =>
      if header.msgType ≠ requestMessageType then
        rejectFrame header.requestId header.requestId .validationError
          (text "only request frames accepted") messageLen state
      else
        let body := payload.drop kProtocolHeaderSize
        if body.length = 0 then
          rejectFrame header.requestId header.requestId .validationError
            (text "request body empty") messageLen state
        else
          match parseRequestPayload body (batchLimit opts) with
          | .error failure =>
              rejectFrame header.requestId header.requestId failure.status
                (text failure.error) messageLen state
          | .ok request =>
              handleRequest engine opts header.requestId request messageLen state

/-! ## The loop -/

/-- How an iteration ends. -/
inductive Iteration (σ : Type) where
  | next (session : Session σ)
  | leave (session : Session σ)

/-- One iteration of the `while (true)` loop. -/
def iterate (engine : Engine σ) (opts : Options) (session : Session σ) : Iteration σ :=
  match readU32 session.stdin with
  | none => .leave { session with stdin := [] }
  | some (messageLen, stdin) =>
      let session := { session with stdin }
      if messageLen = 0 then
        .leave session
      else if messageLen.toNat < kProtocolHeaderSize then
        match discardBytes stdin messageLen.toNat with
        | none => .leave { session with stdin := [] }
        | some stdin =>
            .next ({ session with stdin }.after
              (rejectFrame 0 0 .invalidFrame (text "frame too short for header")
                messageLen.toNat session.engine))
      else if messageLen.toNat > kMaxMessageBytes then
        match discardBytes stdin messageLen.toNat with
        | none => .leave { session with stdin := [] }
        | some stdin =>
            .next ({ session with stdin }.after
              (rejectFrame 0 0 .invalidFrame (text "frame exceeds max size")
                messageLen.toNat session.engine))
      else
        match readExact stdin messageLen.toNat with
        | none => .leave { session with stdin := [] }
        | some (payload, stdin) =>
            .next ({ session with stdin }.after
              (handlePayload engine opts payload session.engine))

theorem readExact_eq_some {stdin bytes rest : Bytes} {size : Nat}
    (readEq : readExact stdin size = some (bytes, rest)) :
    bytes.length = size ∧ stdin = bytes ++ rest := by
  simp only [readExact] at readEq
  split at readEq
  · next enough =>
      cases readEq
      exact ⟨List.length_take_of_le enough, (List.take_append_drop size stdin).symm⟩
  · cases readEq

theorem readExact_append (bytes rest : Bytes) :
    readExact (bytes ++ rest) bytes.length = some (bytes, rest) := by
  simp [readExact]

theorem readExact_eq_none {stdin : Bytes} {size : Nat} (short : stdin.length < size) :
    readExact stdin size = none := by
  simp [readExact, short]

theorem readU32_length {stdin rest : Bytes} {value : UInt32}
    (readEq : readU32 stdin = some (value, rest)) : rest.length + 4 = stdin.length := by
  simp only [readU32] at readEq
  split at readEq
  · cases readEq
  · next bytes left exactEq =>
      cases readEq
      rcases readExact_eq_some exactEq with ⟨lengthEq, stdinEq⟩
      rw [stdinEq, List.length_append, lengthEq, Nat.add_comm]

/-- Discarding drops exactly that many bytes, however it is cut into chunks. -/
theorem discardBytes_eq (stdin : Bytes) (count : Nat) :
    discardBytes stdin count =
      if count ≤ stdin.length then some (stdin.drop count) else none := by
  induction count using Nat.strongRecOn generalizing stdin with
  | _ count ih =>
      rw [discardBytes]
      by_cases positive : count > 0
      · simp only [if_pos positive]
        by_cases enough : min count 4096 ≤ stdin.length
        · simp only [readExact, if_pos enough]
          rw [ih (count - min count 4096) (by omega)]
          simp only [List.length_drop, List.drop_drop]
          have total : min count 4096 + (count - min count 4096) = count := by omega
          rw [total]
          by_cases fits : count ≤ stdin.length
          · rw [if_pos fits, if_pos (by omega)]
          · rw [if_neg fits, if_neg (by omega)]
        · simp only [readExact, if_neg enough]
          rw [if_neg (by omega)]
      · have zero : count = 0 := by omega
        subst zero
        simp

theorem discardBytes_length {stdin left : Bytes} {count : Nat}
    (discardEq : discardBytes stdin count = some left) : left.length ≤ stdin.length := by
  rw [discardBytes_eq] at discardEq
  split at discardEq
  · cases discardEq
    rw [List.length_drop]
    exact Nat.sub_le _ _
  · cases discardEq

theorem readExact_length {stdin bytes rest : Bytes} {size : Nat}
    (readEq : readExact stdin size = some (bytes, rest)) : rest.length ≤ stdin.length := by
  rw [(readExact_eq_some readEq).2, List.length_append]
  exact Nat.le_add_left _ _

/-- An iteration that goes on has consumed input. -/
theorem iterate_next_lt {engine : Engine σ} {opts : Options} {session next : Session σ}
    (stepEq : iterate engine opts session = .next next) :
    next.stdin.length < session.stdin.length := by
  simp only [iterate] at stepEq
  split at stepEq
  · cases stepEq
  · next messageLen stdin lenEq =>
      have consumed := readU32_length lenEq
      split at stepEq
      · cases stepEq
      · split at stepEq
        · split at stepEq
          · cases stepEq
          · next left discardEq =>
              cases stepEq
              have leftLe := discardBytes_length discardEq
              simp only [Session.after]
              omega
        · split at stepEq
          · split at stepEq
            · cases stepEq
            · next left discardEq =>
                cases stepEq
                have leftLe := discardBytes_length discardEq
                simp only [Session.after]
                omega
          · split at stepEq
            · cases stepEq
            · next payload left exactEq =>
                cases stepEq
                have leftLe := readExact_length exactEq
                simp only [Session.after]
                omega

/-- The loop from a session on: every iteration that goes on consumes input. -/
def run (engine : Engine σ) (opts : Options) (session : Session σ) : Session σ :=
  match _ : iterate engine opts session with
  | .leave last => last
  | .next next => run engine opts next
termination_by session.stdin.length
decreasing_by exact iterate_next_lt (by assumption)

/-- `run_keep_alive_protocol_v2` on a byte stream. -/
def runKeepAliveProtocolV2 (engine : Engine σ) (opts : Options) (state : σ)
    (stdin : Bytes) : Session σ :=
  run engine opts { stdin, engine := state }

/-- The bytes an event writes to stdout. -/
def Event.stdoutBytes : Event → Bytes
  | .respond response => writeProtocolResponse response
  | _ => []

/-- What a trace wrote to stdout. -/
def stdoutOf (events : List Event) : Bytes := events.flatMap Event.stdoutBytes

/-- The responses of a trace, in order. -/
def responsesOf (events : List Event) : List Response :=
  events.filterMap fun
    | .respond response => some response
    | _ => none

/-- The images a trace handed to the engine, in order. -/
def imagesOf (events : List Event) : List Bytes :=
  events.filterMap fun
    | .processSingle image _ => some image
    | _ => none

end NcnnUpscaler.KeepAlive
