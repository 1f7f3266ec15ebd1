import NcnnUpscaler.KeepAlive.Answer

/-!
# Runs on any byte stream

Whatever the bytes are, the loop serves the complete frames they begin with, one
after the other, and nothing else.  What a run did is therefore the events of
these frames in order, and a property of the trace can be settled frame by frame.
-/

namespace NcnnUpscaler.KeepAlive

open Wire Protocol

variable {σ : Type}

/-! ## One iteration -/

theorem readU32_eq_some {stdin rest : Bytes} {value : UInt32}
    (readEq : readU32 stdin = some (value, rest)) :
    stdin = Format.encodeU32 value ++ rest := by
  simp only [readU32] at readEq
  split at readEq
  · cases readEq
  · next bytes left exactEq =>
      cases readEq
      rcases readExact_eq_some exactEq with ⟨lengthEq, stdinEq⟩
      match bytes with
      | [] | [_] | [_, _] | [_, _, _] => cases lengthEq
      | _ :: _ :: _ :: _ :: _ :: _ =>
          simp only [List.length_cons] at lengthEq
          omega
      | [b0, b1, b2, b3] =>
          have word : decodeU32Le [b0, b1, b2, b3] 0 = Format.decodeU32 b0 b1 b2 b3 := rfl
          rw [stdinEq, word, Format.encodeU32_decodeU32]

/-- An iteration serves a complete frame or ends the loop with nothing done. -/
theorem iterate_cases (engine : Engine σ) (opts : Options) (session : Session σ) :
    (∃ frame rest, session.stdin = Frame.encode frame ++ rest ∧
        iterate engine opts session =
          .next { session.serve engine opts frame with stdin := rest }) ∨
      ∃ left, iterate engine opts session = .leave { session with stdin := left } := by
  cases readEq : readU32 session.stdin with
  | none =>
      refine .inr ⟨[], ?_⟩
      simp only [iterate, readEq]
  | some found =>
      rcases found with ⟨messageLen, rest⟩
      by_cases shutdown : messageLen = 0
      · refine .inr ⟨rest, ?_⟩
        simp only [iterate, readEq, if_pos shutdown]
      · have positive : 0 < messageLen.toNat := by
          apply Nat.pos_of_ne_zero
          intro zero
          exact shutdown (UInt32.toNat_inj.mp zero)
        have stdinEq := readU32_eq_some readEq
        have stepEq := @iterate_length σ engine opts session messageLen.toNat rest positive
          messageLen.toNat_lt
        rw [UInt32.ofNat_toNat, ← stdinEq] at stepEq
        by_cases complete : messageLen.toNat ≤ rest.length
        · have bodyLength : (rest.take messageLen.toNat).length = messageLen.toNat :=
            List.length_take_of_le complete
          let frame : Frame :=
            { body := rest.take messageLen.toNat
              nonempty := by rw [bodyLength]; exact positive
              fits := by rw [bodyLength]; exact messageLen.toNat_lt }
          refine .inl ⟨frame, rest.drop messageLen.toNat, ?_, ?_⟩
          · simp only [frame, Frame.encode, Format.sized_encode]
            rw [bodyLength, UInt32.ofNat_toNat, List.append_assoc, List.take_append_drop]
            exact stdinEq
          · rw [if_pos complete] at stepEq
            exact stepEq
        · rw [if_neg complete] at stepEq
          exact .inr ⟨[], stepEq⟩

/-! ## The frames of a run -/

/-- What the loop does on frames, one after the other. -/
def servedEvents (engine : Engine σ) (opts : Options) : σ → List Frame → List Event
  | _, [] => []
  | state, frame :: frames =>
      (serveFrame engine opts frame.body state).events ++
        servedEvents engine opts (serveFrame engine opts frame.body state).engine frames

/-- The engine's state after the frames. -/
def engineAfter (engine : Engine σ) (opts : Options) (state : σ) (frames : List Frame) : σ :=
  frames.foldl (fun state frame => (serveFrame engine opts frame.body state).engine) state

/-- The stream holds the frame, behind the complete frames before it. -/
def HoldsFrame (stdin : Bytes) (earlier : List Frame) (frame : Frame) : Prop :=
  ∃ rest, stdin = earlier.flatMap Frame.encode ++ (frame.encode ++ rest)

variable (engine : Engine σ) (opts : Options)

theorem foldl_serve_events (session : Session σ) (frames : List Frame) :
    (frames.foldl (Session.serve engine opts) session).trace =
      session.trace ++ servedEvents engine opts session.engine frames := by
  induction frames generalizing session with
  | nil => exact (List.append_nil _).symm
  | cons frame frames ih =>
      rw [List.foldl_cons, ih]
      simp only [Session.serve, Session.after, servedEvents, List.append_assoc]

/-- Serving frames does not look at the input left. -/
theorem foldl_serve_stdin (session : Session σ) (frames : List Frame) (stdin left : Bytes) :
    { frames.foldl (Session.serve engine opts) { session with stdin } with stdin := left } =
      { frames.foldl (Session.serve engine opts) session with stdin := left } := by
  induction frames generalizing session with
  | nil => rfl
  | cons frame frames ih => exact ih (session.serve engine opts frame)

/-- The loop serves the complete frames the stream begins with. -/
theorem run_serves (session : Session σ) :
    ∃ (frames : List Frame) (rest left : Bytes),
      session.stdin = frames.flatMap Frame.encode ++ rest ∧
        run engine opts session =
          { frames.foldl (Session.serve engine opts) session with stdin := left } := by
  fun_induction run engine opts session with
  | case1 session last leaveEq =>
      rcases iterate_cases engine opts session with ⟨frame, rest, _, stepEq⟩ | ⟨left, stepEq⟩
      · rw [leaveEq] at stepEq
        cases stepEq
      · rw [leaveEq] at stepEq
        cases stepEq
        exact ⟨[], session.stdin, left, rfl, rfl⟩
  | case2 session next nextEq ih =>
      rcases iterate_cases engine opts session with ⟨frame, rest, stdinEq, stepEq⟩ | ⟨left, stepEq⟩
      · rw [nextEq] at stepEq
        cases stepEq
        rcases ih with ⟨frames, last, left, restEq, runEq⟩
        refine ⟨frame :: frames, last, left, ?_, ?_⟩
        · have restSplit : rest = frames.flatMap Frame.encode ++ last := restEq
          rw [stdinEq, restSplit, List.flatMap_cons, List.append_assoc]
        · exact runEq.trans (foldl_serve_stdin engine opts _ frames rest left)
      · rw [nextEq] at stepEq
        cases stepEq

/-- The session of a run before its first frame. -/
def Session.fresh (state : σ) : Session σ := { stdin := [], engine := state }

/-- A run serves frames that the stream holds. -/
theorem run_served (state : σ) (stdin : Bytes) :
    ∃ (frames : List Frame) (left : Bytes),
      runKeepAliveProtocolV2 engine opts state stdin =
        { frames.foldl (Session.serve engine opts) (Session.fresh state) with stdin := left } ∧
      ∀ earlier frame later, frames = earlier ++ frame :: later →
        HoldsFrame stdin earlier frame := by
  rcases run_serves engine opts { Session.fresh state with stdin } with
    ⟨frames, rest, left, stdinEq, runEq⟩
  refine ⟨frames, left, runEq.trans (foldl_serve_stdin engine opts _ frames stdin left), ?_⟩
  intro earlier frame later split
  refine ⟨later.flatMap Frame.encode ++ rest, ?_⟩
  have streamEq : stdin = frames.flatMap Frame.encode ++ rest := stdinEq
  rw [streamEq, split]
  simp only [List.flatMap_append, List.flatMap_cons, List.append_assoc]

/-- A run serves every frame the stream holds. -/
theorem run_of_holds (state : σ) {stdin : Bytes} {earlier : List Frame} {frame : Frame}
    (holds : HoldsFrame stdin earlier frame) :
    ∃ (later : List Frame) (left : Bytes),
      runKeepAliveProtocolV2 engine opts state stdin =
        { (earlier ++ frame :: later).foldl (Session.serve engine opts)
            (Session.fresh state) with stdin := left } := by
  rcases holds with ⟨rest, stdinEq⟩
  let reached := (earlier ++ [frame]).foldl (Session.serve engine opts) (Session.fresh state)
  have split : stdin = (earlier ++ [frame]).flatMap Frame.encode ++ rest := by
    rw [stdinEq]
    simp only [List.flatMap_append, List.flatMap_cons, List.flatMap_nil, List.append_nil,
      List.append_assoc]
  have runEq := run_after engine opts (Session.fresh state) (earlier ++ [frame]) rest
  rw [← split] at runEq
  rcases run_serves engine opts { reached with stdin := rest } with
    ⟨later, _, left, _, servesEq⟩
  refine ⟨later, left, ?_⟩
  have framesEq : earlier ++ frame :: later = earlier ++ [frame] ++ later := by
    rw [List.append_assoc, List.singleton_append]
  rw [framesEq, List.foldl_append]
  exact runEq.trans (servesEq.trans (foldl_serve_stdin engine opts reached later rest left))

/-- A stream of complete frames: what the run did is what they ask for. -/
theorem run_trace_frames (state : σ) (frames : List Frame) :
    (runKeepAliveProtocolV2 engine opts state (frames.flatMap Frame.encode)).trace =
      servedEvents engine opts state frames := by
  rcases run_frames engine opts (Session.fresh state) frames (.inl rfl : Residual []) with
    ⟨left, runEq⟩
  rw [List.append_nil] at runEq
  have traceEq := congrArg Session.trace runEq
  exact traceEq.trans (foldl_serve_events engine opts (Session.fresh state) frames)

/-! ## Properties of a trace -/

/-- A property of the events of frames, which the events of the first of them
settle apart from the others. -/
theorem servedEvents_iff {Property : List Event → Prop} {Serves : σ → Frame → Prop}
    (nil : Property [])
    (cons : ∀ state frame frames,
      Property (servedEvents engine opts state (frame :: frames)) ↔
        Serves state frame ∧
          Property (servedEvents engine opts (serveFrame engine opts frame.body state).engine
            frames))
    (state : σ) (frames : List Frame) :
    Property (servedEvents engine opts state frames) ↔
      ∀ earlier frame later, frames = earlier ++ frame :: later →
        Serves (engineAfter engine opts state earlier) frame := by
  induction frames generalizing state with
  | nil =>
      refine iff_of_true nil ?_
      intro earlier frame later split
      cases earlier with
      | nil => cases split
      | cons head earlier => cases split
  | cons first frames ih =>
      rw [cons, ih]
      constructor
      · intro given earlier frame later split
        cases earlier with
        | nil =>
            cases split
            exact given.1
        | cons head earlier =>
            cases split
            exact given.2 earlier frame later rfl
      · intro given
        refine ⟨given [] first frames rfl, ?_⟩
        intro earlier frame later split
        exact given (first :: earlier) frame later (by rw [split, List.cons_append])

/-- Such a property holds of a run exactly when every frame that the stream holds
is served as it asks, in the state the engine is in when the loop reaches it. -/
theorem run_trace_iff {Property : List Event → Prop} {Serves : σ → Frame → Prop}
    (nil : Property [])
    (cons : ∀ state frame frames,
      Property (servedEvents engine opts state (frame :: frames)) ↔
        Serves state frame ∧
          Property (servedEvents engine opts (serveFrame engine opts frame.body state).engine
            frames))
    (state : σ) (stdin : Bytes) :
    Property (runKeepAliveProtocolV2 engine opts state stdin).trace ↔
      ∀ earlier frame, HoldsFrame stdin earlier frame →
        Serves (engineAfter engine opts state earlier) frame := by
  have served (frames : List Frame) :
      (frames.foldl (Session.serve engine opts) (Session.fresh state)).trace =
        servedEvents engine opts state frames :=
    foldl_serve_events engine opts (Session.fresh state) frames
  constructor
  · intro given earlier frame holds
    rcases run_of_holds engine opts state holds with ⟨later, left, runEq⟩
    rw [runEq] at given
    change Property ((earlier ++ frame :: later).foldl (Session.serve engine opts)
      (Session.fresh state)).trace at given
    rw [served, servedEvents_iff engine opts nil cons] at given
    exact given earlier frame later rfl
  · intro given
    rcases run_served engine opts state stdin with ⟨frames, left, runEq, held⟩
    rw [runEq]
    change Property (frames.foldl (Session.serve engine opts) (Session.fresh state)).trace
    rw [served, servedEvents_iff engine opts nil cons]
    intro earlier frame later split
    exact given earlier frame (held earlier frame later split)

end NcnnUpscaler.KeepAlive
