import NcnnUpscaler.KeepAlive.Runs

/-!
# Streams in parts

Every byte stream is a list of complete frames and a residual, whatever the engine
makes of them.  On a longer stream the loop first does what it does on the shorter
one, and then what a loop started afresh on the unfinished rest would do, with the
engine as it was left.
-/

namespace NcnnUpscaler.KeepAlive

open Wire Protocol

/-! ## Every stream is frames and a residual -/

/-- The frame of a length word and a body of that length. -/
def Frame.ofLength (length : UInt32) (nonzero : length ≠ 0) (body : Bytes)
    (lengthEq : body.length = length.toNat) : Frame where
  body := body
  nonempty := by
    rw [lengthEq]
    apply Nat.pos_of_ne_zero
    intro zero
    exact nonzero (UInt32.toNat_inj.mp zero)
  fits := by
    rw [lengthEq]
    exact length.toNat_lt

theorem Frame.ofLength_encode {length : UInt32} (nonzero : length ≠ 0) {body : Bytes}
    (lengthEq : body.length = length.toNat) :
    (Frame.ofLength length nonzero body lengthEq).encode = Format.encodeU32 length ++ body := by
  simp only [Frame.encode, Frame.ofLength, Format.sized_encode, lengthEq, UInt32.ofNat_toNat]

/-- Bytes that are too few for a length word begin a frame. -/
theorem residual_of_short {tail : Bytes} (short : tail.length < 4) : Residual tail := by
  have begins (missing : Bytes) (b0 b1 b2 : UInt8) (cut : missing ≠ [])
      (word : tail ++ missing = [b0, b1, b2, 1]) : Residual tail := by
    let length := Format.decodeU32 b0 b1 b2 1
    have encodeEq : Format.encodeU32 length = tail ++ missing := by
      rw [word, Format.encodeU32_decodeU32]
    have nonzero : length ≠ 0 := by
      intro zero
      rw [zero, word] at encodeEq
      cases encodeEq
    refine .inr (.inl ⟨Frame.ofLength length nonzero (List.replicate length.toNat 0)
      List.length_replicate, missing ++ List.replicate length.toNat 0, ?_, ?_⟩)
    · exact List.append_ne_nil_of_left_ne_nil cut _
    · rw [Frame.ofLength_encode, encodeEq, List.append_assoc]
  match tail with
  | [] => exact .inl rfl
  | [b0] => exact begins [0, 0, 1] b0 0 0 (List.cons_ne_nil _ _) rfl
  | [b0, b1] => exact begins [0, 1] b0 b1 0 (List.cons_ne_nil _ _) rfl
  | [b0, b1, b2] => exact begins [1] b0 b1 b2 (List.cons_ne_nil _ _) rfl
  | _ :: _ :: _ :: _ :: rest =>
      simp only [List.length_cons] at short
      omega

theorem readU32_eq_none {stdin : Bytes} (readEq : readU32 stdin = none) :
    stdin.length < 4 := by
  simp only [readU32, readExact] at readEq
  split at readEq
  · next short =>
      split at short
      · cases short
      · next few => exact Nat.not_le.mp few
  · cases readEq

/-- A stream begins with a complete frame, or none completes. -/
theorem frame_or_residual (stdin : Bytes) :
    (∃ frame rest, stdin = Frame.encode frame ++ rest) ∨ Residual stdin := by
  cases readEq : readU32 stdin with
  | none => exact .inr (residual_of_short (readU32_eq_none readEq))
  | some found =>
      rcases found with ⟨length, rest⟩
      have stdinEq := readU32_eq_some readEq
      by_cases shutdown : length = 0
      · exact .inr (.inr (.inr ⟨rest, by rw [stdinEq, shutdown]⟩))
      · by_cases complete : length.toNat ≤ rest.length
        · have taken : (rest.take length.toNat).length = length.toNat :=
            List.length_take_of_le complete
          refine .inl ⟨Frame.ofLength length shutdown _ taken, rest.drop length.toNat, ?_⟩
          rw [Frame.ofLength_encode, List.append_assoc, List.take_append_drop]
          exact stdinEq
        · let missing : Bytes := List.replicate (length.toNat - rest.length) 0
          have whole : (rest ++ missing).length = length.toNat := by
            rw [List.length_append, List.length_replicate]
            omega
          refine .inr (.inr (.inl ⟨Frame.ofLength length shutdown _ whole, missing, ?_, ?_⟩))
          · apply List.ne_nil_of_length_pos
            rw [List.length_replicate]
            omega
          · rw [Frame.ofLength_encode, stdinEq, List.append_assoc]

/-- Every stream is a list of complete frames and what follows the last of them. -/
theorem exists_split (stdin : Bytes) :
    ∃ (frames : List Frame) (tail : Bytes),
      stdin = frames.flatMap Frame.encode ++ tail ∧ Residual tail := by
  induction lengthEq : stdin.length using Nat.strongRecOn generalizing stdin with
  | _ length ih =>
      rcases frame_or_residual stdin with ⟨frame, rest, stdinEq⟩ | residual
      · have shorter : rest.length < length := by
          rw [← lengthEq, stdinEq, List.length_append, Frame.encode, Format.sized_encode_length]
          omega
        rcases ih rest.length shorter rest rfl with ⟨frames, tail, restEq, residual⟩
        refine ⟨frame :: frames, tail, ?_, residual⟩
        rw [stdinEq, restEq, List.flatMap_cons, List.append_assoc]
      · exact ⟨[], stdin, rfl, residual⟩

/-! ## What a run comes to -/

variable {σ : Type} (engine : Engine σ) (opts : Options)

theorem foldl_serve_engine (session : Session σ) (frames : List Frame) :
    (frames.foldl (Session.serve engine opts) session).engine =
      engineAfter engine opts session.engine frames := by
  induction frames generalizing session with
  | nil => rfl
  | cons frame frames ih =>
      rw [List.foldl_cons, ih]
      rfl

/-- The trace and the engine of a run, from the frames of its stream. -/
theorem run_of_split (state : σ) (frames : List Frame) {tail : Bytes}
    (residual : Residual tail) :
    let last := runKeepAliveProtocolV2 engine opts state (frames.flatMap Frame.encode ++ tail)
    last.trace = servedEvents engine opts state frames ∧
      last.engine = engineAfter engine opts state frames := by
  rcases run_frames engine opts (Session.fresh state) frames residual with ⟨left, runEq⟩
  have traceEq := congrArg Session.trace runEq
  have engineEq := congrArg Session.engine runEq
  exact ⟨traceEq.trans (foldl_serve_events engine opts (Session.fresh state) frames),
    engineEq.trans (foldl_serve_engine engine opts (Session.fresh state) frames)⟩

theorem servedEvents_append (state : σ) (earlier later : List Frame) :
    servedEvents engine opts state (earlier ++ later) =
      servedEvents engine opts state earlier ++
        servedEvents engine opts (engineAfter engine opts state earlier) later := by
  induction earlier generalizing state with
  | nil => rfl
  | cons frame earlier ih =>
      rw [List.cons_append, servedEvents, ih, servedEvents, List.append_assoc]
      rfl

theorem engineAfter_append (state : σ) (earlier later : List Frame) :
    engineAfter engine opts state (earlier ++ later) =
      engineAfter engine opts (engineAfter engine opts state earlier) later :=
  List.foldl_append

/-- A stream in two parts: on the whole the loop does what it does on the first part,
and after that what a new loop does on the rest the first one left unfinished, with
the engine it left; a first part that holds the shutdown word settles the run. -/
theorem run_resumes (engine : Engine σ) (opts : Options) (state : σ)
    (earlier later : Bytes) :
    ∃ rest, rest <:+ earlier ∧ Residual rest ∧
      let first := runKeepAliveProtocolV2 engine opts state earlier
      let whole := runKeepAliveProtocolV2 engine opts state (earlier ++ later)
      let second := runKeepAliveProtocolV2 engine opts first.engine (rest ++ later)
      whole.trace = first.trace ++ second.trace ∧ whole.engine = second.engine ∧
        (Format.encodeU32 0 <+: rest →
          whole.trace = first.trace ∧ whole.engine = first.engine) := by
  rcases exists_split earlier with ⟨frames, rest, earlierEq, residual⟩
  rcases exists_split (rest ++ later) with ⟨others, tail, restEq, otherResidual⟩
  have wholeEq : earlier ++ later = (frames ++ others).flatMap Frame.encode ++ tail := by
    rw [earlierEq, List.append_assoc, restEq, List.flatMap_append, List.append_assoc]
  rcases run_of_split engine opts state frames residual with ⟨firstTrace, firstEngine⟩
  rcases run_of_split engine opts state (frames ++ others) otherResidual with
    ⟨wholeTrace, wholeEngine⟩
  rcases run_of_split engine opts (engineAfter engine opts state frames) others
    otherResidual with ⟨secondTrace, secondEngine⟩
  rw [← earlierEq] at firstTrace firstEngine
  rw [← wholeEq, servedEvents_append] at wholeTrace
  rw [← wholeEq, engineAfter_append] at wholeEngine
  rw [← restEq] at secondTrace secondEngine
  refine ⟨rest, ⟨_, earlierEq.symm⟩, residual, ?_⟩
  simp only
  refine ⟨?_, ?_, ?_⟩
  · rw [firstTrace, firstEngine, secondTrace, wholeTrace]
  · rw [firstEngine, secondEngine, wholeEngine]
  · intro shutdown
    rcases shutdown with ⟨after, afterEq⟩
    have stops : Residual (rest ++ later) :=
      .inr (.inr ⟨after ++ later, by rw [← afterEq, List.append_assoc]⟩)
    rcases run_of_split engine opts state frames stops with ⟨stoppedTrace, stoppedEngine⟩
    rw [← List.append_assoc, ← earlierEq] at stoppedTrace stoppedEngine
    exact ⟨stoppedTrace.trans firstTrace.symm, stoppedEngine.trans firstEngine.symm⟩

/-! ## The answer to a frame -/

theorem servedEvents_responses_length (state : σ) (frames : List Frame) :
    (responsesOf (servedEvents engine opts state frames)).length = frames.length := by
  induction frames generalizing state with
  | nil => rfl
  | cons frame frames ih =>
      rcases serveFrame_responses engine opts frame.body state with ⟨response, responsesEq⟩
      rw [servedEvents, responsesOf_append, responsesEq, List.singleton_append,
        List.length_cons, ih, List.length_cons]

/-- A frame of the stream has the response that serving it gives, in its place. -/
theorem response_of_frame (state : σ) {stdin : Bytes} {earlier : List Frame} {frame : Frame}
    (holds : HoldsFrame stdin earlier frame) {response : Response}
    (served : responsesOf (serveFrame engine opts frame.body
      (engineAfter engine opts state earlier)).events = [response]) :
    (responsesOf (runKeepAliveProtocolV2 engine opts state stdin).trace)[earlier.length]? =
      some response := by
  rcases run_of_holds engine opts state holds with ⟨later, left, runEq⟩
  have traceEq : (runKeepAliveProtocolV2 engine opts state stdin).trace =
      servedEvents engine opts state (earlier ++ frame :: later) :=
    (congrArg Session.trace runEq).trans
      (foldl_serve_events engine opts (Session.fresh state) (earlier ++ frame :: later))
  rw [traceEq, servedEvents_append, servedEvents, responsesOf_append, responsesOf_append, served]
  have placed := servedEvents_responses_length engine opts state earlier
  rw [← placed, List.getElem?_append_right (Nat.le_refl _), Nat.sub_self]
  rfl

end NcnnUpscaler.KeepAlive
