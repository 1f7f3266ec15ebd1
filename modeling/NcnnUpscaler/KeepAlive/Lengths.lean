import Mathlib.Algebra.Order.Ring.Int
import NcnnUpscaler.KeepAlive.Runs

/-!
# Response lengths

The lengths of a response are written as 32-bit words.  Nothing bounds what the
engine returns, so the words are the true lengths only as long as the outputs of
a batch fit; the error texts always do.
-/

namespace NcnnUpscaler.KeepAlive

open Wire Protocol

variable {σ : Type}

/-- The payload length that is written is the number of bytes that follow it, and the
word written before each output is its length. -/
structure LengthsExact (response : Response) : Prop where
  payload : ∃ payload,
    writeProtocolResponse response = writeU32 response.payloadBytes ++ payload ∧
      response.payloadBytes.toNat = payload.length
  outputs : ∀ earlier output later, response.outputs = earlier ++ output :: later →
    (decodeU32Le (writeProtocolResponse response) (lengthOffset response earlier)).toNat =
      output.length

/-- Every response of the trace is written with its true lengths. -/
def WritesExactLengths (trace : List Event) : Prop :=
  ∀ response ∈ responsesOf trace, LengthsExact response

/-- When the body carries a request and the engine, started in the given state,
returns an output for each of its images, a response with these outputs fits the
length word. -/
def OutputsFit (engine : Engine σ) (opts : Options) (state : σ) (body : Bytes) : Prop :=
  ∀ request outputs, Carries opts body request →
    Returns engine opts.outputFormat state request.images outputs →
    16 + (outputs.map fun output => 4 + output.length).sum < 2 ^ 32

/-! ## Responses -/

/-- The lengths of a response with a short error are true exactly when it fits. -/
theorem lengthsExact_iff {response : Response} (small : response.error.length < 2 ^ 32) :
    LengthsExact response ↔ response.Fits := by
  rw [← Response.toNat_payloadBytes_iff]
  constructor
  · intro lengths
    rcases lengths.payload with ⟨payload, writtenEq, lengthEq⟩
    rw [writeProtocolResponse_split small] at writtenEq
    rw [lengthEq, ← List.append_cancel_left writtenEq, responseFormat_encode_length]
  · intro sizeEq
    refine ⟨⟨responseFormat.encode response, writeProtocolResponse_split small, ?_⟩, ?_⟩
    · rw [sizeEq, responseFormat_encode_length]
    · intro earlier output later split
      have fits := Response.toNat_payloadBytes_iff.mp sizeEq
      have member : output ∈ response.outputs := by
        rw [split]
        exact List.mem_append_right _ List.mem_cons_self
      rw [decodeU32Le_lengthOffset small split]
      exact UInt32.toNat_ofNat_of_lt' (fits.output_lt member)

/-- An answer with a short text and no output always fits. -/
theorem lengthsExact_error (requestId : UInt32) (status : ProtocolStatus) {message : Bytes}
    (short : message.length ≤ 128) : LengthsExact (errorResponse requestId status message) := by
  rw [lengthsExact_iff]
  · simp only [Response.Fits, Response.size, errorResponse, List.map_nil, List.sum_nil]
    omega
  · change message.length < 2 ^ 32
    omega

theorem lengthsExact_ok_iff (requestId : UInt32) (outputs : List Bytes) :
    LengthsExact { requestId, status := .ok, error := [], outputs } ↔
      16 + (outputs.map fun output => 4 + output.length).sum < 2 ^ 32 := by
  refine (lengthsExact_iff ?_).trans Iff.rfl
  exact Nat.two_pow_pos 32

/-! ## Frames -/

theorem writesExactLengths_append (earlier later : List Event) :
    WritesExactLengths (earlier ++ later) ↔
      WritesExactLengths earlier ∧ WritesExactLengths later := by
  simp only [WritesExactLengths, responsesOf_append, List.forall_mem_append]

theorem writesExactLengths_single {events : List Event} {response : Response}
    (responsesEq : responsesOf events = [response]) :
    WritesExactLengths events ↔ LengthsExact response := by
  simp only [WritesExactLengths, responsesEq, List.forall_mem_singleton]

variable (engine : Engine σ) (opts : Options)

/-- A frame is answered with true lengths exactly when the outputs for it fit. -/
theorem serveFrame_lengths_iff (body : Bytes) (state : σ) :
    WritesExactLengths (serveFrame engine opts body state).events ↔
      OutputsFit engine opts state body := by
  rcases serveFrame_cases engine opts body state with
    ⟨request, carries, serveEq⟩ | ⟨carriesNone, _, _, _, _, serveEq, refused⟩
  · rw [serveEq]
    rcases batchLoop_complete engine opts.outputFormat state carries.count with
      ⟨outputs, resultEq, returns⟩ | ⟨failed, resultEq, failsFirst, _⟩
    · have responsesEq : responsesOf (handleRequest engine opts (decodeU32Le body 12) request
          body.length state).events =
            [{ requestId := decodeU32Le body 12, status := .ok, error := [], outputs }] := by
        simp only [handleRequest, resultEq, responsesOf_append, batchLoop_responses]
        rfl
      rw [writesExactLengths_single responsesEq, lengthsExact_ok_iff]
      constructor
      · intro fits other otherOutputs otherCarries otherReturns
        rw [otherCarries.unique carries] at otherReturns
        rw [otherReturns.unique returns]
        exact fits
      · intro fits
        exact fits request outputs carries returns
    · have responsesEq : responsesOf (handleRequest engine opts (decodeU32Le body 12) request
          body.length state).events =
            [errorResponse (decodeU32Le body 12) .engineError
              (text ("engine processing failed at index " ++ toString failed))] := by
        simp only [handleRequest, resultEq, responsesOf_append, batchLoop_responses]
        rfl
      have errorText : ErrorText ("engine processing failed at index " ++ toString failed) := by
        have inRange := failsFirst.inRange
        rw [carries.count] at inRange
        exact .numbered (by decide) (by decide) (Nat.lt_trans inRange (UInt32.toNat_lt _))
      rw [writesExactLengths_single responsesEq]
      refine iff_of_true (lengthsExact_error _ _ errorText.short) ?_
      intro other outputs otherCarries returns
      rw [otherCarries.unique carries] at returns
      exact absurd returns (failsFirst.not_returns outputs)
  · rw [serveEq, writesExactLengths_single rfl]
    refine iff_of_true (lengthsExact_error _ _ refused.short) ?_
    intro request outputs carries
    exact absurd carries (carriesNone request)

/-! ## Runs -/

theorem writesExactLengths_nil : WritesExactLengths [] := by
  intro response member
  exact absurd member List.not_mem_nil

/-- One frame more is settled by its own answer. -/
theorem writesExactLengths_serve (state : σ) (frame : Frame) (frames : List Frame) :
    WritesExactLengths (servedEvents engine opts state (frame :: frames)) ↔
      OutputsFit engine opts state frame.body ∧
        WritesExactLengths (servedEvents engine opts
          (serveFrame engine opts frame.body state).engine frames) := by
  rw [servedEvents, writesExactLengths_append, serveFrame_lengths_iff]

/-- Every length that a run writes in a response is the number of bytes it counts
exactly when, for each request that the stream holds, the outputs that the engine
returns for its images fit a response. -/
theorem response_lengths_exact_iff (engine : Engine σ) (opts : Options) (state : σ)
    (stdin : Bytes) :
    WritesExactLengths (runKeepAliveProtocolV2 engine opts state stdin).trace ↔
      ∀ earlier frame, HoldsFrame stdin earlier frame →
        OutputsFit engine opts (engineAfter engine opts state earlier) frame.body :=
  run_trace_iff engine opts writesExactLengths_nil (writesExactLengths_serve engine opts)
    state stdin

/-- Eight images, as many as the default options allow, with an output of 512 MiB
each. -/
theorem response_length_wraps :
    let engine : Engine Unit :=
      { processSingle := fun state _ _ => (state, some (List.replicate (2 ^ 29) 0))
        clearAllocators := id }
    let body : Bytes := [0x52, 0x44, 0x52, 0x42, 2, 0, 0, 0, 1, 0, 0, 0, 7, 0, 0, 0] ++
      buildPayload 0 [] 0 8 (List.replicate 8 [5])
    ¬WritesExactLengths
      (runKeepAliveProtocolV2 engine {} () (Format.sized.encode body)).trace := by
  intro engine body lengths
  let frame : Frame := { body, nonempty := by decide, fits := by decide }
  let request : RequestPayload :=
    { engine := .realCUGAN, qualityOrScale := [], gpuId := 0, batchCount := 8
      images := List.replicate 8 [5] }
  have carries : Carries {} body request :=
    { length := by decide
      header := by decide
      payload := (parseRequestPayload_eq_ok_iff _ _ _).mpr ⟨by decide, by decide⟩ }
  have returns : Returns engine ({} : Options).outputFormat () request.images
      (List.replicate 8 (List.replicate (2 ^ 29) 0)) :=
    { length_eq := by rw [List.length_replicate, List.length_replicate]
      output_eq := by
        intro index indexLt
        rw [List.length_replicate] at indexLt
        rw [List.getElem?_replicate, if_pos indexLt]
        rfl }
  have traceEq := run_trace_frames engine {} () [frame]
  rw [List.flatMap_singleton] at traceEq
  change WritesExactLengths (runKeepAliveProtocolV2 engine {} () frame.encode).trace at lengths
  rw [traceEq, writesExactLengths_serve] at lengths
  have fits := lengths.1 request _ carries returns
  simp only [List.map_replicate, List.length_replicate, List.sum_replicate_nat] at fits
  omega

end NcnnUpscaler.KeepAlive
