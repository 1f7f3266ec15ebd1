import NcnnUpscaler.KeepAlive.Streams

/-!
# Engines that answer alike

Two engines in related states that return the same outputs and stay related give the
same session, byte for byte.  What the answers of a run depend on is shown this way:
not on a state that only decides how an output is computed, and not on what a request
says beside its images.
-/

namespace NcnnUpscaler.KeepAlive

open Wire Protocol

variable {σ τ : Type}

/-- From related states both engines return the same outputs for some images and stay
related. -/
structure Engine.Simulates (left : Engine σ) (right : Engine τ) (outputFormat : String)
    (Asked : Bytes → Prop) (Related : σ → τ → Prop) : Prop where
  output : ∀ {state other} {image : Bytes}, Asked image → Related state other →
    (left.processSingle state image outputFormat).2 =
      (right.processSingle other image outputFormat).2
  related : ∀ {state other} {image : Bytes}, Asked image → Related state other →
    Related (left.processSingle state image outputFormat).1
      (right.processSingle other image outputFormat).1
  clearAllocators : ∀ {state other}, Related state other →
    Related (left.clearAllocators state) (right.clearAllocators other)

theorem Engine.Simulates.mono {left : Engine σ} {right : Engine τ} {outputFormat : String}
    {Asked Fewer : Bytes → Prop} {Related : σ → τ → Prop}
    (simulates : left.Simulates right outputFormat Asked Related)
    (fewer : ∀ image, Fewer image → Asked image) :
    left.Simulates right outputFormat Fewer Related where
  output := fun asked related => simulates.output (fewer _ asked) related
  related := fun asked related => simulates.related (fewer _ asked) related
  clearAllocators := simulates.clearAllocators

/-- An engine whose outputs are a function of the image and the format. -/
def Engine.ofFunction (compute : Bytes → String → Option Bytes) : Engine Unit where
  processSingle := fun _ image outputFormat => ((), compute image outputFormat)
  clearAllocators := id

/-! ## The images a stream asks for -/

/-- A request in the stream asks for the image. -/
def AsksFor (opts : Options) (stdin image : Bytes) : Prop :=
  ∃ earlier frame request, HoldsFrame stdin earlier frame ∧ Carries opts frame.body request ∧
    image ∈ request.images

/-- The requests among the frames of a stream ask for images the stream asks for. -/
theorem asksFor_of_frame {opts : Options} {frames : List Frame} {tail : Bytes} {frame : Frame}
    (member : frame ∈ frames) {request : RequestPayload}
    (carries : Carries opts frame.body request) {image : Bytes}
    (imageMember : image ∈ request.images) :
    AsksFor opts (frames.flatMap Frame.encode ++ tail) image := by
  rcases List.append_of_mem member with ⟨earlier, later, split⟩
  refine ⟨earlier, frame, request, ⟨later.flatMap Frame.encode ++ tail, ?_⟩, carries,
    imageMember⟩
  rw [split]
  simp only [List.flatMap_append, List.flatMap_cons, List.append_assoc]

theorem getD_mem {images : List Bytes} {index : Nat} (inRange : index < images.length) :
    images.getD index [] ∈ images := by
  rw [List.getD_eq_getElem?_getD, List.getElem?_eq_getElem inRange, Option.getD_some]
  exact List.getElem_mem inRange

/-! ## Related engines -/

section Simulation

variable {left : Engine σ} {right : Engine τ} {opts : Options} {Asked : Bytes → Prop}
  {Related : σ → τ → Prop}
  (simulates : left.Simulates right opts.outputFormat Asked Related)
include simulates

theorem batchLoop_simulates {images : List Bytes} (asked : ∀ image ∈ images, Asked image)
    (count index : Nat) (inRange : index + count ≤ images.length) (outputs : List Bytes)
    {state : σ} {other : τ} (related : Related state other) :
    let batch := batchLoop left opts.outputFormat images count index outputs state
    let otherBatch := batchLoop right opts.outputFormat images count index outputs other
    batch.calls = otherBatch.calls ∧ batch.result = otherBatch.result ∧
      Related batch.engine otherBatch.engine := by
  induction count generalizing index outputs state other with
  | zero => exact ⟨rfl, rfl, related⟩
  | succ count ih =>
      have imageAsked := asked _ (getD_mem (by omega : index < images.length))
      have same := simulates.output imageAsked related
      have after := simulates.related imageAsked related
      simp only [batchLoop]
      split
      · next next stateEq =>
          split
          · next otherNext otherEq =>
              rw [stateEq, otherEq] at after
              exact ⟨rfl, rfl, after⟩
          · next otherNext output otherEq =>
              rw [stateEq, otherEq] at same
              cases same
      · next next output stateEq =>
          split
          · next otherNext otherEq =>
              rw [stateEq, otherEq] at same
              cases same
          · next otherNext otherOutput otherEq =>
              rw [stateEq, otherEq] at same after
              cases same
              rcases ih (index + 1) (by omega) (outputs ++ [output]) after with
                ⟨callsEq, resultEq, engines⟩
              exact ⟨by rw [callsEq], resultEq, engines⟩

theorem handleRequest_simulates (requestId : UInt32) {request : RequestPayload}
    (count : request.batchCount.toNat = request.images.length)
    (asked : ∀ image ∈ request.images, Asked image)
    (messageLen : Nat) {state : σ} {other : τ} (related : Related state other) :
    let result := handleRequest left opts requestId request messageLen state
    let otherResult := handleRequest right opts requestId request messageLen other
    result.events = otherResult.events ∧ Related result.engine otherResult.engine := by
  rcases batchLoop_simulates simulates asked request.batchCount.toNat 0 (by omega) [] related
    with ⟨callsEq, resultEq, engines⟩
  simp only [handleRequest, callsEq, resultEq]
  split
  · exact ⟨rfl, engines⟩
  · exact ⟨rfl, simulates.clearAllocators engines⟩

theorem serveFrame_simulates {body : Bytes}
    (asked : ∀ request, Carries opts body request → ∀ image ∈ request.images, Asked image)
    {state : σ} {other : τ} (related : Related state other) :
    let result := serveFrame left opts body state
    let otherResult := serveFrame right opts body other
    result.events = otherResult.events ∧ Related result.engine otherResult.engine := by
  by_cases lengthOk : LengthOk body
  · have accepted := parseProtocolHeader_eq_none_iff
      { magic := 0, version := 0, msgType := 0, requestId := 0 } lengthOk.1
    rw [serveFrame_of_length left opts lengthOk, serveFrame_of_length right opts lengthOk]
    simp only [handlePayload]
    split
    · exact ⟨rfl, related⟩
    · next header headerEq =>
        have headerOk := accepted.mp (congrArg Prod.snd headerEq)
        split
        · exact ⟨rfl, related⟩
        · split
          · exact ⟨rfl, related⟩
          · split
            · exact ⟨rfl, related⟩
            · next request parseEq =>
                have carries : Carries opts body request := ⟨lengthOk, headerOk, parseEq⟩
                exact handleRequest_simulates simulates _ carries.count.symm
                  (asked request carries) _ related
  · simp only [serveFrame]
    split
    · exact ⟨rfl, related⟩
    · split
      · exact ⟨rfl, related⟩
      · next enough small =>
          exact absurd ⟨Nat.not_lt.mp enough, Nat.not_lt.mp small⟩ lengthOk

theorem servedEvents_simulates {frames : List Frame}
    (asked : ∀ frame ∈ frames, ∀ request, Carries opts frame.body request →
      ∀ image ∈ request.images, Asked image)
    {state : σ} {other : τ} (related : Related state other) :
    servedEvents left opts state frames = servedEvents right opts other frames ∧
      Related (engineAfter left opts state frames) (engineAfter right opts other frames) := by
  induction frames generalizing state other with
  | nil => exact ⟨rfl, related⟩
  | cons frame frames ih =>
      rcases serveFrame_simulates simulates (asked frame List.mem_cons_self) related with
        ⟨eventsEq, engines⟩
      rcases ih (fun other member => asked other (List.mem_cons_of_mem frame member)) engines with
        ⟨restEq, last⟩
      exact ⟨by rw [servedEvents, servedEvents, eventsEq, restEq], last⟩

/-- Engines that answer alike the images a stream asks for give the same session on it. -/
theorem run_simulates {stdin : Bytes} (asked : ∀ image, AsksFor opts stdin image → Asked image)
    {state : σ} {other : τ} (related : Related state other) :
    let last := runKeepAliveProtocolV2 left opts state stdin
    let otherLast := runKeepAliveProtocolV2 right opts other stdin
    last.trace = otherLast.trace ∧ Related last.engine otherLast.engine := by
  rcases exists_split stdin with ⟨frames, tail, stdinEq, residual⟩
  have framesAsk (frame : Frame) (member : frame ∈ frames) (request : RequestPayload)
      (carries : Carries opts frame.body request) (image : Bytes)
      (imageMember : image ∈ request.images) : Asked image := by
    apply asked
    rw [stdinEq]
    exact asksFor_of_frame member carries imageMember
  rcases run_of_split left opts state frames residual with ⟨traceEq, engineEq⟩
  rcases run_of_split right opts other frames residual with ⟨otherTraceEq, otherEngineEq⟩
  rcases servedEvents_simulates simulates framesAsk related with ⟨eventsEq, engines⟩
  simp only
  rw [stdinEq, traceEq, engineEq, otherTraceEq, otherEngineEq]
  exact ⟨eventsEq, engines⟩

end Simulation

/-- What the calls of a mode keep of an engine's state makes it simulate itself. -/
theorem Engine.simulates_self {engine : Engine σ} {outputFormat : String}
    {Asked : Bytes → Prop} {Invariant : σ → Prop}
    (single : ∀ state image, Asked image → Invariant state →
      Invariant (engine.processSingle state image outputFormat).1)
    (clear : ∀ state, Invariant state → Invariant (engine.clearAllocators state)) :
    engine.Simulates engine outputFormat Asked
      fun state other => state = other ∧ Invariant state where
  output := by
    intro state other image _ related
    rw [related.1]
  related := by
    intro state other image asked related
    rw [← related.1]
    exact ⟨rfl, single state image asked related.2⟩
  clearAllocators := by
    intro state other related
    rw [← related.1]
    exact ⟨rfl, clear state related.2⟩

/-! ## The answers of a function -/

theorem serveFrame_carries (engine : Engine σ) {opts : Options} {body : Bytes}
    {request : RequestPayload} (carries : Carries opts body request) (state : σ) :
    serveFrame engine opts body state =
      handleRequest engine opts (decodeU32Le body 12) request body.length state := by
  rcases serveFrame_cases engine opts body state with
    ⟨other, otherCarries, serveEq⟩ | ⟨carriesNone, _⟩
  · rw [otherCarries.unique carries] at serveEq
    exact serveEq
  · exact absurd carries (carriesNone request)

/-- The batch loop around a function gets through when there is an output for each image,
and stops at the first image without one. -/
theorem ofFunction_batch (compute : Bytes → String → Option Bytes) (outputFormat : String)
    {images : List Bytes} {count : Nat} (counted : images.length = count) (state : Unit) :
    let batch := batchLoop (.ofFunction compute) outputFormat images count 0 [] state
    let answers := images.map fun image => compute image outputFormat
    (∃ outputs, batch.result = .ok outputs ∧ answers = outputs.map some) ∨
      ∃ failed, batch.result = .error failed ∧
        answers.findIdx? Option.isNone = some failed := by
  intro batch answers
  have outputAtEq {index : Nat} (inRange : index < images.length) :
      outputAt (.ofFunction compute) outputFormat state images index =
        compute images[index] outputFormat := by
    simp only [outputAt, Engine.ofFunction, List.getD_eq_getElem?_getD,
      List.getElem?_eq_getElem inRange, Option.getD_some]
  rcases batchLoop_complete (.ofFunction compute) outputFormat state counted with
    ⟨outputs, resultEq, returns⟩ | ⟨failed, resultEq, failsFirst, _⟩
  · refine .inl ⟨outputs, resultEq, List.ext_getElem? fun index => ?_⟩
    by_cases inRange : index < images.length
    · have inOutputs : index < outputs.length := by
        rw [returns.length_eq]
        exact inRange
      have output := returns.output_eq index inRange
      rw [outputAtEq inRange, List.getElem?_eq_getElem inOutputs] at output
      simp only [answers, List.getElem?_map, List.getElem?_eq_getElem inRange,
        List.getElem?_eq_getElem inOutputs, Option.map_some, output]
    · have past := Nat.not_lt.mp inRange
      rw [List.getElem?_eq_none (by rw [List.length_map]; exact past),
        List.getElem?_eq_none (by rw [List.length_map, returns.length_eq]; exact past)]
  · refine .inr ⟨failed, resultEq, List.findIdx?_eq_some_iff_getElem.mpr ?_⟩
    have inRange := failsFirst.inRange
    refine ⟨by rw [List.length_map]; exact inRange, ?_, ?_⟩
    · have fails := failsFirst.fails
      rw [outputAtEq inRange] at fails
      rw [List.getElem_map, fails]
      rfl
    · intro before beforeLt
      have succeeded := failsFirst.earlier before beforeLt
      rw [outputAtEq (Nat.lt_trans beforeLt inRange)] at succeeded
      rw [List.getElem_map, Bool.not_eq_true, Option.isNone_eq_false_iff]
      exact succeeded

/-- The response to a request, from the answers for its images: their outputs, or the
index of the first one without an output. -/
def responseOf (requestId : UInt32) (answers : List (Option Bytes)) : Response :=
  match answers.findIdx? Option.isNone with
  | some index =>
      errorResponse requestId .engineError
        (text ("engine processing failed at index " ++ toString index))
  | none => { requestId, status := .ok, error := [], outputs := answers.filterMap id }

theorem responseOf_outputs (requestId : UInt32) (outputs : List Bytes) :
    responseOf requestId (outputs.map some) =
      { requestId, status := .ok, error := [], outputs } := by
  have present : (outputs.map some).findIdx? Option.isNone = none := by
    simp only [List.findIdx?_eq_none_iff, List.mem_map]
    intro answer member
    rcases member with ⟨output, _, answerEq⟩
    rw [← answerEq]
    rfl
  simp only [responseOf, present, List.filterMap_map, Function.id_comp, List.filterMap_some]

/-- The answer of a function to a request. -/
theorem ofFunction_responses {compute : Bytes → String → Option Bytes} {opts : Options}
    {body : Bytes} {request : RequestPayload} (carries : Carries opts body request)
    (state : Unit) :
    responsesOf (serveFrame (.ofFunction compute) opts body state).events =
      [responseOf (decodeU32Le body 12)
        (request.images.map fun image => compute image opts.outputFormat)] := by
  rw [serveFrame_carries _ carries]
  rcases ofFunction_batch compute opts.outputFormat carries.count state with
    ⟨outputs, resultEq, answersEq⟩ | ⟨failed, resultEq, firstMissing⟩
  · rw [answersEq, responseOf_outputs]
    simp only [handleRequest, resultEq, responsesOf_append, batchLoop_responses]
    rfl
  · simp only [handleRequest, resultEq, responsesOf_append, batchLoop_responses, responseOf,
      firstMissing]
    rfl

/-- When it has an output for each image of a request, these are the answer. -/
theorem ofFunction_answers {compute : Bytes → String → Option Bytes} {opts : Options}
    {body : Bytes} {request : RequestPayload} (carries : Carries opts body request)
    (computed : ∀ image ∈ request.images, compute image opts.outputFormat ≠ none) (state : Unit) :
    ∃ outputs,
      responsesOf (serveFrame (.ofFunction compute) opts body state).events =
        [{ requestId := decodeU32Le body 12, status := .ok, error := [], outputs }] ∧
      List.Forall₂ (fun image output => compute image opts.outputFormat = some output)
        request.images outputs := by
  rcases ofFunction_batch compute opts.outputFormat carries.count state with
    ⟨outputs, _, answersEq⟩ | ⟨failed, _, firstMissing⟩
  · have answered : List.Forall₂ Eq
        (request.images.map fun image => compute image opts.outputFormat) (outputs.map some) := by
      rw [List.forall₂_eq_eq_eq]
      exact answersEq
    rw [List.forall₂_map_left_iff, List.forall₂_map_right_iff] at answered
    exact ⟨outputs, by rw [ofFunction_responses carries, answersEq, responseOf_outputs], answered⟩
  · rcases List.findIdx?_eq_some_iff_getElem.mp firstMissing with ⟨inRange, missing, _⟩
    rw [List.getElem_map, Option.isNone_iff_eq_none] at missing
    exact absurd missing (computed _ (List.getElem_mem _))

/-- What a function answers to a stream it answers frame by frame. -/
theorem ofFunction_servedEvents (compute : Bytes → String → Option Bytes) (opts : Options)
    (state : Unit) (frames : List Frame) :
    servedEvents (.ofFunction compute) opts state frames =
      frames.flatMap fun frame =>
        (serveFrame (.ofFunction compute) opts frame.body state).events := by
  induction frames with
  | nil => rfl
  | cons frame frames ih => rw [servedEvents, ih, List.flatMap_cons]

/-- An engine that fails on every image never answers with `Ok`. -/
theorem failing_responses (opts : Options) (state : Unit) (frames : List Frame) :
    ∀ response ∈ responsesOf (servedEvents (.ofFunction fun _ _ => none) opts state frames),
      response.status ≠ .ok ∧ response.outputs = [] := by
  induction frames generalizing state with
  | nil => exact fun response member => absurd member List.not_mem_nil
  | cons frame frames ih =>
      intro response member
      rw [servedEvents, responsesOf_append, List.mem_append] at member
      rcases member with first | later
      · rcases serveFrame_cases (.ofFunction fun _ _ => none) opts frame.body state with
          ⟨request, carries, serveEq⟩ | ⟨_, _, _, _, _, serveEq, refused⟩
        · have positive : 1 ≤ request.batchCount.toNat :=
            ((parseRequestPayload_eq_ok_iff _ _ _).mp carries.payload).2.count_pos
          rcases Nat.exists_eq_add_of_le' positive with ⟨left, countEq⟩
          rw [serveEq] at first
          simp only [handleRequest, countEq, batchLoop, Engine.ofFunction] at first
          rw [List.mem_singleton.mp first]
          refine ⟨?_, rfl⟩
          intro same
          cases same
        · rw [serveEq] at first
          rw [List.mem_singleton.mp first]
          exact ⟨refused.failed, rfl⟩
      · exact ih _ response later

/-! ## What a request says beside its images -/

/-- The events of a trace that reach the client or the engine. -/
def interactions (events : List Event) : List Event :=
  events.filter fun
    | .record _ => false
    | _ => true

@[simp] theorem interactions_append (earlier later : List Event) :
    interactions (earlier ++ later) = interactions earlier ++ interactions later :=
  List.filter_append ..

/-- Two frames that are the same, or requests under one id for the same images. -/
inductive Alike (opts : Options) : Frame → Frame → Prop where
  | same (frame : Frame) : Alike opts frame frame
  | requests {frame other : Frame} {request otherRequest : RequestPayload}
      (carries : Carries opts frame.body request)
      (otherCarries : Carries opts other.body otherRequest)
      (id : decodeU32Le frame.body 12 = decodeU32Le other.body 12)
      (images : request.images = otherRequest.images) : Alike opts frame other

variable (engine : Engine σ) (opts : Options)

/-- Of a request the loop uses its images and their number. -/
theorem handleRequest_interactions (requestId : UInt32) {request other : RequestPayload}
    (images : request.images = other.images) (count : request.batchCount = other.batchCount)
    (messageLen otherLen : Nat) (state : σ) :
    let result := handleRequest engine opts requestId request messageLen state
    let otherResult := handleRequest engine opts requestId other otherLen state
    interactions result.events = interactions otherResult.events ∧
      result.engine = otherResult.engine := by
  simp only [handleRequest, images, count]
  split
  · exact ⟨by simp [interactions], rfl⟩
  · exact ⟨by simp [interactions], rfl⟩

theorem Alike.serve {frame other : Frame} (alike : Alike opts frame other) (state : σ) :
    let result := serveFrame engine opts frame.body state
    let otherResult := serveFrame engine opts other.body state
    interactions result.events = interactions otherResult.events ∧
      result.engine = otherResult.engine := by
  cases alike with
  | same => exact ⟨rfl, rfl⟩
  | requests carries otherCarries id images =>
      have count := carries.count
      rw [images, otherCarries.count] at count
      rw [serveFrame_carries engine carries, serveFrame_carries engine otherCarries, id]
      exact handleRequest_interactions engine opts _ images
        (UInt32.toNat_inj.mp count).symm _ _ state

theorem servedEvents_alike {frames others : List Frame}
    (alike : List.Forall₂ (Alike opts) frames others) (state : σ) :
    interactions (servedEvents engine opts state frames) =
        interactions (servedEvents engine opts state others) ∧
      engineAfter engine opts state frames = engineAfter engine opts state others := by
  induction alike generalizing state with
  | nil => exact ⟨rfl, rfl⟩
  | cons first rest ih =>
      rcases first.serve engine opts state with ⟨eventsEq, engineEq⟩
      simp only [servedEvents, engineAfter, List.foldl_cons, interactions_append]
      rw [eventsEq, engineEq]
      rcases ih _ with ⟨restEq, lastEq⟩
      exact ⟨by rw [restEq], lastEq⟩

theorem stdoutOf_interactions (events : List Event) :
    stdoutOf (interactions events) = stdoutOf events := by
  induction events with
  | nil => rfl
  | cons event events ih =>
      have tail : stdoutOf (event :: events) = event.stdoutBytes ++ stdoutOf events := rfl
      rw [tail, ← ih]
      cases event <;> rfl

/-- The engine is configured once: two streams of the same frames, except that their
requests may name another engine, another quality or another GPU, get the same bytes in
answer, make the same calls to the engine with the same results, and leave it in the
same state. -/
theorem configured_once (engine : Engine σ) (opts : Options) (state : σ)
    {frames others : List Frame} (alike : List.Forall₂ (Alike opts) frames others)
    {tail otherTail : Bytes} (residual : Residual tail) (otherResidual : Residual otherTail) :
    let last := runKeepAliveProtocolV2 engine opts state
      (frames.flatMap Frame.encode ++ tail)
    let otherLast := runKeepAliveProtocolV2 engine opts state
      (others.flatMap Frame.encode ++ otherTail)
    interactions last.trace = interactions otherLast.trace ∧
      stdoutOf last.trace = stdoutOf otherLast.trace ∧ last.engine = otherLast.engine := by
  rcases run_of_split engine opts state frames residual with ⟨traceEq, engineEq⟩
  rcases run_of_split engine opts state others otherResidual with ⟨otherTraceEq, otherEngineEq⟩
  rcases servedEvents_alike engine opts alike state with ⟨eventsEq, enginesEq⟩
  simp only
  rw [traceEq, engineEq, otherTraceEq, otherEngineEq]
  refine ⟨eventsEq, ?_, enginesEq⟩
  rw [← stdoutOf_interactions, eventsEq, stdoutOf_interactions]

/-- A request for one image, under the id 7. -/
def plainRequest : Frame where
  body := [0x52, 0x44, 0x52, 0x42, 2, 0, 0, 0, 1, 0, 0, 0, 7, 0, 0, 0] ++
    buildPayload 0 [] 0 1 [[5]]
  nonempty := by decide
  fits := by decide

/-- A request for the same image that names RealESRGAN, a quality and a GPU. -/
def namedRequest : Frame where
  body := [0x52, 0x44, 0x52, 0x42, 2, 0, 0, 0, 1, 0, 0, 0, 7, 0, 0, 0] ++
    buildPayload 1 [0x46] 3 1 [[5]]
  nonempty := by decide
  fits := by decide

theorem plainRequest_carries :
    Carries {} plainRequest.body
      { engine := .realCUGAN, qualityOrScale := [], gpuId := 0, batchCount := 1
        images := [[5]] } :=
  ⟨by decide, by decide, by rfl⟩

theorem namedRequest_carries :
    Carries {} namedRequest.body
      { engine := .realESRGAN, qualityOrScale := [0x46], gpuId := 3, batchCount := 1
        images := [[5]] } :=
  ⟨by decide, by decide, by rfl⟩

/-- Those two, to an engine that returns what it is given. -/
theorem configured_once_named :
    let engine : Engine Nat :=
      { processSingle := fun calls image _ => (calls + 1, some image), clearAllocators := id }
    let last := runKeepAliveProtocolV2 engine {} 0 ([plainRequest].flatMap Frame.encode ++ [])
    let otherLast := runKeepAliveProtocolV2 engine {} 0
      ([namedRequest].flatMap Frame.encode ++ [0, 0, 0, 0])
    interactions last.trace = interactions otherLast.trace ∧
      stdoutOf last.trace = stdoutOf otherLast.trace ∧ last.engine = otherLast.engine :=
  configured_once _ {} 0
    (.cons (.requests plainRequest_carries namedRequest_carries (by decide) rfl) .nil)
    (.inl rfl) (.inr (.inr ⟨[], by decide⟩))

end NcnnUpscaler.KeepAlive
