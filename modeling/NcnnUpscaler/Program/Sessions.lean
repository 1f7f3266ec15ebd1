import NcnnUpscaler.Program.Outputs

/-!
# Sessions taken apart

A server keeps no memory that a client could see, when its network computes one function.
What it answers to a frame does not depend on the frames before it, and what it returns
for an image not on the images that are sent with it, nor on where the GPU fails.
-/

namespace NcnnUpscaler.Program

open Wire Protocol KeepAlive Service
open Engine (EngineState)
open Image (Inference Libraries imageIo)

variable {δ ν ω ρ φ : Type}

/-- The command starts a server. -/
structure Command.Serves (command : Command) : Prop where
  mode : command.mode = .stdin
  keepAlive : command.keepAlive = true

/-- The images that the frame asks for have scaled sizes that fit. -/
def FrameFits (libraries : Libraries ρ) (opts : Options) (frame : Frame) : Prop :=
  ∀ request, Carries opts frame.body request → ∀ image ∈ request.images,
    ScaledFits libraries opts image

section Serving

variable {around : Surroundings δ ν ω ρ φ} {parsed : Parsed} {command : Command}
  (parsedEq : parseOptions parsed = .ok command)
include parsedEq

/-- What a server prints, from the frames of its stream. -/
theorem main_stdout_serves [DecidableEq ν] (serves : command.Serves) {files : φ}
    (starts : Starts around command.toOptions files) {infer : Inference}
    (computing : Computing around command.toOptions infer) {frames : List Frame}
    {tail : Bytes} (residual : Residual tail)
    (framesFit : ∀ frame ∈ frames, FrameFits around.libraries command.toOptions frame)
    (world : ω) :
    (main around parsed (frames.flatMap Frame.encode ++ tail) files world).stdout =
      frames.flatMap fun frame => stdoutOf (serveFrame (.ofFunction (reference infer
        (imageIo around.libraries) (bootConfig around.platform command.toOptions)))
        command.toOptions frame.body ()).events := by
  have alive : command.keepAlive = true := serves.keepAlive
  have simulated : servedEvents (Machine.keepAliveEngine around.net (imageIo around.libraries))
        command.toOptions (boot around.platform command.toOptions world) frames =
      servedEvents (.ofFunction (reference infer (imageIo around.libraries)
        (bootConfig around.platform command.toOptions))) command.toOptions () frames :=
    (servedEvents_simulates (computing.simulates world command.outputFormat) framesFit
      ⟨[], rfl⟩).1
  rw [(starts.main_eq parsedEq _ world).2.1]
  simp only [runMode, serves.mode, runStdinMode, alive, not_true_eq_false, if_false]
  rw [(run_of_split _ command.toOptions _ frames residual).1, simulated,
    ofFunction_servedEvents, stdoutOf, List.flatMap_assoc]
  rfl

end Serving

/-- A session is answered frame by frame: what a server writes for a stream is what
servers started for its frames, one each, write for them, whatever the frames are and
wherever the GPU fails for which of them. -/
theorem program_serves_frames_alone [DecidableEq ν] (around : Surroundings δ ν ω ρ φ)
    {parsed : Parsed} {command : Command} (parsedEq : parseOptions parsed = .ok command)
    (serves : command.Serves) {infer : Inference}
    (computing : Computing around command.toOptions infer) {frames : List Frame}
    {tail : Bytes} (residual : Residual tail)
    (framesFit : ∀ frame ∈ frames, FrameFits around.libraries command.toOptions frame)
    (files : φ) (world : ω) (alone : Frame → ω) :
    (main around parsed (frames.flatMap Frame.encode ++ tail) files world).stdout =
      frames.flatMap fun frame =>
        (main around parsed frame.encode files (alone frame)).stdout := by
  by_cases starts : Starts around command.toOptions files
  · rw [main_stdout_serves parsedEq serves starts computing residual framesFit]
    apply List.flatMap_congr
    intro frame member
    have single := main_stdout_serves parsedEq serves starts computing
      (.inl rfl : Residual []) (List.forall_mem_singleton.mpr (framesFit frame member))
      (alone frame)
    rw [List.flatMap_singleton, List.append_nil, List.flatMap_singleton] at single
    exact single.symm
  · simp only [(main_unstarted starts parsedEq _ _).1]
    exact (List.flatMap_eq_nil_iff.mpr fun _ _ => rfl).symm

/-- Two frames on the GPU that fails at every second inference, the first of them or the
second. -/
theorem program_serves_frames_alone_flaky :
    (main flakyMachine (.values serverArguments)
        ([plainRequest, namedRequest].flatMap Frame.encode ++ []) [5] 0).stdout =
      [plainRequest, namedRequest].flatMap fun frame =>
        (main flakyMachine (.values serverArguments) frame.encode [5] 1).stdout :=
  program_serves_frames_alone flakyMachine serverArguments_accepted ⟨rfl, rfl⟩
    flakyMachine_computing (.inl rfl) (fun _ _ _ _ image _ => scaledFits_grey image) [5] 0
    fun _ => 1

/-! ## Requests, image by image -/

/-- What is printed for each frame follows from its request, so what is printed for all of
them follows from their requests. -/
theorem flatMap_of_forall₂ {Related : Frame → RequestPayload → Prop} {frames : List Frame}
    {requests : List RequestPayload} (related : List.Forall₂ Related frames requests)
    {print : Frame → Bytes} {printPair : Frame × RequestPayload → Bytes}
    (printEq : ∀ frame request, Related frame request →
      print frame = printPair (frame, request)) :
    frames.flatMap print = (frames.zip requests).flatMap printPair := by
  induction related with
  | nil => rfl
  | cons first rest ih =>
      rw [List.flatMap_cons, List.zip_cons_cons, List.flatMap_cons, printEq _ _ first, ih]

/-- The images of a session are answered one by one: each has its output, or none, and
every request is answered with those of its images, however they are grouped into
requests, whatever else these say, and wherever the GPU fails. -/
theorem program_answers_by_image [DecidableEq ν] (around : Surroundings δ ν ω ρ φ)
    {parsed : Parsed} {command : Command} (parsedEq : parseOptions parsed = .ok command)
    (serves : command.Serves) {infer : Inference}
    (computing : Computing around command.toOptions infer) :
    ∃ answer : Bytes → Option Bytes, ∀ (frames : List Frame) (requests : List RequestPayload),
      List.Forall₂ (fun frame => Carries command.toOptions frame.body) frames requests →
      (∀ frame ∈ frames, FrameFits around.libraries command.toOptions frame) →
      ∀ (files : φ), Starts around command.toOptions files → ∀ world : ω,
        (main around parsed (frames.flatMap Frame.encode) files world).stdout =
          (frames.zip requests).flatMap fun pair => writeProtocolResponse
            (responseOf (decodeU32Le pair.1.body 12) (pair.2.images.map answer)) := by
  refine ⟨fun image => reference infer (imageIo around.libraries)
    (bootConfig around.platform command.toOptions) image command.outputFormat, ?_⟩
  intro frames requests carried framesFit files starts world
  have printed := main_stdout_serves parsedEq serves starts computing (.inl rfl : Residual [])
    framesFit world
  rw [List.append_nil] at printed
  rw [printed]
  apply flatMap_of_forall₂ carried
  intro frame request carries
  rw [stdoutOf_eq, ofFunction_responses carries, List.flatMap_singleton]

/-- The images that a server on that GPU is asked for. -/
theorem program_answers_by_image_flaky :
    ∃ answer : Bytes → Option Bytes, ∀ (frames : List Frame) (requests : List RequestPayload),
      List.Forall₂ (fun frame => Carries serverArguments.command.toOptions frame.body) frames
        requests →
      (∀ frame ∈ frames, FrameFits greyLibraries serverArguments.command.toOptions frame) →
      ∀ (files : Bytes) (world : Nat),
        (main flakyMachine (.values serverArguments) (frames.flatMap Frame.encode) files
            world).stdout =
          (frames.zip requests).flatMap fun pair => writeProtocolResponse
            (responseOf (decodeU32Le pair.1.body 12) (pair.2.images.map answer)) := by
  rcases program_answers_by_image flakyMachine serverArguments_accepted ⟨rfl, rfl⟩
    flakyMachine_computing with ⟨answer, answers⟩
  refine ⟨answer, ?_⟩
  intro frames requests carried framesFit files world
  exact answers frames requests carried framesFit files (flakyMachine_starts files) world

end NcnnUpscaler.Program
