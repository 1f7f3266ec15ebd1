import NcnnUpscaler.Engine.Life
import NcnnUpscaler.KeepAlive.Simulation
import NcnnUpscaler.Service.Inference

/-!
# Sessions of an engine

The engine behind the keep-alive loop.  Whatever the images, the codecs and ncnn do,
the engine goes through a life of `process_rgb` and `clear_allocators` calls, so what is
shown of whole lives holds of whole sessions.
-/

namespace NcnnUpscaler.Service

open Wire Raster Tiling KeepAlive
open Engine (EngineState Platform perform)

variable {δ ν ω : Type}

namespace Machine

/-- The engine as the keep-alive loop calls it. -/
def keepAliveEngine (net : Net ω ν) (codec : Codec) : KeepAlive.Engine (Machine δ ν ω) where
  processSingle := fun machine image outputFormat =>
    machine.processSingle net codec image outputFormat
  clearAllocators := clearAllocators

/-! ## Batches -/

section Batches

variable (net : Net ω ν) (codec : Codec) (outputFormat : String)

/-- The batch loop over the images behind `earlier`, and `process_batch` on them: up to
the image the loop stops at, both have what the engine returns one image after the
other. -/
theorem batchLoop_or_processBatch (images earlier outputs : List Bytes)
    (machine : Machine δ ν ω) :
    let loop := batchLoop (keepAliveEngine net codec) outputFormat (earlier ++ images)
      images.length earlier.length outputs machine
    let batch := machine.processBatch net codec outputFormat images
    (∃ results, loop.result = .ok (outputs ++ results) ∧ batch = (loop.engine, results)) ∨
      ∃ before failed after results, images = before ++ failed :: after ∧
        loop.result = .error (earlier.length + before.length) ∧
        Returns (keepAliveEngine net codec) outputFormat machine before results ∧
        let rest := loop.engine.processBatch net codec outputFormat after
        batch = (rest.1, results ++ [] :: rest.2) := by
  induction images generalizing earlier outputs machine with
  | nil => exact .inl ⟨[], by simp [batchLoop], rfl⟩
  | cons image images ih =>
      have current : (earlier ++ image :: images).getD earlier.length [] = image := by
        rw [List.getD_eq_getElem?_getD, List.getElem?_append_right (Nat.le_refl _), Nat.sub_self]
        rfl
      have shifted := fun outputs after => ih (earlier ++ [image]) outputs after
      simp only [List.append_assoc, List.singleton_append, List.length_append,
        List.length_singleton] at shifted
      simp only [List.length_cons, batchLoop, current, processBatch]
      rcases calledEq : (keepAliveEngine net codec).processSingle machine image outputFormat with
        ⟨after, output⟩
      have singleEq : machine.processSingle net codec image outputFormat = (after, output) :=
        calledEq
      rw [singleEq]
      cases output with
      | none => exact .inr ⟨[], image, images, [], rfl, rfl, .nil, rfl⟩
      | some bytes =>
          rcases shifted (outputs ++ [bytes]) after with
            ⟨results, resultEq, batchEq⟩ |
            ⟨before, failed, others, results, imagesEq, resultEq, returns, batchEq⟩
          · refine .inl ⟨bytes :: results, ?_, ?_⟩
            · rw [resultEq, List.append_assoc]
              rfl
            · rw [batchEq]
              rfl
          · refine .inr ⟨image :: before, failed, others, bytes :: results, ?_, ?_,
              returns.cons calledEq, ?_⟩
            · rw [imagesEq]
              rfl
            · rw [resultEq, List.length_cons, Nat.add_assoc, Nat.add_comm 1]
            · simp only [batchEq]
              rfl

/-- `process_batch` and the batch loop of the keep-alive mode agree as far as the loop
goes.  If it gets through, `process_batch` returns the same outputs and leaves the same
engine; if it stops at an image, `process_batch` has the engine's outputs for the images
before, an empty entry at that index, and goes on from there with the engine the loop
left. -/
theorem process_batch_agrees (images : List Bytes) (machine : Machine δ ν ω) :
    let loop := batchLoop (keepAliveEngine net codec) outputFormat images images.length 0 []
      machine
    let batch := machine.processBatch net codec outputFormat images
    (∃ outputs, loop.result = .ok outputs ∧ batch = (loop.engine, outputs)) ∨
      ∃ before failed after outputs, images = before ++ failed :: after ∧
        loop.result = .error before.length ∧
        Returns (keepAliveEngine net codec) outputFormat machine before outputs ∧
        let rest := loop.engine.processBatch net codec outputFormat after
        batch = (rest.1, outputs ++ [] :: rest.2) := by
  have agrees := batchLoop_or_processBatch net codec outputFormat images [] [] machine
  simp only [List.nil_append, List.length_nil, Nat.zero_add] at agrees
  exact agrees

end Batches

/-! ## What the calls keep -/

/-- What the calls to `process_rgb` keep, a call to `process_single` keeps. -/
theorem processSingle_keeps {Invariant : Machine δ ν ω → Prop} {net : Net ω ν}
    (keeps : ∀ machine rgbData width height, Invariant machine →
      Invariant ((rgbEngine net).processRgb machine rgbData width height).1)
    (faults : ∀ machine, Invariant machine → Invariant { machine with faulted := true })
    (codec : Codec) (inputData : List UInt8) (outputFormat : String) {machine : Machine δ ν ω}
    (holds : Invariant machine) :
    Invariant (machine.processSingle net codec inputData outputFormat).1 := by
  have kept : Invariant (processWithTiling (rgbEngine net) codec machine.tilingConfig inputData
      outputFormat machine).engine :=
    processWithTiling_preserves (fun source _ => makesOnly_true machine.tilingConfig source)
      (fun before rgbData width height _ => keeps before rgbData width height) outputFormat holds
  simp only [processSingle]
  split
  · generalize (processWithTiling (rgbEngine net) codec machine.tilingConfig inputData
      outputFormat machine).result = result
    cases result with
    | ok _ => exact kept
    | error failure =>
        cases failure with
        | failed => exact kept
        | fault => exact faults _ kept
  · exact faults _ holds

/-! ## The life behind a session -/

/-- The engine has gone on from `start` by calls of its life. -/
def Follows (start : EngineState δ ν) (machine : Machine δ ν ω) : Prop :=
  ∃ calls : List Engine.Call, machine.engine = calls.foldl perform start

variable {start : EngineState δ ν} {machine : Machine δ ν ω}

theorem Follows.call (follows : Follows start machine) (call : Engine.Call)
    {next : Machine δ ν ω} (nextEq : next.engine = perform machine.engine call) :
    Follows start next := by
  rcases follows with ⟨calls, engineEq⟩
  refine ⟨calls ++ [call], ?_⟩
  rw [nextEq, engineEq, List.foldl_append, List.foldl_cons, List.foldl_nil]

theorem Follows.processRgb (follows : Follows start machine) (net : Net ω ν) (rgbData : Rgb)
    (width height : Int) :
    Follows start ((rgbEngine net).processRgb machine rgbData width height).1 := by
  have kept : Follows start (machine.processRgb net rgbData width height).2 := by
    simp only [Machine.processRgb]
    split
    · exact follows
    · split
      · exact follows
      · split
        · exact follows
        · rcases machine.processImage_follows net
            ⟨width, height, 3, rgbData.take (width * height * 3).toNat⟩ with ⟨run, runEq⟩
          apply follows.call (.processRgb run)
          simp only [perform, runEq]
  rcases kept with ⟨calls, engineEq⟩
  refine ⟨calls, ?_⟩
  simp only [rgbEngine, settle_engine]
  exact engineEq

theorem Follows.processSingle (follows : Follows start machine) (net : Net ω ν) (codec : Codec)
    (inputData : List UInt8) (outputFormat : String) :
    Follows start (machine.processSingle net codec inputData outputFormat).1 := by
  have keeps (machine : Machine δ ν ω) (rgbData : Rgb) (width height : Int)
      (holds : Follows start machine) :
      Follows start ((rgbEngine net).processRgb machine rgbData width height).1 :=
    holds.processRgb net rgbData width height
  exact processSingle_keeps keeps (fun _ holds => holds) codec inputData outputFormat follows

end Machine

end NcnnUpscaler.Service
