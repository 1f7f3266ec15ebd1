import NcnnUpscaler.Queue.Waits

/-!
# The queue is a bounded FIFO with graceful shutdown

Every run of the threads' critical sections replays a history of the channel, and
from every reachable state what is in the queue can still be taken out.
-/

namespace NcnnUpscaler.Queue

open NcnnUpscaler.Library

namespace BlockingQueue

variable {τ α : Type} [DecidableEq τ]

/-! ## Refinement of the channel -/

section Refinement

variable {capacity : Nat} {state next : BlockingQueue τ α}

/-- The channel a state of the queue stands for. -/
def view (state : BlockingQueue τ α) : Channel α := ⟨state.queue, state.closed⟩

/-- The events so far are a history of the channel, and it leads here. -/
def Replays (capacity : Nat) (state : BlockingQueue τ α) : Prop :=
  Channel.History capacity state.log state.view

theorem Replays.pushes (replays : Replays capacity state) {thread : τ} {item : α}
    {wake : Option τ} (pushes : Pushes capacity thread item wake state next) :
    Replays capacity next := by
  cases pushes with
  | refused closed =>
      have viewEq : state.view = ⟨state.queue, true⟩ := by rw [view, closed]
      have stepped : Channel.Step capacity state.view (.refused thread item) state.view := by
        rw [viewEq]
        exact .refused thread item
      exact Channel.History.step replays stepped
  | enqueued opened room woken =>
      have viewEq : state.view = ⟨state.queue, false⟩ := by rw [view, opened]
      have stepped : Channel.Step capacity state.view (.pushed thread item)
          ⟨state.queue ++ [item], state.closed⟩ := by
        rw [viewEq, opened]
        exact .pushed thread item room
      exact Channel.History.step replays stepped
  | waits => exact replays

theorem Replays.takes (replays : Replays capacity state) {thread : τ} {wake : Option τ}
    (taken : Takes thread wake state next) : Replays capacity next := by
  cases taken with
  | @front item rest front cvNotFull woken =>
      have viewEq : state.view = ⟨item :: rest, state.closed⟩ := by rw [view, front]
      have stepped : Channel.Step capacity state.view (.delivered thread item)
          ⟨rest, state.closed⟩ := by
        rw [viewEq]
        exact .delivered thread item
      exact Channel.History.step replays stepped

theorem Replays.pops (replays : Replays capacity state) {thread : τ} {wake : Option τ}
    (pops : Pops thread wake state next) : Replays capacity next := by
  cases pops with
  | takes taken => exact replays.takes taken
  | ended empty closed =>
      have viewEq : state.view = ⟨[], true⟩ := by rw [view, empty, closed]
      have stepped : Channel.Step capacity state.view (.ended thread) state.view := by
        rw [viewEq]
        exact .ended thread
      exact Channel.History.step replays stepped
  | waits => exact replays

/-- Each step adds at most one event to the history. -/
theorem Replays.step (replays : Replays capacity state) {action : Action τ α}
    (stepped : state.step capacity action = some next) : Replays capacity next := by
  cases moves_of_step stepped with
  | push idle pushes => exact replays.pushes pushes
  | pop idle pops => exact replays.pops pops
  | tryPop idle taken => exact replays.takes taken
  | @tryPopMissed thread wake idle empty =>
      have viewEq : state.view = ⟨[], state.closed⟩ := by rw [view, empty]
      have missed : Channel.Step capacity state.view (.missed thread) state.view := by
        rw [viewEq]
        exact .missed thread
      exact Channel.History.step replays missed
  | @close thread idle =>
      have closes : Channel.Step capacity state.view (.closed thread) ⟨state.queue, true⟩ :=
        .closed thread
      exact Channel.History.step replays closes
  | @resumePush thread item wake next pushing cvNotFull left pushes =>
      have same : Replays capacity { state with cvNotFull := cvNotFull } := replays
      exact same.pushes pushes
  | @resumePop thread wake next popping cvNotEmpty left pops =>
      have same : Replays capacity { state with cvNotEmpty := cvNotEmpty } := replays
      exact same.pops pops
  | notifyNotEmpty => exact replays
  | notifyNotFull => exact replays
  | wakePush => exact replays
  | wakePop => exact replays

theorem replays_of_reachable (reachable : Reachable (step capacity) {} state) :
    Replays capacity state :=
  reachable.invariant .start fun replays stepped => replays.step stepped

end Refinement

/-! ## Draining -/

/-- The actions that take items out or let a close finish: no push and no spurious
wake-up among them. -/
def Drains : Action τ α → Prop
  | .pop _ _ => True
  | .resume _ _ => True
  | .notifyAll _ => True
  | _ => False

/-- A run of draining actions, with nothing pushed on the way. -/
structure DrainsTo (capacity : Nat) (state last : BlockingQueue τ α) : Prop where
  run : ∃ actions, (∀ action ∈ actions, Drains action) ∧
    run (step capacity) state actions = some last
  pushed : pushedItems last.log = pushedItems state.log

section Draining

variable {capacity : Nat} {thread : τ} {state next last : BlockingQueue τ α}

theorem DrainsTo.refl (state : BlockingQueue τ α) : DrainsTo capacity state state where
  run := ⟨[], List.forall_mem_nil _, rfl⟩
  pushed := rfl

theorem DrainsTo.cons (action : Action τ α) (drains : Drains action)
    (stepped : state.step capacity action = some next)
    (kept : pushedItems next.log = pushedItems state.log)
    (tail : DrainsTo capacity next last) : DrainsTo capacity state last := by
  rcases tail.run with ⟨actions, all, ran⟩
  have runs : Library.run (BlockingQueue.step capacity) state (action :: actions) = some last := by
    rw [run_cons stepped, ran]
  exact
    { run := ⟨action :: actions, List.forall_mem_cons.mpr ⟨drains, all⟩, runs⟩
      pushed := tail.pushed.trans kept }

theorem DrainsTo.trans (first : DrainsTo capacity state next)
    (second : DrainsTo capacity next last) : DrainsTo capacity state last := by
  rcases first.run with ⟨actions, all, ran⟩
  rcases second.run with ⟨actions', all', ran'⟩
  have every : ∀ action ∈ actions ++ actions', Drains action := by
    intro action member
    exact (List.mem_append.mp member).elim (all action) (all' action)
  exact
    { run := ⟨actions ++ actions', every, run_append ran ran'⟩
      pushed := second.pushed.trans first.pushed }

/-- A pop by a thread outside the queue takes the front item. -/
theorem exists_pop (capacity : Nat) {item : α} {rest : List α}
    (idle : state.phase thread = .idle) (front : state.queue = item :: rest) :
    ∃ wake next, state.step capacity (.pop thread wake) = some next ∧ next.queue = rest ∧
      next.phase thread = .idle ∧ pushedItems next.log = pushedItems state.log := by
  rcases state.cvNotFull.exists_notifyOne with ⟨wake, cvNotFull, woken⟩
  have stepped : state.step capacity (.pop thread wake) =
      some (({ state with
        queue := rest
        cvNotFull := cvNotFull }.setPhase thread .idle).record (.delivered thread item)) := by
    simp only [step, idle, popSection, front, takeFront, woken, Option.map_some]
  exact ⟨wake, _, stepped, rfl, phase_update_self, rfl⟩

/-- A thread outside the queue can empty it. -/
theorem drains_by (capacity : Nat) (idle : state.phase thread = .idle) :
    ∃ last, DrainsTo capacity state last ∧ last.queue = [] := by
  generalize contents : state.queue = items
  induction items generalizing state with
  | nil => exact ⟨state, .refl state, contents⟩
  | cons item rest ih =>
      rcases exists_pop capacity idle contents
        with ⟨wake, next, stepped, nextContents, nextIdle, kept⟩
      rcases ih nextIdle nextContents with ⟨last, drained, empty⟩
      exact ⟨last, .cons (.pop thread wake) trivial stepped kept drained, empty⟩

/-- A close that has one `notify_all` left can finish. -/
theorem exists_idle_of_closingNotFull (capacity : Nat)
    (closing : state.phase thread = .closingNotFull) :
    ∃ next, DrainsTo capacity state next ∧ next.phase thread = .idle := by
  have stepped : state.step capacity (.notifyAll thread) =
      some ({ state with cvNotFull := state.cvNotFull.notifyAll }.setPhase thread .idle) := by
    simp only [step, closing]
  exact ⟨_, .cons (.notifyAll thread) trivial stepped rfl (.refl _), phase_update_self⟩

/-- A close can finish. -/
theorem exists_idle_of_closing (capacity : Nat) (closing : state.phase thread = .closing) :
    ∃ next, DrainsTo capacity state next ∧ next.phase thread = .idle := by
  have stepped : state.step capacity (.notifyAll thread) =
      some ({ state with cvNotEmpty := state.cvNotEmpty.notifyAll }.setPhase thread
        .closingNotFull) := by
    simp only [step, closing]
  have second : ({ state with cvNotEmpty := state.cvNotEmpty.notifyAll }.setPhase thread
      .closingNotFull).phase thread = .closingNotFull := phase_update_self
  rcases exists_idle_of_closingNotFull capacity second with ⟨next, drained, idle⟩
  exact ⟨next, .cons (.notifyAll thread) trivial stepped rfl drained, idle⟩

/-- A woken producer of a closed queue gets out, with nothing pushed. -/
theorem exists_idle_of_pushing (capacity : Nat) {item : α}
    (pushing : state.phase thread = .pushing item) (closed : state.closed = true)
    {cvNotFull : CondVar τ} (left : state.cvNotFull.reacquire thread = some cvNotFull) :
    ∃ next, DrainsTo capacity state next ∧ next.phase thread = .idle := by
  have stepped : state.step capacity (.resume thread none) =
      some (({ state with cvNotFull := cvNotFull }.setPhase thread .idle).record
        (.refused thread item)) := by
    simp only [step, pushing, left, Option.bind_some, pushSection, closed, or_true, if_true]
  exact ⟨_, .cons (.resume thread none) trivial stepped rfl (.refl _), phase_update_self⟩

/-- A woken consumer of a closed queue gets out, with an item or without. -/
theorem exists_idle_of_popping (capacity : Nat) (popping : state.phase thread = .popping)
    (closed : state.closed = true) {cvNotEmpty : CondVar τ}
    (left : state.cvNotEmpty.reacquire thread = some cvNotEmpty) :
    ∃ next, DrainsTo capacity state next ∧ next.phase thread = .idle := by
  cases contents : state.queue with
  | nil =>
      have stepped : state.step capacity (.resume thread none) =
          some (({ state with cvNotEmpty := cvNotEmpty }.setPhase thread .idle).record
            (.ended thread)) := by
        simp only [step, popping, left, Option.bind_some, popSection, contents, closed, if_true]
      exact ⟨_, .cons (.resume thread none) trivial stepped rfl (.refl _), phase_update_self⟩
  | cons item rest =>
      rcases state.cvNotFull.exists_notifyOne with ⟨wake, cvNotFull, woken⟩
      have stepped : state.step capacity (.resume thread wake) =
          some (({ state with
            queue := rest
            cvNotFull := cvNotFull
            cvNotEmpty := cvNotEmpty }.setPhase thread .idle).record
              (.delivered thread item)) := by
        simp only [step, popping, left, Option.bind_some, popSection, contents, takeFront,
          woken, Option.map_some]
      exact ⟨_, .cons (.resume thread wake) trivial stepped rfl (.refl _), phase_update_self⟩

/-- In a closed queue, whatever one thread is doing, some thread can get out. -/
theorem exists_idle (capacity : Nat) (waits : Waits state) (closed : state.closed = true)
    (thread : τ) :
    ∃ next other, DrainsTo capacity state next ∧ next.phase other = .idle := by
  cases phase : state.phase thread with
  | idle => exact ⟨state, thread, .refl state, phase⟩
  | closing =>
      rcases exists_idle_of_closing capacity phase with ⟨next, drained, idle⟩
      exact ⟨next, thread, drained, idle⟩
  | closingNotFull =>
      rcases exists_idle_of_closingNotFull capacity phase with ⟨next, drained, idle⟩
      exact ⟨next, thread, drained, idle⟩
  | pushing item =>
      by_cases blocked : thread ∈ state.cvNotFull.waiting
      · rcases waits.notFull closed (List.ne_nil_of_mem blocked) with ⟨closer, first | second⟩
        · rcases exists_idle_of_closing capacity first with ⟨next, drained, idle⟩
          exact ⟨next, closer, drained, idle⟩
        · rcases exists_idle_of_closingNotFull capacity second with ⟨next, drained, idle⟩
          exact ⟨next, closer, drained, idle⟩
      · rcases CondVar.exists_reacquire (waits.pushing thread item phase) blocked
          with ⟨cvNotFull, left⟩
        rcases exists_idle_of_pushing capacity phase closed left with ⟨next, drained, idle⟩
        exact ⟨next, thread, drained, idle⟩
  | popping =>
      by_cases blocked : thread ∈ state.cvNotEmpty.waiting
      · rcases waits.notEmpty closed (List.ne_nil_of_mem blocked) with ⟨closer, closing⟩
        rcases exists_idle_of_closing capacity closing with ⟨next, drained, idle⟩
        exact ⟨next, closer, drained, idle⟩
      · rcases CondVar.exists_reacquire (waits.popping thread phase) blocked
          with ⟨cvNotEmpty, left⟩
        rcases exists_idle_of_popping capacity phase closed left with ⟨next, drained, idle⟩
        exact ⟨next, thread, drained, idle⟩

/-- What is in a closed queue can be taken out, whatever the threads are doing; in an
open one any thread outside can do it. -/
theorem exists_drained (reachable : Reachable (BlockingQueue.step capacity) {} state)
    (able : state.closed = true ∨ ∃ thread, state.phase thread = .idle) :
    ∃ last, DrainsTo capacity state last ∧ last.queue = [] := by
  cases able with
  | inl closed =>
      rcases (replays_of_reachable reachable).closed_iff.mp closed with ⟨closer, _⟩
      rcases exists_idle capacity (waits_of_reachable reachable) closed closer
        with ⟨next, other, drained, idle⟩
      rcases drains_by capacity idle with ⟨last, drained', empty⟩
      exact ⟨last, drained.trans drained', empty⟩
  | inr outside =>
      rcases outside with ⟨thread, idle⟩
      exact drains_by capacity idle

end Draining

end BlockingQueue

/-- The bound, the FIFO order and the shutdown of the queue, in every reachable
state: the contents fit the capacity and complete the deliveries to the pushes; no
push succeeds after a close; nothing is delivered after a pop has returned false, and
it returns false only when everything pushed has been delivered; the items still
inside can all be delivered, in order. -/
theorem bounded_fifo {τ α : Type} [DecidableEq τ] (capacity : Capacity)
    {state : BlockingQueue τ α}
    (reachable : Reachable (BlockingQueue.step capacity.val) {} state) :
    state.queue.length ≤ capacity.val ∧
    deliveredItems state.log ++ state.queue = pushedItems state.log ∧
    (∀ later thread item earlier, state.log = later ++ .pushed thread item :: earlier →
      ∀ closer, .closed closer ∉ earlier) ∧
    (∀ later thread item earlier, state.log = later ++ .delivered thread item :: earlier →
      ∀ consumer, .ended consumer ∉ earlier) ∧
    (∀ later consumer earlier, state.log = later ++ .ended consumer :: earlier →
      deliveredItems earlier = pushedItems earlier) ∧
    ((state.closed = true ∨ ∃ thread, state.phase thread = .idle) →
      ∃ actions last, (∀ action ∈ actions, BlockingQueue.Drains action) ∧
        run (BlockingQueue.step capacity.val) state actions = some last ∧
        deliveredItems last.log = deliveredItems state.log ++ state.queue) := by
  have history := BlockingQueue.replays_of_reachable reachable
  refine ⟨history.length_le, history.delivered_append_contents, ?_, ?_, ?_, ?_⟩
  · intro later thread item earlier split
    exact history.sound.allowed split
  · intro later thread item earlier split
    exact history.sound.allowed split
  · intro later consumer earlier split
    exact (history.sound.allowed split).2
  · intro able
    rcases BlockingQueue.exists_drained reachable able with ⟨last, drained, empty⟩
    rcases drained.run with ⟨actions, drains, ran⟩
    have balance := (BlockingQueue.replays_of_reachable
      (reachable.after ran)).delivered_append_contents
    simp only [BlockingQueue.view, empty, List.append_nil] at balance
    exact ⟨actions, last, drains, ran,
      (balance.trans drained.pushed).trans history.delivered_append_contents.symm⟩

/-- One item pushed into a queue of capacity one, and the queue closed: the item can
still be delivered. -/
theorem bounded_fifo_one :
    let state : BlockingQueue Bool Nat :=
      ((({ queue := [7] } : BlockingQueue Bool Nat).setPhase false .idle).record
        (.pushed false 7)).closeSection true
    ∃ actions last, (∀ action ∈ actions, BlockingQueue.Drains action) ∧
      run (BlockingQueue.step 1) state actions = some last ∧
      deliveredItems last.log = [7] :=
  (bounded_fifo ⟨1, Nat.one_pos⟩ ⟨[.push false 7 none, .close true], rfl⟩).2.2.2.2.2
    (Or.inl rfl)

end NcnnUpscaler.Queue
