import Mathlib.Logic.Function.Basic
import NcnnUpscaler.Library.CondVar
import NcnnUpscaler.Library.Transition
import NcnnUpscaler.Queue.Channel

/-!
# BoundedBlockingQueue

`BoundedBlockingQueue<T>` under any number of threads.  One step is one critical
section, one `notify_all` of a `close`, or one spurious wake-up; an action names the
thread that takes it and, where it may notify, the waiter that is woken.
-/

namespace NcnnUpscaler.Queue

open NcnnUpscaler.Library

/-- A capacity the constructor lets through. -/
abbrev Capacity := { capacity : Nat // 0 < capacity }

/-- The constructor's check. -/
def Capacity.make (capacity : Nat) : Except String Capacity :=
  if positive : 0 < capacity then
    .ok ⟨capacity, positive⟩
  else
    .error "BoundedBlockingQueue capacity must be > 0"

/-- Where a thread is in its use of the queue: outside, in the wait of a push or a
pop, or in a `close` before its first or its second `notify_all`. -/
inductive Phase (α : Type) where
  | idle
  | pushing (item : α)
  | popping
  | closing
  | closingNotFull
  deriving DecidableEq, Repr

/-- The members of the queue, the phases of its threads and the events so far, the
latest first. -/
structure BlockingQueue (τ α : Type) where
  queue : List α := []
  closed : Bool := false
  cvNotFull : CondVar τ := {}
  cvNotEmpty : CondVar τ := {}
  phase : τ → Phase α := fun _ => .idle
  log : List (Event τ α) := []

/-- What a thread may do next. -/
inductive Action (τ α : Type) where
  | push (thread : τ) (item : α) (wake : Option τ)
  | pop (thread : τ) (wake : Option τ)
  | tryPop (thread : τ) (wake : Option τ)
  | close (thread : τ)
  | resume (thread : τ) (wake : Option τ)
  | notifyAll (thread : τ)
  | spuriousWake (thread : τ)
  deriving DecidableEq, Repr

namespace BlockingQueue

variable {τ α : Type} [DecidableEq τ]

def setPhase (thread : τ) (phase : Phase α) (state : BlockingQueue τ α) :
    BlockingQueue τ α :=
  { state with phase := Function.update state.phase thread phase }

def record (event : Event τ α) (state : BlockingQueue τ α) : BlockingQueue τ α :=
  { state with log := event :: state.log }

/-! ## Critical sections -/

/-- `push` from the test of its predicate, up to the end or the next wait. -/
def pushSection (capacity : Nat) (thread : τ) (item : α) (wake : Option τ)
    (state : BlockingQueue τ α) : Option (BlockingQueue τ α) :=
  if state.queue.length < capacity ∨ state.closed then
    if state.closed then
      some ((state.setPhase thread .idle).record (.refused thread item))
    else
      (state.cvNotEmpty.notifyOne wake).map fun cvNotEmpty =>
        ({ state with
          queue := state.queue ++ [item]
          cvNotEmpty := cvNotEmpty }.setPhase thread .idle).record (.pushed thread item)
  else
    some ({ state with cvNotFull := state.cvNotFull.wait thread }.setPhase thread
      (.pushing item))

/-- Take the front of the queue and notify a producer. -/
def takeFront (thread : τ) (item : α) (rest : List α) (wake : Option τ)
    (state : BlockingQueue τ α) : Option (BlockingQueue τ α) :=
  (state.cvNotFull.notifyOne wake).map fun cvNotFull =>
    ({ state with
      queue := rest
      cvNotFull := cvNotFull }.setPhase thread .idle).record (.delivered thread item)

/-- `pop` from the test of its predicate, up to the end or the next wait. -/
def popSection (thread : τ) (wake : Option τ) (state : BlockingQueue τ α) :
    Option (BlockingQueue τ α) :=
  match state.queue with
  | item :: rest => state.takeFront thread item rest wake
  | [] =>
      if state.closed then
        some ((state.setPhase thread .idle).record (.ended thread))
      else
        some ({ state with cvNotEmpty := state.cvNotEmpty.wait thread }.setPhase thread
          .popping)

/-- `try_pop`. -/
def tryPopSection (thread : τ) (wake : Option τ) (state : BlockingQueue τ α) :
    Option (BlockingQueue τ α) :=
  match state.queue with
  | item :: rest => state.takeFront thread item rest wake
  | [] => some ((state.setPhase thread .idle).record (.missed thread))

/-- The critical section of `close`. -/
def closeSection (thread : τ) (state : BlockingQueue τ α) : BlockingQueue τ α :=
  ({ state with closed := true }.setPhase thread .closing).record (.closed thread)

/-- One step, when the action is possible. -/
def step (capacity : Nat) (state : BlockingQueue τ α) :
    Action τ α → Option (BlockingQueue τ α)
  | .push thread item wake =>
      match state.phase thread with
      | .idle => state.pushSection capacity thread item wake
      | _ => none
  | .pop thread wake =>
      match state.phase thread with
      | .idle => state.popSection thread wake
      | _ => none
  | .tryPop thread wake =>
      match state.phase thread with
      | .idle => state.tryPopSection thread wake
      | _ => none
  | .close thread =>
      match state.phase thread with
      | .idle => some (state.closeSection thread)
      | _ => none
  | .resume thread wake =>
      match state.phase thread with
      | .pushing item =>
          (state.cvNotFull.reacquire thread).bind fun cvNotFull =>
            { state with cvNotFull := cvNotFull }.pushSection capacity thread item wake
      | .popping =>
          (state.cvNotEmpty.reacquire thread).bind fun cvNotEmpty =>
            { state with cvNotEmpty := cvNotEmpty }.popSection thread wake
      | _ => none
  | .notifyAll thread =>
      match state.phase thread with
      | .closing =>
          some ({ state with cvNotEmpty := state.cvNotEmpty.notifyAll }.setPhase thread
            .closingNotFull)
      | .closingNotFull =>
          some ({ state with cvNotFull := state.cvNotFull.notifyAll }.setPhase thread .idle)
      | _ => none
  | .spuriousWake thread =>
      match state.phase thread with
      | .pushing _ =>
          (state.cvNotFull.wakeSpuriously thread).map fun cvNotFull =>
            { state with cvNotFull := cvNotFull }
      | .popping =>
          (state.cvNotEmpty.wakeSpuriously thread).map fun cvNotEmpty =>
            { state with cvNotEmpty := cvNotEmpty }
      | _ => none

/-! ## What a step can do -/

/-- The outcomes of a push's critical section. -/
inductive Pushes (capacity : Nat) (thread : τ) (item : α) (wake : Option τ)
    (state : BlockingQueue τ α) : BlockingQueue τ α → Prop where
  | refused (closed : state.closed = true) :
      Pushes capacity thread item wake state
        ((state.setPhase thread .idle).record (.refused thread item))
  | enqueued (opened : state.closed = false) (room : state.queue.length < capacity)
      {cvNotEmpty : CondVar τ} (woken : state.cvNotEmpty.notifyOne wake = some cvNotEmpty) :
      Pushes capacity thread item wake state
        (({ state with
          queue := state.queue ++ [item]
          cvNotEmpty := cvNotEmpty }.setPhase thread .idle).record (.pushed thread item))
  | waits (opened : state.closed = false) (full : capacity ≤ state.queue.length) :
      Pushes capacity thread item wake state
        ({ state with cvNotFull := state.cvNotFull.wait thread }.setPhase thread
          (.pushing item))

/-- Taking the front of the queue. -/
inductive Takes (thread : τ) (wake : Option τ) (state : BlockingQueue τ α) :
    BlockingQueue τ α → Prop where
  | front {item : α} {rest : List α} (front : state.queue = item :: rest)
      {cvNotFull : CondVar τ} (woken : state.cvNotFull.notifyOne wake = some cvNotFull) :
      Takes thread wake state
        (({ state with
          queue := rest
          cvNotFull := cvNotFull }.setPhase thread .idle).record (.delivered thread item))

/-- The outcomes of a pop's critical section. -/
inductive Pops (thread : τ) (wake : Option τ) (state : BlockingQueue τ α) :
    BlockingQueue τ α → Prop where
  | takes {next : BlockingQueue τ α} (taken : Takes thread wake state next) :
      Pops thread wake state next
  | ended (empty : state.queue = []) (closed : state.closed = true) :
      Pops thread wake state ((state.setPhase thread .idle).record (.ended thread))
  | waits (empty : state.queue = []) (opened : state.closed = false) :
      Pops thread wake state
        ({ state with cvNotEmpty := state.cvNotEmpty.wait thread }.setPhase thread .popping)

/-- The steps, with the phase each one starts from. -/
inductive Moves (capacity : Nat) (state : BlockingQueue τ α) :
    Action τ α → BlockingQueue τ α → Prop where
  | push {thread : τ} {item : α} {wake : Option τ} {next : BlockingQueue τ α}
      (idle : state.phase thread = .idle) (pushes : Pushes capacity thread item wake state next) :
      Moves capacity state (.push thread item wake) next
  | pop {thread : τ} {wake : Option τ} {next : BlockingQueue τ α}
      (idle : state.phase thread = .idle) (pops : Pops thread wake state next) :
      Moves capacity state (.pop thread wake) next
  | tryPop {thread : τ} {wake : Option τ} {next : BlockingQueue τ α}
      (idle : state.phase thread = .idle) (taken : Takes thread wake state next) :
      Moves capacity state (.tryPop thread wake) next
  | tryPopMissed {thread : τ} {wake : Option τ} (idle : state.phase thread = .idle)
      (empty : state.queue = []) :
      Moves capacity state (.tryPop thread wake)
        ((state.setPhase thread .idle).record (.missed thread))
  | close {thread : τ} (idle : state.phase thread = .idle) :
      Moves capacity state (.close thread) (state.closeSection thread)
  | resumePush {thread : τ} {item : α} {wake : Option τ} {next : BlockingQueue τ α}
      (pushing : state.phase thread = .pushing item) {cvNotFull : CondVar τ}
      (left : state.cvNotFull.reacquire thread = some cvNotFull)
      (pushes : Pushes capacity thread item wake { state with cvNotFull := cvNotFull } next) :
      Moves capacity state (.resume thread wake) next
  | resumePop {thread : τ} {wake : Option τ} {next : BlockingQueue τ α}
      (popping : state.phase thread = .popping) {cvNotEmpty : CondVar τ}
      (left : state.cvNotEmpty.reacquire thread = some cvNotEmpty)
      (pops : Pops thread wake { state with cvNotEmpty := cvNotEmpty } next) :
      Moves capacity state (.resume thread wake) next
  | notifyNotEmpty {thread : τ} (closing : state.phase thread = .closing) :
      Moves capacity state (.notifyAll thread)
        ({ state with cvNotEmpty := state.cvNotEmpty.notifyAll }.setPhase thread
          .closingNotFull)
  | notifyNotFull {thread : τ} (closing : state.phase thread = .closingNotFull) :
      Moves capacity state (.notifyAll thread)
        ({ state with cvNotFull := state.cvNotFull.notifyAll }.setPhase thread .idle)
  | wakePush {thread : τ} {item : α} (pushing : state.phase thread = .pushing item)
      {cvNotFull : CondVar τ}
      (woken : state.cvNotFull.wakeSpuriously thread = some cvNotFull) :
      Moves capacity state (.spuriousWake thread) { state with cvNotFull := cvNotFull }
  | wakePop {thread : τ} (popping : state.phase thread = .popping)
      {cvNotEmpty : CondVar τ}
      (woken : state.cvNotEmpty.wakeSpuriously thread = some cvNotEmpty) :
      Moves capacity state (.spuriousWake thread) { state with cvNotEmpty := cvNotEmpty }

section Cases

variable {capacity : Nat} {thread : τ} {item : α} {wake : Option τ}
  {state next : BlockingQueue τ α}

theorem pushes_of_section
    (pushed : state.pushSection capacity thread item wake = some next) :
    Pushes capacity thread item wake state next := by
  simp only [pushSection] at pushed
  split at pushed
  · next ready =>
      split at pushed
      · next closed =>
          cases pushed
          exact .refused closed
      · next opened =>
          rcases Option.map_eq_some_iff.mp pushed with ⟨cvNotEmpty, woken, same⟩
          subst same
          exact .enqueued (Bool.eq_false_iff.mpr opened) (ready.resolve_right opened) woken
  · next full =>
      cases pushed
      exact .waits (Bool.eq_false_iff.mpr (not_or.mp full).2) (Nat.le_of_not_lt (not_or.mp full).1)

theorem takes_of_section {rest : List α} (front : state.queue = item :: rest)
    (taken : state.takeFront thread item rest wake = some next) :
    Takes thread wake state next := by
  rcases Option.map_eq_some_iff.mp taken with ⟨cvNotFull, woken, same⟩
  subst same
  exact .front front woken

theorem pops_of_section (popped : state.popSection thread wake = some next) :
    Pops thread wake state next := by
  simp only [popSection] at popped
  split at popped
  · next item rest front => exact .takes (takes_of_section front popped)
  · next empty =>
      split at popped
      · next closed =>
          cases popped
          exact .ended empty closed
      · next opened =>
          cases popped
          exact .waits empty (Bool.eq_false_iff.mpr opened)

/-- Every step is one of the moves. -/
theorem moves_of_step {action : Action τ α} (stepped : state.step capacity action = some next) :
    Moves capacity state action next := by
  cases action with
  | push thread item wake =>
      simp only [step] at stepped
      split at stepped
      · next idle => exact .push idle (pushes_of_section stepped)
      · cases stepped
  | pop thread wake =>
      simp only [step] at stepped
      split at stepped
      · next idle => exact .pop idle (pops_of_section stepped)
      · cases stepped
  | tryPop thread wake =>
      simp only [step] at stepped
      split at stepped
      · next idle =>
          simp only [tryPopSection] at stepped
          split at stepped
          · next item rest front => exact .tryPop idle (takes_of_section front stepped)
          · next empty =>
              cases stepped
              exact .tryPopMissed idle empty
      · cases stepped
  | close thread =>
      simp only [step] at stepped
      split at stepped
      · next idle =>
          cases stepped
          exact .close idle
      · cases stepped
  | resume thread wake =>
      simp only [step] at stepped
      split at stepped
      · next item pushing =>
          rcases Option.bind_eq_some_iff.mp stepped with ⟨cvNotFull, left, pushed⟩
          exact .resumePush pushing left (pushes_of_section pushed)
      · next popping =>
          rcases Option.bind_eq_some_iff.mp stepped with ⟨cvNotEmpty, left, popped⟩
          exact .resumePop popping left (pops_of_section popped)
      · cases stepped
  | notifyAll thread =>
      simp only [step] at stepped
      split at stepped
      · next closing =>
          cases stepped
          exact .notifyNotEmpty closing
      · next closing =>
          cases stepped
          exact .notifyNotFull closing
      · cases stepped
  | spuriousWake thread =>
      simp only [step] at stepped
      split at stepped
      · next item pushing =>
          rcases Option.map_eq_some_iff.mp stepped with ⟨cvNotFull, woken, same⟩
          subst same
          exact .wakePush pushing woken
      · next popping =>
          rcases Option.map_eq_some_iff.mp stepped with ⟨cvNotEmpty, woken, same⟩
          subst same
          exact .wakePop popping woken
      · cases stepped

end Cases

end BlockingQueue

end NcnnUpscaler.Queue
