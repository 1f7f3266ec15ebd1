import Mathlib.Algebra.Order.Ring.Int
import NcnnUpscaler.Queue.Wakeups

/-!
# Shutting the queue down

In a closed queue no operation waits any more.  A thread has at most two steps ahead of
it: one for which it has to be woken, and one out of its wait; or the two `notify_all` of
a close.
-/

namespace NcnnUpscaler.Queue

open NcnnUpscaler.Library

section Actions

variable {τ α : Type}

/-- The thread that acts. -/
def Action.thread : Action τ α → τ
  | .push thread _ _ => thread
  | .pop thread _ => thread
  | .tryPop thread _ => thread
  | .close thread => thread
  | .resume thread _ => thread
  | .notifyAll thread => thread
  | .spuriousWake thread => thread

variable [DecidableEq τ]

/-- The thread goes on with an operation it is in. -/
def Action.continues (thread : τ) : Action τ α → Bool
  | .resume other _ => other = thread
  | .notifyAll other => other = thread
  | .spuriousWake other => other = thread
  | _ => false

/-- The thread calls `close`. -/
def Action.closes (thread : τ) : Action τ α → Bool
  | .close other => other = thread
  | _ => false

end Actions

/-- How an operation that was in a wait has ended: a push with its item refused, a pop
with an item or with the end. -/
def Answered {τ α : Type} (thread : τ) (events : List (Event τ α)) : Phase α → Prop
  | .pushing item => .refused thread item ∈ events
  | .popping => .ended thread ∈ events ∨ ∃ item, .delivered thread item ∈ events
  | _ => True

theorem Answered.append {τ α : Type} {thread : τ} {events : List (Event τ α)}
    {phase : Phase α} (answered : Answered thread events phase)
    (later earlier : List (Event τ α)) :
    Answered thread (later ++ events ++ earlier) phase := by
  have kept {event : Event τ α} (member : event ∈ events) :
      event ∈ later ++ events ++ earlier :=
    List.mem_append_left _ (List.mem_append_right _ member)
  cases phase with
  | pushing item => exact kept answered
  | popping => exact answered.imp kept fun delivered => delivered.imp fun _ => kept
  | idle => trivial
  | closing => trivial
  | closingNotFull => trivial

namespace BlockingQueue

variable {τ α : Type} {thread : τ} {state next last : BlockingQueue τ α}

/-! ## What is left to do -/

section Ahead

variable [DecidableEq τ]

/-- The steps a thread of a closed queue has ahead of it at most. -/
def ahead (state : BlockingQueue τ α) (thread : τ) : Nat :=
  match state.phase thread with
  | .idle => 0
  | .pushing _ => if thread ∈ state.cvNotFull.waiting then 2 else 1
  | .popping => if thread ∈ state.cvNotEmpty.waiting then 2 else 1
  | .closing => 2
  | .closingNotFull => 1

theorem ahead_le_two (state : BlockingQueue τ α) (thread : τ) : state.ahead thread ≤ 2 := by
  simp only [ahead]
  split
  · omega
  · split <;> omega
  · split <;> omega
  · omega
  · omega

theorem ahead_pos (busy : state.phase thread ≠ .idle) : 1 ≤ state.ahead thread := by
  simp only [ahead]
  split
  · next idle => exact absurd idle busy
  · split <;> omega
  · split <;> omega
  · omega
  · omega

theorem ahead_idle (idle : state.phase thread = .idle) : state.ahead thread = 0 := by
  simp only [ahead, idle]

theorem ahead_pushing {item : α} (pushing : state.phase thread = .pushing item) :
    state.ahead thread = if thread ∈ state.cvNotFull.waiting then 2 else 1 := by
  simp only [ahead, pushing]

theorem ahead_popping (popping : state.phase thread = .popping) :
    state.ahead thread = if thread ∈ state.cvNotEmpty.waiting then 2 else 1 := by
  simp only [ahead, popping]

/-- A thread that stays where it is has no more ahead of it while others are woken. -/
theorem ahead_mono (phase : next.phase thread = state.phase thread)
    (notFull : next.cvNotFull.waiting ⊆ state.cvNotFull.waiting)
    (notEmpty : next.cvNotEmpty.waiting ⊆ state.cvNotEmpty.waiting) :
    next.ahead thread ≤ state.ahead thread := by
  simp only [ahead, phase]
  cases state.phase thread with
  | idle => exact Nat.le_refl _
  | closing => exact Nat.le_refl _
  | closingNotFull => exact Nat.le_refl _
  | pushing item =>
      by_cases blocked : thread ∈ next.cvNotFull.waiting
      · simp only [if_pos blocked, if_pos (notFull blocked), Nat.le_refl]
      · simp only [if_neg blocked]
        split <;> omega
  | popping =>
      by_cases blocked : thread ∈ next.cvNotEmpty.waiting
      · simp only [if_pos blocked, if_pos (notEmpty blocked), Nat.le_refl]
      · simp only [if_neg blocked]
        split <;> omega

end Ahead

/-! ## Steps of a closed queue -/

/-- A critical section of a closed queue ends the operation of its thread with an event. -/
structure Leaves [DecidableEq τ] (thread : τ) (event : Event τ α)
    (state next : BlockingQueue τ α) : Prop where
  closed : next.closed = true
  log : next.log = event :: state.log
  phase : next.phase = (state.setPhase thread .idle).phase
  notFull : next.cvNotFull.waiting ⊆ state.cvNotFull.waiting
  notEmpty : next.cvNotEmpty.waiting ⊆ state.cvNotEmpty.waiting

/-- Some steps of a closed queue: the events they add, none of them a push, what became of
the threads, and that nobody began to wait. -/
structure Unwinds (events : List (Event τ α)) (state next : BlockingQueue τ α) : Prop where
  closed : next.closed = true
  log : next.log = events ++ state.log
  unpushed : ∀ thread item, .pushed thread item ∉ events
  answered : ∀ thread, next.phase thread = state.phase thread ∨
    Answered thread events (state.phase thread)
  notFull : next.cvNotFull.waiting ⊆ state.cvNotFull.waiting
  notEmpty : next.cvNotEmpty.waiting ⊆ state.cvNotEmpty.waiting

theorem Unwinds.refl (closed : state.closed = true) : Unwinds [] state state where
  closed := closed
  log := rfl
  unpushed := fun _ _ => List.not_mem_nil
  answered := fun _ => .inl rfl
  notFull := List.Subset.refl _
  notEmpty := List.Subset.refl _

theorem Unwinds.trans {earlier later : List (Event τ α)} (first : Unwinds earlier state next)
    (second : Unwinds later next last) : Unwinds (later ++ earlier) state last where
  closed := second.closed
  log := by rw [second.log, first.log, List.append_assoc]
  unpushed := by
    intro thread item member
    exact (List.mem_append.mp member).elim (second.unpushed thread item)
      (first.unpushed thread item)
  answered := by
    intro thread
    rcases first.answered thread with stays | answered
    · rcases second.answered thread with still | after
      · exact .inl (still.trans stays)
      · rw [stays] at after
        exact .inr (after.append [] earlier)
    · have kept := answered.append later []
      rw [List.append_nil] at kept
      exact .inr kept
  notFull := List.Subset.trans second.notFull first.notFull
  notEmpty := List.Subset.trans second.notEmpty first.notEmpty

section Steps

variable [DecidableEq τ] {capacity : Nat} {wake : Option τ}

theorem Leaves.idle {event : Event τ α} (leaves : Leaves thread event state next) :
    next.phase thread = .idle := by
  rw [leaves.phase]
  exact phase_update_self

/-- Only the thread whose phase is set has to have been answered. -/
theorem answered_setPhase {events : List (Event τ α)} (phase : Phase α)
    (answered : Answered thread events (state.phase thread)) (other : τ) :
    (state.setPhase thread phase).phase other = state.phase other ∨
      Answered other events (state.phase other) := by
  by_cases same : other = thread
  · subst same
    exact .inr answered
  · exact .inl (phase_update_of_ne same)

theorem Leaves.unwinds {event : Event τ α} {entered : BlockingQueue τ α}
    (leaves : Leaves thread event entered next) (logEq : entered.log = state.log)
    (phaseEq : entered.phase = state.phase)
    (notFull : entered.cvNotFull.waiting = state.cvNotFull.waiting)
    (notEmpty : entered.cvNotEmpty.waiting = state.cvNotEmpty.waiting)
    (unpushed : ∀ other item, event ≠ .pushed other item)
    (answered : Answered thread [event] (state.phase thread)) :
    Unwinds [event] state next where
  closed := leaves.closed
  log := by rw [leaves.log, logEq, List.singleton_append]
  unpushed := by
    intro other item member
    exact unpushed other item (List.mem_singleton.mp member).symm
  answered := by
    intro other
    rw [← phaseEq] at answered ⊢
    rw [leaves.phase]
    exact answered_setPhase .idle answered other
  notFull := by
    rw [← notFull]
    exact leaves.notFull
  notEmpty := by
    rw [← notEmpty]
    exact leaves.notEmpty

theorem leaves_missed (closed : state.closed = true) :
    Leaves thread (.missed thread) state
      ((state.setPhase thread .idle).record (.missed thread)) :=
  ⟨closed, rfl, rfl, List.Subset.refl _, List.Subset.refl _⟩

theorem Pushes.leaves {item : α} (pushes : Pushes capacity thread item wake state next)
    (closed : state.closed = true) : Leaves thread (.refused thread item) state next := by
  cases pushes with
  | refused => exact ⟨closed, rfl, rfl, List.Subset.refl _, List.Subset.refl _⟩
  | enqueued opened => exact absurd (opened.symm.trans closed) Bool.false_ne_true
  | waits opened => exact absurd (opened.symm.trans closed) Bool.false_ne_true

theorem Takes.leaves (taken : Takes thread wake state next) (closed : state.closed = true) :
    ∃ item, Leaves thread (.delivered thread item) state next := by
  cases taken with
  | @front item _ _ _ woken =>
      exact ⟨item, closed, rfl, rfl, CondVar.waiting_notifyOne woken, List.Subset.refl _⟩

theorem Pops.leaves (pops : Pops thread wake state next) (closed : state.closed = true) :
    ∃ event, (event = .ended thread ∨ ∃ item, event = .delivered thread item) ∧
      Leaves thread event state next := by
  cases pops with
  | takes taken =>
      rcases taken.leaves closed with ⟨item, leaves⟩
      exact ⟨_, .inr ⟨item, rfl⟩, leaves⟩
  | ended =>
      exact ⟨_, .inl rfl, closed, rfl, rfl, List.Subset.refl _, List.Subset.refl _⟩
  | waits _ opened => exact absurd (opened.symm.trans closed) Bool.false_ne_true

/-- What a step of a closed queue can do to its threads. -/
theorem unwinds_of_step {action : Action τ α} (closed : state.closed = true)
    (stepped : state.step capacity action = some next) :
    ∃ events, Unwinds events state next := by
  cases moves_of_step stepped with
  | push idle pushes =>
      exact ⟨_, (pushes.leaves closed).unwinds rfl rfl rfl rfl (by simp) (by simp [idle, Answered])⟩
  | pop idle pops =>
      rcases pops.leaves closed with ⟨event, kind, leaves⟩
      refine ⟨_, leaves.unwinds rfl rfl rfl rfl ?_ (by simp [idle, Answered])⟩
      rcases kind with rfl | ⟨item, rfl⟩
      · simp
      · simp
  | tryPop idle taken =>
      rcases taken.leaves closed with ⟨item, leaves⟩
      exact ⟨_, leaves.unwinds rfl rfl rfl rfl (by simp) (by simp [idle, Answered])⟩
  | tryPopMissed idle =>
      exact ⟨_, (leaves_missed closed).unwinds rfl rfl rfl rfl (by simp)
        (by simp [idle, Answered])⟩
  | close idle =>
      exact ⟨[.closed _], rfl, rfl, by simp,
        answered_setPhase .closing (by simp [idle, Answered]), List.Subset.refl _,
        List.Subset.refl _⟩
  | resumePush pushing left pushes =>
      exact ⟨_, (pushes.leaves closed).unwinds rfl rfl (CondVar.waiting_reacquire left) rfl
        (by simp) (by simp [pushing, Answered])⟩
  | resumePop popping left pops =>
      rcases pops.leaves closed with ⟨event, kind, leaves⟩
      refine ⟨_, leaves.unwinds rfl rfl rfl (CondVar.waiting_reacquire left) ?_ ?_⟩
      · rcases kind with rfl | ⟨item, rfl⟩
        · simp
        · simp
      · rcases kind with rfl | ⟨item, rfl⟩
        · simp [popping, Answered]
        · simp [popping, Answered]
  | notifyNotEmpty closing =>
      exact ⟨[], closed, rfl, by simp,
        answered_setPhase .closingNotFull (by simp [closing, Answered]), List.Subset.refl _,
        List.nil_subset _⟩
  | notifyNotFull closing =>
      exact ⟨[], closed, rfl, by simp, answered_setPhase .idle (by simp [closing, Answered]),
        List.nil_subset _, List.Subset.refl _⟩
  | wakePush pushing woken =>
      exact ⟨[], closed, rfl, by simp, fun _ => .inl rfl, CondVar.waiting_wakeSpuriously woken,
        List.Subset.refl _⟩
  | wakePop popping woken =>
      exact ⟨[], closed, rfl, by simp, fun _ => .inl rfl, List.Subset.refl _,
        CondVar.waiting_wakeSpuriously woken⟩

/-- So do whole runs. -/
theorem unwinds_of_run {actions : List (Action τ α)} (closed : state.closed = true)
    (ran : run (step capacity) state actions = some last) :
    ∃ events, Unwinds events state last := by
  induction actions generalizing state with
  | nil =>
      cases ran
      exact ⟨[], .refl closed⟩
  | cons action rest ih =>
      rcases run_cons_eq_some ran with ⟨next, stepped, tail⟩
      rcases unwinds_of_step closed stepped with ⟨earlier, first⟩
      rcases ih first.closed tail with ⟨later, others⟩
      exact ⟨later ++ earlier, first.trans others⟩

theorem Pushes.phase {item : α} {other : τ}
    (pushes : Pushes capacity thread item wake state next) (differs : other ≠ thread) :
    next.phase other = state.phase other := by
  cases pushes with
  | refused => exact phase_update_of_ne differs
  | enqueued => exact phase_update_of_ne differs
  | waits => exact phase_update_of_ne differs

theorem Takes.phase {other : τ} (taken : Takes thread wake state next)
    (differs : other ≠ thread) : next.phase other = state.phase other := by
  cases taken with
  | front => exact phase_update_of_ne differs

theorem Pops.phase {other : τ} (pops : Pops thread wake state next) (differs : other ≠ thread) :
    next.phase other = state.phase other := by
  cases pops with
  | takes taken => exact taken.phase differs
  | ended => exact phase_update_of_ne differs
  | waits => exact phase_update_of_ne differs

/-- A step leaves the other threads in their phases. -/
theorem phase_of_step {action : Action τ α} (stepped : state.step capacity action = some next)
    {other : τ} (differs : other ≠ action.thread) : next.phase other = state.phase other := by
  cases moves_of_step stepped with
  | push _ pushes => exact pushes.phase differs
  | pop _ pops => exact pops.phase differs
  | tryPop _ taken => exact taken.phase differs
  | tryPopMissed => exact phase_update_of_ne differs
  | close => exact phase_update_of_ne differs
  | resumePush _ _ pushes => exact pushes.phase differs
  | resumePop _ _ pops => exact pops.phase differs
  | notifyNotEmpty => exact phase_update_of_ne differs
  | notifyNotFull => exact phase_update_of_ne differs
  | wakePush => rfl
  | wakePop => rfl

/-- A thread that is not the one to act does not go on, and does not close. -/
theorem continues_other {action : Action τ α} (differs : thread ≠ action.thread) :
    action.continues thread = false := by
  cases action with
  | resume => exact decide_eq_false differs.symm
  | notifyAll => exact decide_eq_false differs.symm
  | spuriousWake => exact decide_eq_false differs.symm
  | _ => rfl

/-- A call in a closed queue ends at once, but for one of `close`. -/
theorem ahead_called {action : Action τ α} (closed : state.closed = true)
    (stepped : state.step capacity action = some next)
    (calls : action.continues action.thread = false) :
    next.ahead action.thread ≤ 2 * (if action.closes action.thread then 1 else 0) := by
  have ends {event : Event τ α} (leaves : Leaves action.thread event state next) :
      next.ahead action.thread ≤ 2 * (if action.closes action.thread then 1 else 0) := by
    rw [ahead_idle leaves.idle]
    exact Nat.zero_le _
  cases moves_of_step stepped with
  | push _ pushes => exact ends (pushes.leaves closed)
  | pop _ pops =>
      rcases pops.leaves closed with ⟨event, _, leaves⟩
      exact ends leaves
  | tryPop _ taken =>
      rcases taken.leaves closed with ⟨item, leaves⟩
      exact ends leaves
  | tryPopMissed => exact ends (leaves_missed closed)
  | close =>
      rw [Action.closes, Action.thread, decide_eq_true rfl, if_pos rfl]
      exact ahead_le_two _ _
  | resumePush => simp [Action.continues, Action.thread] at calls
  | resumePop => simp [Action.continues, Action.thread] at calls
  | notifyNotEmpty => simp [Action.continues, Action.thread] at calls
  | notifyNotFull => simp [Action.continues, Action.thread] at calls
  | wakePush => simp [Action.continues, Action.thread] at calls
  | wakePop => simp [Action.continues, Action.thread] at calls

/-- Going on with an operation takes a thread one step further. -/
theorem ahead_continued {action : Action τ α} (placed : Placed state)
    (closed : state.closed = true) (stepped : state.step capacity action = some next)
    (continues : action.continues action.thread = true) :
    next.ahead action.thread + 1 ≤ state.ahead action.thread := by
  have ends (busy : state.phase action.thread ≠ .idle) (idle : next.phase action.thread = .idle) :
      next.ahead action.thread + 1 ≤ state.ahead action.thread := by
    rw [ahead_idle idle]
    exact ahead_pos busy
  cases moves_of_step stepped with
  | push => cases continues
  | pop => cases continues
  | tryPop => cases continues
  | tryPopMissed => cases continues
  | close => cases continues
  | resumePush pushing _ pushes =>
      exact ends (by simp [Action.thread, pushing]) (pushes.leaves closed).idle
  | resumePop popping _ pops =>
      rcases pops.leaves closed with ⟨event, _, leaves⟩
      exact ends (by simp [Action.thread, popping]) leaves.idle
  | notifyNotEmpty closing =>
      simp only [ahead, Action.thread, closing, phase_update_self, Nat.le_refl]
  | notifyNotFull closing =>
      simp only [ahead, Action.thread, closing, phase_update_self, Nat.le_refl]
  | @wakePush thread item pushing cvNotFull woken =>
      have stays : { state with cvNotFull := cvNotFull }.phase thread = .pushing item := pushing
      rcases CondVar.wakeSpuriously_cases woken with ⟨blocked, wokenEq⟩
      have free : thread ∉ cvNotFull.waiting := by
        rw [wokenEq]
        exact (List.nodup_append.mp placed.notFullNodup).1.not_mem_erase
      simp only [Action.thread]
      rw [ahead_pushing pushing, if_pos blocked, ahead_pushing stays, if_neg free]
  | @wakePop thread popping cvNotEmpty woken =>
      have stays : { state with cvNotEmpty := cvNotEmpty }.phase thread = .popping := popping
      rcases CondVar.wakeSpuriously_cases woken with ⟨blocked, wokenEq⟩
      have free : thread ∉ cvNotEmpty.waiting := by
        rw [wokenEq]
        exact (List.nodup_append.mp placed.notEmptyNodup).1.not_mem_erase
      simp only [Action.thread]
      rw [ahead_popping popping, if_pos blocked, ahead_popping stays, if_neg free]

/-- A thread takes the steps it has ahead of it, and only a call of `close` gives it more. -/
theorem ahead_step {action : Action τ α} (placed : Placed state) (closed : state.closed = true)
    (stepped : state.step capacity action = some next) (thread : τ) :
    (if action.continues thread then 1 else 0) + next.ahead thread ≤
      state.ahead thread + 2 * (if action.closes thread then 1 else 0) := by
  by_cases acts : thread = action.thread
  · subst acts
    by_cases continues : action.continues action.thread = true
    · have further := ahead_continued placed closed stepped continues
      rw [if_pos continues]
      omega
    · have called := ahead_called closed stepped (Bool.eq_false_iff.mpr continues)
      rw [if_neg continues]
      omega
  · rcases unwinds_of_step closed stepped with ⟨events, unwinds⟩
    have stays := ahead_mono (phase_of_step stepped acts) unwinds.notFull unwinds.notEmpty
    rw [continues_other acts]
    simp only [Bool.false_eq_true, if_false]
    omega

/-- In a run of a closed queue a thread takes no more steps than it has ahead of it and is
given by its calls of `close`. -/
theorem spent_of_run {actions : List (Action τ α)}
    (reachable : Reachable (BlockingQueue.step capacity) {} state) (closed : state.closed = true)
    (ran : run (BlockingQueue.step capacity) state actions = some last) (thread : τ) :
    actions.countP (Action.continues thread) + last.ahead thread ≤
      state.ahead thread + 2 * actions.countP (Action.closes thread) := by
  refine @run_countP_le _ _ (BlockingQueue.step capacity)
    (fun state => Placed state ∧ state.closed = true) (fun state => state.ahead thread) _ _ 2
    ?_ ?_ _ _ _ ⟨placed_of_reachable reachable, closed⟩ ran
  · intro before action after holds stepped
    rcases unwinds_of_step holds.2 stepped with ⟨events, unwinds⟩
    exact ⟨holds.1.step stepped, unwinds.closed⟩
  · intro before action after holds stepped
    exact ahead_step holds.1 holds.2 stepped thread

/-- A producer that is not blocked can have the mutex and test its predicate again. -/
theorem Placed.moving_of_pushing (placed : Placed state) (waits : Waits state) (capacity : Nat)
    {item : α} (pushing : state.phase thread = .pushing item)
    (free : thread ∉ state.cvNotFull.waiting) : state.Moving capacity thread := by
  refine ⟨by simp [pushing], ?_, .inl ?_⟩
  · intro blocked
    rcases blocked with full | empty
    · exact free full
    · have popping := placed.popping thread (CondVar.mem_inside.mpr (.inl empty))
      rw [pushing] at popping
      cases popping
  · rcases CondVar.exists_reacquire (waits.pushing thread item pushing) free
      with ⟨cvNotFull, left⟩
    rcases exists_pushSection thread { state with cvNotFull := cvNotFull } capacity item
      with ⟨wake, next, pushed⟩
    refine ⟨wake, next, ?_⟩
    simp only [BlockingQueue.step, pushing, left, Option.bind_some, pushed]

/-- So can a consumer. -/
theorem Placed.moving_of_popping (placed : Placed state) (waits : Waits state) (capacity : Nat)
    (popping : state.phase thread = .popping) (free : thread ∉ state.cvNotEmpty.waiting) :
    state.Moving capacity thread := by
  refine ⟨by simp [popping], ?_, .inl ?_⟩
  · intro blocked
    rcases blocked with full | empty
    · rcases placed.pushing thread (CondVar.mem_inside.mpr (.inl full)) with ⟨item, pushing⟩
      rw [popping] at pushing
      cases pushing
    · exact free empty
  · rcases CondVar.exists_reacquire (waits.popping thread popping) free
      with ⟨cvNotEmpty, left⟩
    rcases exists_popSection thread { state with cvNotEmpty := cvNotEmpty }
      with ⟨wake, next, popped⟩
    refine ⟨wake, next, ?_⟩
    simp only [BlockingQueue.step, popping, left, Option.bind_some, popped]

/-- In a closed queue, whoever is in an operation, some thread can take its next step. -/
theorem exists_moving_of_closed (reachable : Reachable (BlockingQueue.step capacity) {} state)
    (closed : state.closed = true) (busy : state.phase thread ≠ .idle) :
    ∃ other, state.Moving capacity other := by
  have placed := placed_of_reachable reachable
  have waits := waits_of_reachable reachable
  have closing {closer : τ}
      (closing : state.phase closer = .closing ∨ state.phase closer = .closingNotFull) :
      ∃ other, state.Moving capacity other :=
    ⟨closer, placed.moving_of_closing capacity closing⟩
  cases phase : state.phase thread with
  | idle => exact absurd phase busy
  | closing => exact closing (.inl phase)
  | closingNotFull => exact closing (.inr phase)
  | pushing item =>
      by_cases blocked : thread ∈ state.cvNotFull.waiting
      · rcases waits.notFull closed (List.ne_nil_of_mem blocked) with ⟨closer, notifies⟩
        exact closing notifies
      · exact ⟨thread, placed.moving_of_pushing waits capacity phase blocked⟩
  | popping =>
      by_cases blocked : thread ∈ state.cvNotEmpty.waiting
      · rcases waits.notEmpty closed (List.ne_nil_of_mem blocked) with ⟨closer, notifies⟩
        exact closing (.inl notifies)
      · exact ⟨thread, placed.moving_of_popping waits capacity phase blocked⟩

end Steps

end BlockingQueue

/-- Once the queue is closed it lets every thread go, in every run and with any calls on the
way: a thread takes at most two steps of the operation it is in, and two for each `close`
it calls; nothing is pushed; a push that was waiting ends with its item refused and a pop
with an item or the end; and as long as some thread is in an operation, one of them can
take its next step without a spurious wake-up. -/
theorem close_releases {τ α : Type} [DecidableEq τ] (capacity : Capacity)
    {state last : BlockingQueue τ α} {actions : List (Action τ α)}
    (reachable : Reachable (BlockingQueue.step capacity.val) {} state)
    (closed : state.closed = true)
    (ran : run (BlockingQueue.step capacity.val) state actions = some last) :
    (∀ thread, actions.countP (Action.continues thread) ≤
      2 + 2 * actions.countP (Action.closes thread)) ∧
    (∃ events, last.log = events ++ state.log ∧
      (∀ thread item, .pushed thread item ∉ events) ∧
      ∀ thread, last.phase thread = state.phase thread ∨
        Answered thread events (state.phase thread)) ∧
    ((∃ thread, last.phase thread ≠ .idle) → ∃ other, last.Moving capacity.val other) := by
  rcases BlockingQueue.unwinds_of_run closed ran with ⟨events, unwinds⟩
  refine ⟨?_, ⟨events, unwinds.log, unwinds.unpushed, unwinds.answered⟩, ?_⟩
  · intro thread
    have spent := BlockingQueue.spent_of_run reachable closed ran thread
    have most := state.ahead_le_two thread
    omega
  · intro busy
    rcases busy with ⟨thread, busy⟩
    exact BlockingQueue.exists_moving_of_closed (reachable.after ran) unwinds.closed busy

/-- A consumer waits and the queue is closed: it comes out, here before the close is done. -/
theorem close_releases_consumer :
    ∃ state last : BlockingQueue Nat Nat,
      run (BlockingQueue.step 1) {} [.pop 0 none, .close 1] = some state ∧
        run (BlockingQueue.step 1) state [.notifyAll 1, .resume 0 none] = some last ∧
        (∃ events, last.log = events ++ state.log ∧
          (∀ thread item, .pushed thread item ∉ events) ∧
          ∀ thread, last.phase thread = state.phase thread ∨
            Answered thread events (state.phase thread)) ∧
        ∃ other, last.Moving 1 other := by
  refine ⟨_, _, rfl, rfl, ?_⟩
  have releases := close_releases ⟨1, Nat.one_pos⟩
    (⟨[.pop 0 none, .close 1], rfl⟩ :
      @Reachable (BlockingQueue Nat Nat) _ (BlockingQueue.step 1) {} _) rfl
    (rfl : run (BlockingQueue.step 1) _ [.notifyAll 1, .resume 0 none] = some _)
  exact ⟨releases.2.1, releases.2.2 ⟨1, by decide⟩⟩

end NcnnUpscaler.Queue
