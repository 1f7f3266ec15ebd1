import NcnnUpscaler.Queue.Waits

/-!
# No lost wake-up

In an open queue every item is matched by a consumer that is not blocked on
`cv_not_empty_` or by a notification on its way to one, and every free slot likewise
on the other side.  In a closed queue the `notify_all` of a close is still ahead of
whoever is blocked.
-/

namespace NcnnUpscaler.Queue

open NcnnUpscaler.Library

namespace BlockingQueue

variable {τ α : Type} {thread : τ} {capacity : Nat} {state next : BlockingQueue τ α}

/-! ## Places -/

/-- A thread inside a condition variable is there once, and its phase says so. -/
structure Placed (state : BlockingQueue τ α) : Prop where
  pushing : ∀ other ∈ state.cvNotFull.inside, ∃ item, state.phase other = .pushing item
  popping : ∀ other ∈ state.cvNotEmpty.inside, state.phase other = .popping
  notFullNodup : state.cvNotFull.inside.Nodup
  notEmptyNodup : state.cvNotEmpty.inside.Nodup

/-- The same, with a thread that is in none of the waits. -/
structure PlacedBut (thread : τ) (state : BlockingQueue τ α) : Prop extends Placed state where
  notPushing : thread ∉ state.cvNotFull.inside
  notPopping : thread ∉ state.cvNotEmpty.inside

theorem Placed.enter (placed : Placed state)
    (notPushing : ∀ item, state.phase thread ≠ .pushing item)
    (notPopping : state.phase thread ≠ .popping) : PlacedBut thread state where
  toPlaced := placed
  notPushing := by
    intro member
    rcases placed.pushing thread member with ⟨item, pushing⟩
    exact notPushing item pushing
  notPopping := fun member => notPopping (placed.popping thread member)

theorem Placed.enterIdle (placed : Placed state) (idle : state.phase thread = .idle) :
    PlacedBut thread state :=
  placed.enter (by simp [idle]) (by simp [idle])

/-- A woken producer has the mutex again. -/
theorem Placed.resumePush [DecidableEq τ] (placed : Placed state) {item : α}
    (pushing : state.phase thread = .pushing item) {cvNotFull : CondVar τ}
    (left : state.cvNotFull.reacquire thread = some cvNotFull) :
    PlacedBut thread { state with cvNotFull := cvNotFull } := by
  have members := CondVar.inside_reacquire left
  have nodup := members.nodup_iff.mp placed.notFullNodup
  exact
    { pushing := fun other member =>
        placed.pushing other (members.symm.subset (List.mem_cons_of_mem _ member))
      popping := placed.popping
      notFullNodup := (List.nodup_cons.mp nodup).2
      notEmptyNodup := placed.notEmptyNodup
      notPushing := (List.nodup_cons.mp nodup).1
      notPopping := by
        intro member
        have popping := placed.popping thread member
        rw [pushing] at popping
        cases popping }

/-- A woken consumer has the mutex again. -/
theorem Placed.resumePop [DecidableEq τ] (placed : Placed state)
    (popping : state.phase thread = .popping) {cvNotEmpty : CondVar τ}
    (left : state.cvNotEmpty.reacquire thread = some cvNotEmpty) :
    PlacedBut thread { state with cvNotEmpty := cvNotEmpty } := by
  have members := CondVar.inside_reacquire left
  have nodup := members.nodup_iff.mp placed.notEmptyNodup
  exact
    { pushing := placed.pushing
      popping := fun other member =>
        placed.popping other (members.symm.subset (List.mem_cons_of_mem _ member))
      notFullNodup := placed.notFullNodup
      notEmptyNodup := (List.nodup_cons.mp nodup).2
      notPushing := by
        intro member
        rcases placed.pushing thread member with ⟨item, pushing⟩
        rw [popping] at pushing
        cases pushing
      notPopping := (List.nodup_cons.mp nodup).1 }

variable [DecidableEq τ]

/-- A step of the thread that leaves it outside of the waits. -/
theorem PlacedBut.leave (placed : PlacedBut thread state) {phase : Phase α}
    (phaseEq : next.phase = (state.setPhase thread phase).phase)
    (notFull : next.cvNotFull.inside.Perm state.cvNotFull.inside)
    (notEmpty : next.cvNotEmpty.inside.Perm state.cvNotEmpty.inside) : Placed next where
  pushing := by
    intro other member
    have before := notFull.subset member
    have differs : other ≠ thread := fun same => placed.notPushing (same ▸ before)
    rw [phaseEq, phase_update_of_ne differs]
    exact placed.pushing other before
  popping := by
    intro other member
    have before := notEmpty.subset member
    have differs : other ≠ thread := fun same => placed.notPopping (same ▸ before)
    rw [phaseEq, phase_update_of_ne differs]
    exact placed.popping other before
  notFullNodup := notFull.nodup_iff.mpr placed.notFullNodup
  notEmptyNodup := notEmpty.nodup_iff.mpr placed.notEmptyNodup

theorem PlacedBut.waitNotFull (placed : PlacedBut thread state) (item : α) :
    Placed ({ state with cvNotFull := state.cvNotFull.wait thread }.setPhase thread
      (.pushing item)) where
  pushing := by
    intro other member
    by_cases same : other = thread
    · subst same
      exact ⟨item, phase_update_self⟩
    · rw [phase_update_of_ne same]
      exact placed.pushing other ((List.mem_cons.mp member).resolve_left same)
  popping := by
    intro other member
    have differs : other ≠ thread := fun same => placed.notPopping (same ▸ member)
    rw [phase_update_of_ne differs]
    exact placed.popping other member
  notFullNodup := List.nodup_cons.mpr ⟨placed.notPushing, placed.notFullNodup⟩
  notEmptyNodup := placed.notEmptyNodup

theorem PlacedBut.waitNotEmpty (placed : PlacedBut thread state) :
    Placed ({ state with cvNotEmpty := state.cvNotEmpty.wait thread }.setPhase thread
      .popping) where
  pushing := by
    intro other member
    have differs : other ≠ thread := fun same => placed.notPushing (same ▸ member)
    rw [phase_update_of_ne differs]
    exact placed.pushing other member
  popping := by
    intro other member
    by_cases same : other = thread
    · subst same
      exact phase_update_self
    · rw [phase_update_of_ne same]
      exact placed.popping other ((List.mem_cons.mp member).resolve_left same)
  notFullNodup := placed.notFullNodup
  notEmptyNodup := List.nodup_cons.mpr ⟨placed.notPopping, placed.notEmptyNodup⟩

theorem PlacedBut.pushes (placed : PlacedBut thread state) {item : α} {wake : Option τ}
    (pushes : Pushes capacity thread item wake state next) : Placed next := by
  cases pushes with
  | refused => exact placed.leave rfl (.refl _) (.refl _)
  | enqueued opened room woken =>
      exact placed.leave rfl (.refl _) (CondVar.inside_notifyOne woken)
  | waits opened full => exact placed.waitNotFull item

theorem PlacedBut.takes (placed : PlacedBut thread state) {wake : Option τ}
    (taken : Takes thread wake state next) : Placed next := by
  cases taken with
  | front front woken => exact placed.leave rfl (CondVar.inside_notifyOne woken) (.refl _)

theorem PlacedBut.pops (placed : PlacedBut thread state) {wake : Option τ}
    (pops : Pops thread wake state next) : Placed next := by
  cases pops with
  | takes taken => exact placed.takes taken
  | ended => exact placed.leave rfl (.refl _) (.refl _)
  | waits empty opened => exact placed.waitNotEmpty

theorem Placed.step (placed : Placed state) {action : Action τ α}
    (stepped : state.step capacity action = some next) : Placed next := by
  cases moves_of_step stepped with
  | push idle pushes => exact (placed.enterIdle idle).pushes pushes
  | pop idle pops => exact (placed.enterIdle idle).pops pops
  | tryPop idle taken => exact (placed.enterIdle idle).takes taken
  | tryPopMissed idle empty => exact (placed.enterIdle idle).leave rfl (.refl _) (.refl _)
  | close idle => exact (placed.enterIdle idle).leave rfl (.refl _) (.refl _)
  | resumePush pushing left pushes => exact (placed.resumePush pushing left).pushes pushes
  | resumePop popping left pops => exact (placed.resumePop popping left).pops pops
  | notifyNotEmpty closing =>
      exact (placed.enter (by simp [closing]) (by simp [closing])).leave rfl (.refl _)
        (.of_eq (CondVar.inside_notifyAll _))
  | notifyNotFull closing =>
      exact (placed.enter (by simp [closing]) (by simp [closing])).leave rfl
        (.of_eq (CondVar.inside_notifyAll _)) (.refl _)
  | wakePush pushing woken =>
      have members := CondVar.inside_wakeSpuriously woken
      exact
        { pushing := fun other member => placed.pushing other (members.subset member)
          popping := placed.popping
          notFullNodup := members.nodup_iff.mpr placed.notFullNodup
          notEmptyNodup := placed.notEmptyNodup }
  | wakePop popping woken =>
      have members := CondVar.inside_wakeSpuriously woken
      exact
        { pushing := placed.pushing
          popping := fun other member => placed.popping other (members.subset member)
          notFullNodup := placed.notFullNodup
          notEmptyNodup := members.nodup_iff.mpr placed.notEmptyNodup }

theorem placed_of_reachable (reachable : Reachable (step capacity) {} state) : Placed state := by
  have initially : Placed ({} : BlockingQueue τ α) :=
    { pushing := fun _ member => absurd member List.not_mem_nil
      popping := fun _ member => absurd member List.not_mem_nil
      notFullNodup := List.nodup_nil
      notEmptyNodup := List.nodup_nil }
  exact reachable.invariant initially fun placed stepped => placed.step stepped

/-! ## Notifications on the way -/

/-- In an open queue, a notification is on its way for every item and every free slot
that a blocked thread could have, but for the `items` and `slots` the thread in its
critical section may take. -/
structure Signals (capacity items slots : Nat) (state : BlockingQueue τ α) : Prop where
  notEmpty : state.closed = false →
    state.cvNotEmpty.Signalled (state.queue.length - items)
  notFull : state.closed = false →
    state.cvNotFull.Signalled (capacity - state.queue.length - slots)

namespace Signals

omit [DecidableEq τ] in
theorem enter (signals : Signals capacity 0 0 state) (items slots : Nat) :
    Signals capacity items slots state where
  notEmpty := fun opened => (signals.notEmpty opened).mono (Nat.sub_le ..)
  notFull := fun opened => (signals.notFull opened).mono (Nat.sub_le ..)

/-- A producer that has the mutex again was on its way for one free slot. -/
theorem resumePush (signals : Signals capacity 0 0 state) {cvNotFull : CondVar τ}
    (left : state.cvNotFull.reacquire thread = some cvNotFull) :
    Signals capacity 0 1 { state with cvNotFull := cvNotFull } where
  notEmpty := signals.notEmpty
  notFull := fun opened => (signals.notFull opened).reacquire left

/-- A consumer that has the mutex again was on its way for one item. -/
theorem resumePop (signals : Signals capacity 0 0 state) {cvNotEmpty : CondVar τ}
    (left : state.cvNotEmpty.reacquire thread = some cvNotEmpty) :
    Signals capacity 1 0 { state with cvNotEmpty := cvNotEmpty } where
  notEmpty := fun opened => (signals.notEmpty opened).reacquire left
  notFull := signals.notFull

omit [DecidableEq τ] in
theorem ofClosed (closed : state.closed = true) : Signals capacity 0 0 state where
  notEmpty := fun opened => absurd (opened.symm.trans closed) Bool.false_ne_true
  notFull := fun opened => absurd (opened.symm.trans closed) Bool.false_ne_true

/-- A push adds an item and its notification, and fills the slot it was let in for. -/
theorem pushes (signals : Signals capacity 0 1 state) {item : α} {wake : Option τ}
    (pushes : Pushes capacity thread item wake state next) : Signals capacity 0 0 next := by
  cases pushes with
  | refused closed => exact ofClosed closed
  | enqueued opened room woken =>
      have items := (signals.notEmpty opened).notifyOne woken
      have slots := signals.notFull opened
      rw [Nat.sub_zero] at items
      refine ⟨fun _ => ?_, fun _ => ?_⟩
      · exact items.mono (Nat.le_of_eq (List.length_append ..))
      · apply slots.mono
        simp only [setPhase, record, List.length_append, List.length_singleton]
        omega
  | waits opened full =>
      refine ⟨signals.notEmpty, fun _ => (CondVar.Signalled.zero _).mono ?_⟩
      simp only [setPhase]
      omega

/-- Taking an item adds a free slot and its notification. -/
theorem takes (signals : Signals capacity 1 0 state) {wake : Option τ}
    (taken : Takes thread wake state next) : Signals capacity 0 0 next := by
  cases taken with
  | front front woken =>
      refine ⟨fun opened => ?_, fun opened => ?_⟩
      · have items := signals.notEmpty opened
        rw [front] at items
        exact items
      · have slots := (signals.notFull opened).notifyOne woken
        rw [front, List.length_cons] at slots
        apply slots.mono
        simp only [setPhase, record]
        omega

theorem pops (signals : Signals capacity 1 0 state) {wake : Option τ}
    (pops : Pops thread wake state next) : Signals capacity 0 0 next := by
  cases pops with
  | takes taken => exact signals.takes taken
  | ended empty closed => exact ofClosed closed
  | waits empty opened =>
      refine ⟨fun _ => (CondVar.Signalled.zero _).mono ?_, signals.notFull⟩
      simp only [setPhase, empty, List.length_nil]
      exact Nat.le_of_eq rfl

theorem step (signals : Signals capacity 0 0 state) {action : Action τ α}
    (stepped : state.step capacity action = some next) : Signals capacity 0 0 next := by
  cases moves_of_step stepped with
  | push idle pushes => exact (signals.enter 0 1).pushes pushes
  | pop idle pops => exact (signals.enter 1 0).pops pops
  | tryPop idle taken => exact (signals.enter 1 0).takes taken
  | tryPopMissed idle empty => exact ⟨signals.notEmpty, signals.notFull⟩
  | close idle => exact ofClosed rfl
  | resumePush pushing left pushes => exact (signals.resumePush left).pushes pushes
  | resumePop popping left pops => exact (signals.resumePop left).pops pops
  | notifyNotEmpty closing =>
      exact ⟨fun _ => CondVar.Signalled.notifyAll _ _, signals.notFull⟩
  | notifyNotFull closing =>
      exact ⟨signals.notEmpty, fun _ => CondVar.Signalled.notifyAll _ _⟩
  | wakePush pushing woken =>
      exact ⟨signals.notEmpty, fun opened => (signals.notFull opened).wakeSpuriously woken⟩
  | wakePop popping woken =>
      exact ⟨fun opened => (signals.notEmpty opened).wakeSpuriously woken, signals.notFull⟩

theorem of_reachable (reachable : Reachable (BlockingQueue.step capacity) {} state) :
    Signals capacity 0 0 state := by
  have initially : Signals capacity 0 0 ({} : BlockingQueue τ α) :=
    ⟨fun _ blocked => absurd rfl blocked, fun _ blocked => absurd rfl blocked⟩
  exact reachable.invariant initially fun signals stepped => signals.step stepped

end Signals

/-! ## Who can move -/

section Moving

variable (thread : τ) (state : BlockingQueue τ α)

theorem exists_pushSection (capacity : Nat) (item : α) :
    ∃ wake next, state.pushSection capacity thread item wake = some next := by
  rcases state.cvNotEmpty.exists_notifyOne with ⟨wake, cvNotEmpty, woken⟩
  refine ⟨wake, ?_⟩
  simp only [pushSection, woken, Option.map_some]
  split
  · split
    · exact ⟨_, rfl⟩
    · exact ⟨_, rfl⟩
  · exact ⟨_, rfl⟩

theorem exists_popSection : ∃ wake next, state.popSection thread wake = some next := by
  rcases state.cvNotFull.exists_notifyOne with ⟨wake, cvNotFull, woken⟩
  refine ⟨wake, ?_⟩
  simp only [popSection, takeFront, woken, Option.map_some]
  split
  · exact ⟨_, rfl⟩
  · split
    · exact ⟨_, rfl⟩
    · exact ⟨_, rfl⟩

end Moving

/-- The thread is in a wait and has not been woken. -/
def Blocked (state : BlockingQueue τ α) (thread : τ) : Prop :=
  thread ∈ state.cvNotFull.waiting ∨ thread ∈ state.cvNotEmpty.waiting

/-- The thread is blocked although the predicate it waits for holds. -/
def Ready (capacity : Nat) (state : BlockingQueue τ α) (thread : τ) : Prop :=
  (thread ∈ state.cvNotFull.waiting ∧
      (state.queue.length < capacity ∨ state.closed = true)) ∨
    (thread ∈ state.cvNotEmpty.waiting ∧ (state.queue ≠ [] ∨ state.closed = true))

/-- The thread is in an operation, is not blocked, and can take its next step. -/
def Moving (capacity : Nat) (state : BlockingQueue τ α) (thread : τ) : Prop :=
  state.phase thread ≠ .idle ∧ ¬state.Blocked thread ∧
    ((∃ wake next, state.step capacity (.resume thread wake) = some next) ∨
      ∃ next, state.step capacity (.notifyAll thread) = some next)

omit [DecidableEq τ] in
theorem Placed.not_blocked (placed : Placed state)
    (notPushing : ∀ item, state.phase thread ≠ .pushing item)
    (notPopping : state.phase thread ≠ .popping) : ¬state.Blocked thread := by
  have outside := placed.enter notPushing notPopping
  intro blocked
  rcases blocked with full | empty
  · exact outside.notPushing (CondVar.mem_inside.mpr (.inl full))
  · exact outside.notPopping (CondVar.mem_inside.mpr (.inl empty))

/-- A close that still has to notify can do so. -/
theorem Placed.moving_of_closing (placed : Placed state) (capacity : Nat)
    (closing : state.phase thread = .closing ∨ state.phase thread = .closingNotFull) :
    state.Moving capacity thread := by
  rcases closing with first | second
  · refine ⟨by simp [first], placed.not_blocked (by simp [first]) (by simp [first]), .inr ?_⟩
    simp only [BlockingQueue.step, first]
    exact ⟨_, rfl⟩
  · refine ⟨by simp [second], placed.not_blocked (by simp [second]) (by simp [second]), .inr ?_⟩
    simp only [BlockingQueue.step, second]
    exact ⟨_, rfl⟩

/-- A notified producer can have the mutex and test its predicate again. -/
theorem Placed.moving_of_notFull (placed : Placed state) (capacity : Nat)
    (notified : thread ∈ state.cvNotFull.notified) : state.Moving capacity thread := by
  have member := CondVar.mem_inside.mpr (.inr (.inl notified))
  have free := CondVar.not_waiting_of_notified placed.notFullNodup notified
  rcases placed.pushing thread member with ⟨item, pushing⟩
  refine ⟨by simp [pushing], ?_, .inl ?_⟩
  · intro blocked
    rcases blocked with full | empty
    · exact free full
    · have popping := placed.popping thread (CondVar.mem_inside.mpr (.inl empty))
      rw [pushing] at popping
      cases popping
  · rcases CondVar.exists_reacquire member free with ⟨cvNotFull, left⟩
    rcases exists_pushSection thread { state with cvNotFull := cvNotFull } capacity item
      with ⟨wake, next, pushed⟩
    refine ⟨wake, next, ?_⟩
    simp only [BlockingQueue.step, pushing, left, Option.bind_some, pushed]

/-- A notified consumer can have the mutex and test its predicate again. -/
theorem Placed.moving_of_notEmpty (placed : Placed state) (capacity : Nat)
    (notified : thread ∈ state.cvNotEmpty.notified) : state.Moving capacity thread := by
  have member := CondVar.mem_inside.mpr (.inr (.inl notified))
  have free := CondVar.not_waiting_of_notified placed.notEmptyNodup notified
  have popping := placed.popping thread member
  refine ⟨by simp [popping], ?_, .inl ?_⟩
  · intro blocked
    rcases blocked with full | empty
    · rcases placed.pushing thread (CondVar.mem_inside.mpr (.inl full)) with ⟨item, pushing⟩
      rw [popping] at pushing
      cases pushing
    · exact free empty
  · rcases CondVar.exists_reacquire member free with ⟨cvNotEmpty, left⟩
    rcases exists_popSection thread { state with cvNotEmpty := cvNotEmpty }
      with ⟨wake, next, popped⟩
    refine ⟨wake, next, ?_⟩
    simp only [BlockingQueue.step, popping, left, Option.bind_some, popped]

/-- A consumer blocked on a queue that has an item or is closed is not forgotten. -/
theorem exists_notified_consumer (reachable : Reachable (BlockingQueue.step capacity) {} state)
    (blocked : thread ∈ state.cvNotEmpty.waiting)
    (ready : state.queue ≠ [] ∨ state.closed = true) :
    (∃ consumer ∈ state.cvNotEmpty.notified, state.phase consumer = .popping) ∨
      ∃ closer, state.phase closer = .closing := by
  by_cases closed : state.closed = true
  · exact .inr ((waits_of_reachable reachable).notEmpty closed (List.ne_nil_of_mem blocked))
  · have items := List.length_pos_iff.mpr (ready.resolve_right closed)
    have signalled := (Signals.of_reachable reachable).notEmpty (Bool.eq_false_iff.mpr closed)
    rcases signalled.exists_notified (Nat.sub_pos_of_lt items) blocked with ⟨consumer, notified⟩
    have member := CondVar.mem_inside.mpr (.inr (.inl notified))
    exact .inl ⟨consumer, notified, (placed_of_reachable reachable).popping consumer member⟩

/-- A producer blocked on a queue that has room or is closed is not forgotten. -/
theorem exists_notified_producer (reachable : Reachable (BlockingQueue.step capacity) {} state)
    (blocked : thread ∈ state.cvNotFull.waiting)
    (ready : state.queue.length < capacity ∨ state.closed = true) :
    (∃ producer ∈ state.cvNotFull.notified, ∃ item, state.phase producer = .pushing item) ∨
      ∃ closer, state.phase closer = .closing ∨ state.phase closer = .closingNotFull := by
  by_cases closed : state.closed = true
  · exact .inr ((waits_of_reachable reachable).notFull closed (List.ne_nil_of_mem blocked))
  · have room := Nat.sub_pos_of_lt (ready.resolve_right closed)
    have signalled := (Signals.of_reachable reachable).notFull (Bool.eq_false_iff.mpr closed)
    rcases signalled.exists_notified (Nat.sub_pos_of_lt room) blocked with ⟨producer, notified⟩
    have member := CondVar.mem_inside.mpr (.inr (.inl notified))
    exact .inl ⟨producer, notified, (placed_of_reachable reachable).pushing producer member⟩

/-- A blocked thread whose predicate holds has somebody else who can move. -/
theorem exists_moving (reachable : Reachable (BlockingQueue.step capacity) {} state)
    (ready : state.Ready capacity thread) : ∃ other, state.Moving capacity other := by
  have placed := placed_of_reachable reachable
  rcases ready with ⟨blocked, ready⟩ | ⟨blocked, ready⟩
  · rcases exists_notified_producer reachable blocked ready with
      ⟨producer, notified, _⟩ | ⟨closer, closing⟩
    · exact ⟨producer, placed.moving_of_notFull capacity notified⟩
    · exact ⟨closer, placed.moving_of_closing capacity closing⟩
  · rcases exists_notified_consumer reachable blocked ready with
      ⟨consumer, notified, _⟩ | ⟨closer, closing⟩
    · exact ⟨consumer, placed.moving_of_notEmpty capacity notified⟩
    · exact ⟨closer, placed.moving_of_closing capacity (.inl closing)⟩

end BlockingQueue

/-- No wake-up is lost, in any reachable state: for a consumer blocked while the queue
has an item or is closed there is a notified consumer without the mutex yet, or a close
before its `notify_all`; for a blocked producer likewise; so never is every thread in an
operation blocked while the predicate of one of them holds, and one that is not blocked
can take its next step. -/
theorem no_lost_wakeup {τ α : Type} [DecidableEq τ] (capacity : Capacity)
    {state : BlockingQueue τ α}
    (reachable : Reachable (BlockingQueue.step capacity.val) {} state) :
    (∀ thread ∈ state.cvNotEmpty.waiting, state.queue ≠ [] ∨ state.closed = true →
      (∃ consumer ∈ state.cvNotEmpty.notified, state.phase consumer = .popping) ∨
        ∃ closer, state.phase closer = .closing) ∧
    (∀ thread ∈ state.cvNotFull.waiting,
      state.queue.length < capacity.val ∨ state.closed = true →
        (∃ producer ∈ state.cvNotFull.notified,
          ∃ item, state.phase producer = .pushing item) ∨
          ∃ closer, state.phase closer = .closing ∨ state.phase closer = .closingNotFull) ∧
    ¬((∀ thread, state.phase thread ≠ .idle → state.Blocked thread) ∧
      ∃ thread, state.Ready capacity.val thread) ∧
    ((∃ thread, state.Ready capacity.val thread) →
      ∃ other, state.Moving capacity.val other) := by
  refine ⟨?_, ?_, ?_, ?_⟩
  · intro thread blocked ready
    exact BlockingQueue.exists_notified_consumer reachable blocked ready
  · intro thread blocked ready
    exact BlockingQueue.exists_notified_producer reachable blocked ready
  · intro stuck
    rcases stuck with ⟨allBlocked, thread, ready⟩
    rcases BlockingQueue.exists_moving reachable ready with ⟨other, busy, free, _⟩
    exact free (allBlocked other busy)
  · intro waiting
    rcases waiting with ⟨thread, ready⟩
    exact BlockingQueue.exists_moving reachable ready

/-- Two consumers wait and one item comes: the one still blocked has the other on its
way. -/
theorem no_lost_wakeup_two :
    ∃ state : BlockingQueue Nat Nat,
      run (BlockingQueue.step 1) {} [.pop 0 none, .pop 1 none, .push 2 7 (some 0)] =
          some state ∧
        1 ∈ state.cvNotEmpty.waiting ∧ state.queue ≠ [] ∧
        ∃ other, state.Moving 1 other := by
  refine ⟨_, rfl, by decide, by decide, ?_⟩
  exact (no_lost_wakeup ⟨1, Nat.one_pos⟩
    ⟨[.pop 0 none, .pop 1 none, .push 2 7 (some 0)], rfl⟩).2.2.2
    ⟨1, .inr ⟨by decide, .inl (by decide)⟩⟩

end NcnnUpscaler.Queue
