import NcnnUpscaler.Queue.BlockingQueue

/-!
# Where the threads of the queue are

A thread in the wait of a push or a pop is inside the condition variable it waits
on, and in a closed queue a blocked thread still has a `notify_all` ahead of it.
-/

namespace NcnnUpscaler.Queue

open NcnnUpscaler.Library

namespace BlockingQueue

variable {τ α : Type} {thread : τ} {state : BlockingQueue τ α}

/-- Every thread in a wait is known to its condition variable, and a close still has
to notify wherever a thread is blocked in a closed queue. -/
structure Waits (state : BlockingQueue τ α) : Prop where
  pushing : ∀ other item, state.phase other = .pushing item → other ∈ state.cvNotFull.inside
  popping : ∀ other, state.phase other = .popping → other ∈ state.cvNotEmpty.inside
  notFull : state.closed = true → state.cvNotFull.waiting ≠ [] →
    ∃ closer, state.phase closer = .closing ∨ state.phase closer = .closingNotFull
  notEmpty : state.closed = true → state.cvNotEmpty.waiting ≠ [] →
    ∃ closer, state.phase closer = .closing

/-- The same, but for the thread that is in its critical section. -/
structure WaitsBut (thread : τ) (state : BlockingQueue τ α) : Prop where
  pushing : ∀ other item, other ≠ thread → state.phase other = .pushing item →
    other ∈ state.cvNotFull.inside
  popping : ∀ other, other ≠ thread → state.phase other = .popping →
    other ∈ state.cvNotEmpty.inside
  notFull : state.closed = true → state.cvNotFull.waiting ≠ [] →
    ∃ closer, closer ≠ thread ∧
      (state.phase closer = .closing ∨ state.phase closer = .closingNotFull)
  notEmpty : state.closed = true → state.cvNotEmpty.waiting ≠ [] →
    ∃ closer, closer ≠ thread ∧ state.phase closer = .closing

/-- A thread that is not closing enters its critical section. -/
theorem Waits.enter (waits : Waits state) (thread : τ) (notClosing : state.phase thread ≠ .closing)
    (notLast : state.phase thread ≠ .closingNotFull) : WaitsBut thread state where
  pushing := fun other item _ => waits.pushing other item
  popping := fun other _ => waits.popping other
  notFull := by
    intro closed blocked
    rcases waits.notFull closed blocked with ⟨closer, phase⟩
    refine ⟨closer, ?_, phase⟩
    intro same
    subst same
    exact phase.elim notClosing notLast
  notEmpty := by
    intro closed blocked
    rcases waits.notEmpty closed blocked with ⟨closer, phase⟩
    refine ⟨closer, ?_, phase⟩
    intro same
    subst same
    exact notClosing phase

theorem Waits.enterIdle (waits : Waits state) (idle : state.phase thread = .idle) :
    WaitsBut thread state :=
  waits.enter thread (by simp [idle]) (by simp [idle])

variable [DecidableEq τ] {capacity : Nat} {next : BlockingQueue τ α}

theorem phase_update_of_ne {other : τ} {phase : Phase α} (differs : other ≠ thread) :
    (state.setPhase thread phase).phase other = state.phase other :=
  Function.update_of_ne differs ..

theorem phase_update_self {phase : Phase α} :
    (state.setPhase thread phase).phase thread = phase :=
  Function.update_self ..

/-- A thread found in another phase than the one just set was there before. -/
theorem phase_before_update {other : τ} {phase found : Phase α}
    (after : (state.setPhase thread phase).phase other = found) (changed : phase ≠ found) :
    other ≠ thread ∧ state.phase other = found := by
  by_cases same : other = thread
  · subst same
    rw [phase_update_self] at after
    exact absurd after changed
  · rw [phase_update_of_ne same] at after
    exact ⟨same, after⟩

/-- A critical section that ends the operation: waiters may have been notified. -/
theorem WaitsBut.leave (waits : WaitsBut thread state)
    (phase : next.phase = (state.setPhase thread .idle).phase)
    (closed : next.closed = state.closed)
    (notFull : next.cvNotFull.inside.Perm state.cvNotFull.inside)
    (notFullBlocked : next.cvNotFull.waiting ⊆ state.cvNotFull.waiting)
    (notEmpty : next.cvNotEmpty.inside.Perm state.cvNotEmpty.inside)
    (notEmptyBlocked : next.cvNotEmpty.waiting ⊆ state.cvNotEmpty.waiting) : Waits next where
  pushing := by
    intro other item inPush
    rw [phase] at inPush
    rcases phase_before_update inPush (by simp) with ⟨differs, before⟩
    exact notFull.symm.subset (waits.pushing other item differs before)
  popping := by
    intro other inPop
    rw [phase] at inPop
    rcases phase_before_update inPop (by simp) with ⟨differs, before⟩
    exact notEmpty.symm.subset (waits.popping other differs before)
  notFull := by
    intro isClosed blocked
    have before : state.cvNotFull.waiting ≠ [] := fun none =>
      blocked (List.subset_nil.mp (none ▸ notFullBlocked))
    rcases waits.notFull (closed ▸ isClosed) before with ⟨closer, differs, closing⟩
    rw [phase]
    exact ⟨closer, by rwa [phase_update_of_ne differs]⟩
  notEmpty := by
    intro isClosed blocked
    have before : state.cvNotEmpty.waiting ≠ [] := fun none =>
      blocked (List.subset_nil.mp (none ▸ notEmptyBlocked))
    rcases waits.notEmpty (closed ▸ isClosed) before with ⟨closer, differs, closing⟩
    rw [phase]
    exact ⟨closer, by rwa [phase_update_of_ne differs]⟩

theorem WaitsBut.pushes (waits : WaitsBut thread state) {item : α} {wake : Option τ}
    (pushes : Pushes capacity thread item wake state next) : Waits next := by
  cases pushes with
  | refused => exact waits.leave rfl rfl (.refl _) (.refl _) (.refl _) (.refl _)
  | enqueued opened room woken =>
      exact waits.leave rfl rfl (.refl _) (.refl _) (CondVar.inside_notifyOne woken)
        (CondVar.waiting_notifyOne woken)
  | waits opened full =>
      exact
        { pushing := by
            intro other item' inPush
            by_cases same : other = thread
            · subst same
              exact List.mem_cons_self
            · rw [phase_update_of_ne same] at inPush
              exact List.mem_cons_of_mem _ (waits.pushing other item' same inPush)
          popping := by
            intro other inPop
            rcases phase_before_update inPop (by simp) with ⟨differs, before⟩
            exact waits.popping other differs before
          notFull := fun closed => absurd (opened.symm.trans closed) Bool.false_ne_true
          notEmpty := fun closed => absurd (opened.symm.trans closed) Bool.false_ne_true }

theorem WaitsBut.takes (waits : WaitsBut thread state) {wake : Option τ}
    (taken : Takes thread wake state next) : Waits next := by
  cases taken with
  | front front woken =>
      exact waits.leave rfl rfl (CondVar.inside_notifyOne woken)
        (CondVar.waiting_notifyOne woken) (.refl _) (.refl _)

theorem WaitsBut.pops (waits : WaitsBut thread state) {wake : Option τ}
    (pops : Pops thread wake state next) : Waits next := by
  cases pops with
  | takes taken => exact waits.takes taken
  | ended => exact waits.leave rfl rfl (.refl _) (.refl _) (.refl _) (.refl _)
  | waits empty opened =>
      exact
        { pushing := by
            intro other item inPush
            rcases phase_before_update inPush (by simp) with ⟨differs, before⟩
            exact waits.pushing other item differs before
          popping := by
            intro other inPop
            by_cases same : other = thread
            · subst same
              exact List.mem_cons_self
            · rw [phase_update_of_ne same] at inPop
              exact List.mem_cons_of_mem _ (waits.popping other same inPop)
          notFull := fun closed => absurd (opened.symm.trans closed) Bool.false_ne_true
          notEmpty := fun closed => absurd (opened.symm.trans closed) Bool.false_ne_true }

/-- A woken producer has the mutex again. -/
theorem Waits.resumePush (waits : Waits state) {item : α}
    (pushing : state.phase thread = .pushing item) {cvNotFull : CondVar τ}
    (left : state.cvNotFull.reacquire thread = some cvNotFull) :
    WaitsBut thread { state with cvNotFull := cvNotFull } := by
  have entered := waits.enter thread (by simp [pushing]) (by simp [pushing])
  exact
    { pushing := by
        intro other item differs inPush
        have member := (CondVar.inside_reacquire left).subset (waits.pushing other item inPush)
        exact (List.mem_cons.mp member).resolve_left differs
      popping := entered.popping
      notFull := by
        intro closed blocked
        exact entered.notFull closed (CondVar.waiting_reacquire left ▸ blocked)
      notEmpty := entered.notEmpty }

/-- A woken consumer has the mutex again. -/
theorem Waits.resumePop (waits : Waits state)
    (popping : state.phase thread = .popping) {cvNotEmpty : CondVar τ}
    (left : state.cvNotEmpty.reacquire thread = some cvNotEmpty) :
    WaitsBut thread { state with cvNotEmpty := cvNotEmpty } := by
  have entered := waits.enter thread (by simp [popping]) (by simp [popping])
  exact
    { pushing := entered.pushing
      popping := by
        intro other differs inPop
        have member := (CondVar.inside_reacquire left).subset (waits.popping other inPop)
        exact (List.mem_cons.mp member).resolve_left differs
      notFull := entered.notFull
      notEmpty := by
        intro closed blocked
        exact entered.notEmpty closed (CondVar.waiting_reacquire left ▸ blocked) }

theorem Waits.close (waits : Waits state) (thread : τ) : Waits (state.closeSection thread) where
  pushing := by
    intro other item inPush
    exact waits.pushing other item (phase_before_update inPush (by simp)).2
  popping := by
    intro other inPop
    exact waits.popping other (phase_before_update inPop (by simp)).2
  notFull := fun _ _ => ⟨thread, Or.inl phase_update_self⟩
  notEmpty := fun _ _ => ⟨thread, phase_update_self⟩

/-- The first `notify_all` leaves nobody blocked on `cv_not_empty_`. -/
theorem Waits.notifyNotEmpty (waits : Waits state) (thread : τ) :
    Waits ({ state with cvNotEmpty := state.cvNotEmpty.notifyAll }.setPhase thread
      .closingNotFull) where
  pushing := by
    intro other item inPush
    exact waits.pushing other item (phase_before_update inPush (by simp)).2
  popping := by
    intro other inPop
    have before := waits.popping other (phase_before_update inPop (by simp)).2
    rw [← CondVar.inside_notifyAll] at before
    exact before
  notFull := fun _ _ => ⟨thread, Or.inr phase_update_self⟩
  notEmpty := fun _ blocked => absurd rfl blocked

/-- The second leaves nobody blocked on `cv_not_full_`. -/
theorem Waits.notifyNotFull (waits : Waits state) (closing : state.phase thread = .closingNotFull) :
    Waits ({ state with cvNotFull := state.cvNotFull.notifyAll }.setPhase thread .idle) where
  pushing := by
    intro other item inPush
    have before := waits.pushing other item (phase_before_update inPush (by simp)).2
    rw [← CondVar.inside_notifyAll] at before
    exact before
  popping := by
    intro other inPop
    exact waits.popping other (phase_before_update inPop (by simp)).2
  notFull := fun _ blocked => absurd rfl blocked
  notEmpty := by
    intro closed blocked
    rcases waits.notEmpty closed blocked with ⟨closer, phase⟩
    have differs : closer ≠ thread := by
      intro same
      rw [same, closing] at phase
      cases phase
    exact ⟨closer, (phase_update_of_ne differs).trans phase⟩

/-- Every step keeps track of the threads. -/
theorem Waits.step (waits : Waits state) {action : Action τ α}
    (stepped : state.step capacity action = some next) : Waits next := by
  cases moves_of_step stepped with
  | push idle pushes => exact (waits.enterIdle idle).pushes pushes
  | pop idle pops => exact (waits.enterIdle idle).pops pops
  | tryPop idle taken => exact (waits.enterIdle idle).takes taken
  | tryPopMissed idle empty =>
      exact (waits.enterIdle idle).leave rfl rfl (.refl _) (.refl _) (.refl _) (.refl _)
  | close idle => exact waits.close _
  | resumePush pushing left pushes => exact (waits.resumePush pushing left).pushes pushes
  | resumePop popping left pops => exact (waits.resumePop popping left).pops pops
  | notifyNotEmpty closing => exact waits.notifyNotEmpty _
  | notifyNotFull closing => exact waits.notifyNotFull closing
  | wakePush pushing woken =>
      exact
        { pushing := fun other item inPush =>
            (CondVar.inside_wakeSpuriously woken).symm.subset (waits.pushing other item inPush)
          popping := waits.popping
          notFull := fun closed blocked => waits.notFull closed fun none =>
            blocked (List.subset_nil.mp (none ▸ CondVar.waiting_wakeSpuriously woken))
          notEmpty := waits.notEmpty }
  | wakePop popping woken =>
      exact
        { pushing := waits.pushing
          popping := fun other inPop =>
            (CondVar.inside_wakeSpuriously woken).symm.subset (waits.popping other inPop)
          notFull := waits.notFull
          notEmpty := fun closed blocked => waits.notEmpty closed fun none =>
            blocked (List.subset_nil.mp (none ▸ CondVar.waiting_wakeSpuriously woken)) }

theorem waits_of_reachable (reachable : Reachable (step capacity) {} state) : Waits state := by
  have initially : Waits ({} : BlockingQueue τ α) :=
    { pushing := fun _ _ inPush => absurd inPush.symm (by simp)
      popping := fun _ inPop => absurd inPop.symm (by simp)
      notFull := fun closed => absurd closed Bool.false_ne_true
      notEmpty := fun closed => absurd closed Bool.false_ne_true }
  exact reachable.invariant initially fun waits stepped => waits.step stepped

end BlockingQueue

end NcnnUpscaler.Queue
