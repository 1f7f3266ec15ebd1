import Mathlib.Data.List.Perm.Basic

/-!
# Condition variables

A condition variable as the threads that are in one of its waits: blocked, woken by
a notification, or woken spuriously.  A woken thread leaves when it has the mutex
again.
-/

namespace NcnnUpscaler.Library

/-- The threads in a wait on one condition variable. -/
structure CondVar (τ : Type) where
  waiting : List τ := []
  notified : List τ := []
  spurious : List τ := []
  deriving DecidableEq, Repr

namespace CondVar

variable {τ : Type}

/-- All threads in a wait. -/
def inside (cv : CondVar τ) : List τ := cv.waiting ++ (cv.notified ++ cv.spurious)

def wait (thread : τ) (cv : CondVar τ) : CondVar τ :=
  { cv with waiting := thread :: cv.waiting }

def notifyAll (cv : CondVar τ) : CondVar τ :=
  { cv with
    waiting := []
    notified := cv.waiting ++ cv.notified }

variable [DecidableEq τ]

/-- Wake the thread named, which must be blocked; none is named only when none is. -/
def notifyOne (wake : Option τ) (cv : CondVar τ) : Option (CondVar τ) :=
  match wake with
  | none => if cv.waiting = [] then some cv else none
  | some thread =>
      if thread ∈ cv.waiting then
        some { cv with
          waiting := cv.waiting.erase thread
          notified := thread :: cv.notified }
      else
        none

def wakeSpuriously (thread : τ) (cv : CondVar τ) : Option (CondVar τ) :=
  if thread ∈ cv.waiting then
    some { cv with
      waiting := cv.waiting.erase thread
      spurious := thread :: cv.spurious }
  else
    none

/-- A woken thread has the mutex again. -/
def reacquire (thread : τ) (cv : CondVar τ) : Option (CondVar τ) :=
  if thread ∈ cv.notified then
    some { cv with notified := cv.notified.erase thread }
  else if thread ∈ cv.spurious then
    some { cv with spurious := cv.spurious.erase thread }
  else
    none

/-! ## What an operation does -/

theorem notifyOne_cases {cv next : CondVar τ} {wake : Option τ}
    (woken : cv.notifyOne wake = some next) :
    (cv.waiting = [] ∧ next = cv) ∨
      ∃ thread ∈ cv.waiting,
        next = { cv with
          waiting := cv.waiting.erase thread
          notified := thread :: cv.notified } := by
  cases wake with
  | none =>
      simp only [notifyOne] at woken
      split at woken
      · next nobody =>
          cases woken
          exact .inl ⟨nobody, rfl⟩
      · cases woken
  | some thread =>
      simp only [notifyOne] at woken
      split at woken
      · next blocked =>
          cases woken
          exact .inr ⟨thread, blocked, rfl⟩
      · cases woken

theorem wakeSpuriously_cases {cv next : CondVar τ} {thread : τ}
    (woken : cv.wakeSpuriously thread = some next) :
    thread ∈ cv.waiting ∧
      next = { cv with
        waiting := cv.waiting.erase thread
        spurious := thread :: cv.spurious } := by
  simp only [wakeSpuriously] at woken
  split at woken
  · next blocked =>
      cases woken
      exact ⟨blocked, rfl⟩
  · cases woken

theorem reacquire_cases {cv next : CondVar τ} {thread : τ}
    (left : cv.reacquire thread = some next) :
    (thread ∈ cv.notified ∧ next = { cv with notified := cv.notified.erase thread }) ∨
      (thread ∈ cv.spurious ∧ next = { cv with spurious := cv.spurious.erase thread }) := by
  simp only [reacquire] at left
  split at left
  · next notified =>
      cases left
      exact .inl ⟨notified, rfl⟩
  · split at left
    · next spurious =>
        cases left
        exact .inr ⟨spurious, rfl⟩
    · cases left

/-! ## Who is inside -/

omit [DecidableEq τ] in
theorem mem_inside {cv : CondVar τ} {thread : τ} :
    thread ∈ cv.inside ↔
      thread ∈ cv.waiting ∨ thread ∈ cv.notified ∨ thread ∈ cv.spurious := by
  simp only [inside, List.mem_append]

omit [DecidableEq τ] in
theorem inside_notifyAll (cv : CondVar τ) : cv.notifyAll.inside = cv.inside := by
  simp only [inside, notifyAll, List.nil_append, List.append_assoc]

theorem inside_notifyOne {cv next : CondVar τ} {wake : Option τ}
    (woken : cv.notifyOne wake = some next) : next.inside.Perm cv.inside := by
  rcases notifyOne_cases woken with ⟨_, rfl⟩ | ⟨thread, blocked, rfl⟩
  · exact List.Perm.refl _
  · have moved := (List.perm_cons_erase blocked).symm
    exact List.perm_middle.trans (moved.append_right _)

theorem inside_wakeSpuriously {cv next : CondVar τ} {thread : τ}
    (woken : cv.wakeSpuriously thread = some next) : next.inside.Perm cv.inside := by
  rcases wakeSpuriously_cases woken with ⟨blocked, rfl⟩
  have moved := (List.perm_cons_erase blocked).symm
  have front : (cv.waiting.erase thread ++ (cv.notified ++ thread :: cv.spurious)).Perm
      (thread :: (cv.waiting.erase thread ++ (cv.notified ++ cv.spurious))) := by
    rw [← List.append_assoc, ← List.append_assoc]
    exact List.perm_middle
  exact front.trans (moved.append_right _)

theorem inside_reacquire {cv next : CondVar τ} {thread : τ}
    (left : cv.reacquire thread = some next) : cv.inside.Perm (thread :: next.inside) := by
  rcases reacquire_cases left with ⟨notified, rfl⟩ | ⟨spurious, rfl⟩
  · have taken := (List.perm_cons_erase notified).append_right cv.spurious
    exact (taken.append_left cv.waiting).trans List.perm_middle
  · have taken := (List.perm_cons_erase spurious).append_left (cv.waiting ++ cv.notified)
    simp only [inside, ← List.append_assoc]
    exact taken.trans List.perm_middle

/-! ## What can always happen -/

/-- Some choice of a waiter is open to a notification. -/
theorem exists_notifyOne (cv : CondVar τ) : ∃ wake next, cv.notifyOne wake = some next := by
  cases blocked : cv.waiting with
  | nil =>
      refine ⟨none, cv, ?_⟩
      simp only [notifyOne, blocked, if_true]
  | cons thread rest =>
      have member : thread ∈ cv.waiting := by
        rw [blocked]
        exact List.mem_cons_self
      simp only [notifyOne]
      exact ⟨some thread, _, if_pos member⟩

/-- A thread inside that is not blocked can have the mutex. -/
theorem exists_reacquire {cv : CondVar τ} {thread : τ} (member : thread ∈ cv.inside)
    (free : thread ∉ cv.waiting) : ∃ next, cv.reacquire thread = some next := by
  have woken := (mem_inside.mp member).resolve_left free
  simp only [reacquire]
  split
  · exact ⟨_, rfl⟩
  · next absent =>
      rw [if_pos (woken.resolve_left absent)]
      exact ⟨_, rfl⟩

/-! ## Who is blocked -/

theorem waiting_notifyOne {cv next : CondVar τ} {wake : Option τ}
    (woken : cv.notifyOne wake = some next) : next.waiting ⊆ cv.waiting := by
  rcases notifyOne_cases woken with ⟨_, rfl⟩ | ⟨thread, _, rfl⟩
  · exact List.Subset.refl _
  · exact List.erase_subset

theorem waiting_wakeSpuriously {cv next : CondVar τ} {thread : τ}
    (woken : cv.wakeSpuriously thread = some next) : next.waiting ⊆ cv.waiting := by
  rcases wakeSpuriously_cases woken with ⟨_, rfl⟩
  exact List.erase_subset

theorem waiting_reacquire {cv next : CondVar τ} {thread : τ}
    (left : cv.reacquire thread = some next) : next.waiting = cv.waiting := by
  rcases reacquire_cases left with ⟨_, rfl⟩ | ⟨_, rfl⟩
  · rfl
  · rfl

/-! ## Notifications on the way -/

/-- While a thread is blocked, at least `demand` notified threads have not yet had the
mutex. -/
def Signalled (cv : CondVar τ) (demand : Nat) : Prop :=
  cv.waiting ≠ [] → demand ≤ cv.notified.length

namespace Signalled

variable {cv next : CondVar τ} {demand : Nat}

omit [DecidableEq τ] in
theorem zero (cv : CondVar τ) : cv.Signalled 0 := fun _ => Nat.zero_le _

omit [DecidableEq τ] in
theorem mono {less : Nat} (signalled : cv.Signalled demand) (le : less ≤ demand) :
    cv.Signalled less :=
  fun blocked => Nat.le_trans le (signalled blocked)

omit [DecidableEq τ] in
theorem notifyAll (cv : CondVar τ) (demand : Nat) : cv.notifyAll.Signalled demand :=
  fun blocked => absurd rfl blocked

/-- A notification serves one more, or there is nobody left to serve. -/
theorem notifyOne {wake : Option τ} (signalled : cv.Signalled demand)
    (woken : cv.notifyOne wake = some next) : next.Signalled (demand + 1) := by
  intro blocked
  rcases notifyOne_cases woken with ⟨nobody, rfl⟩ | ⟨thread, member, rfl⟩
  · exact absurd nobody blocked
  · exact Nat.succ_le_succ (signalled (List.ne_nil_of_mem member))

/-- A thread that has the mutex again was at most one of those on the way. -/
theorem reacquire {thread : τ} (signalled : cv.Signalled demand)
    (left : cv.reacquire thread = some next) : next.Signalled (demand - 1) := by
  intro blocked
  rcases reacquire_cases left with ⟨notified, rfl⟩ | ⟨_, rfl⟩
  · rw [List.length_erase_of_mem notified]
    exact Nat.sub_le_sub_right (signalled blocked) 1
  · exact Nat.le_trans (Nat.sub_le demand 1) (signalled blocked)

theorem wakeSpuriously {thread : τ} (signalled : cv.Signalled demand)
    (woken : cv.wakeSpuriously thread = some next) : next.Signalled demand := by
  rcases wakeSpuriously_cases woken with ⟨member, rfl⟩
  exact fun _ => signalled (List.ne_nil_of_mem member)

omit [DecidableEq τ] in
/-- A blocked thread that is owed a notification has one on the way. -/
theorem exists_notified {thread : τ} (signalled : cv.Signalled demand) (owed : 0 < demand)
    (blocked : thread ∈ cv.waiting) : ∃ other, other ∈ cv.notified :=
  List.exists_mem_of_length_pos
    (Nat.lt_of_lt_of_le owed (signalled (List.ne_nil_of_mem blocked)))

end Signalled

omit [DecidableEq τ] in
/-- A notified thread is no longer blocked. -/
theorem not_waiting_of_notified {cv : CondVar τ} {thread : τ} (nodup : cv.inside.Nodup)
    (notified : thread ∈ cv.notified) : thread ∉ cv.waiting := by
  intro blocked
  exact (List.nodup_append.mp nodup).2.2 thread blocked thread
    (List.mem_append_left _ notified) rfl

end CondVar

end NcnnUpscaler.Library
