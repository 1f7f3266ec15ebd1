import Mathlib.Data.List.Perm.Basic
import Mathlib.Data.List.Count

/-!
# Histories

A history lists events, the latest one first.  It is sound when every event is
allowed by the events before it.  A ledger reads acquisitions and releases of
resources off a history.
-/

namespace NcnnUpscaler.Library

variable {ε ρ : Type}

/-- Every event of the history is allowed by those before it. -/
def Sound (Allowed : List ε → ε → Prop) : List ε → Prop
  | [] => True
  | event :: earlier => Allowed earlier event ∧ Sound Allowed earlier

namespace Sound

variable {Allowed : List ε → ε → Prop} {history : List ε}

theorem cons {event : ε} (allowed : Allowed history event) (sound : Sound Allowed history) :
    Sound Allowed (event :: history) :=
  ⟨allowed, sound⟩

/-- In a sound history the events before a given one allow it. -/
theorem allowed (sound : Sound Allowed history) {later earlier : List ε} {event : ε}
    (split : history = later ++ event :: earlier) : Allowed earlier event := by
  subst split
  induction later with
  | nil => exact sound.1
  | cons last later ih => exact ih sound.2

/-- An event that is never allowed twice happens at most once. -/
theorem count_le_one [DecidableEq ε] (sound : Sound Allowed history) {event : ε}
    (fresh : ∀ earlier, Allowed earlier event → event ∉ earlier) :
    history.count event ≤ 1 := by
  induction history with
  | nil => exact Nat.zero_le 1
  | cons last earlier ih =>
      by_cases same : last = event
      · subst same
        have absent := List.count_eq_zero.mpr (fresh earlier sound.1)
        have once : (last :: earlier).count last = 1 := by
          rw [List.count_cons_self, absent]
        exact Nat.le_of_eq once
      · rw [List.count_cons_of_ne same]
        exact ih sound.2

end Sound

/-- The events that acquire and reclaim a resource. -/
structure Ledger (ε ρ : Type) where
  acquired : ρ → ε
  reclaimed : ρ → ε
  acquired_injective : Function.Injective acquired
  reclaimed_injective : Function.Injective reclaimed
  acquired_ne_reclaimed : ∀ resource other, acquired resource ≠ reclaimed other

namespace Ledger

variable [DecidableEq ε] [DecidableEq ρ] (ledger : Ledger ε ρ)

/-- A resource acquired and not yet reclaimed. -/
def Held (history : List ε) (resource : ρ) : Prop :=
  history.count (ledger.reclaimed resource) < history.count (ledger.acquired resource)

/-- The resources owned are those acquired and not yet reclaimed, each as often. -/
def Balanced (owned : List ρ) (history : List ε) : Prop :=
  ∀ resource, history.count (ledger.acquired resource) =
    history.count (ledger.reclaimed resource) + owned.count resource

/-- An event that neither acquires nor reclaims. -/
def Neutral (event : ε) : Prop :=
  ∀ resource, ledger.acquired resource ≠ event ∧ ledger.reclaimed resource ≠ event

variable {ledger} {owned : List ρ} {history : List ε}

theorem balanced_nil : ledger.Balanced [] [] := fun _ => rfl

theorem Balanced.perm {owned' : List ρ} (same : owned.Perm owned')
    (balanced : ledger.Balanced owned history) : ledger.Balanced owned' history := by
  intro resource
  rw [balanced resource, same.count_eq resource]

theorem Balanced.acquire (balanced : ledger.Balanced owned history) (resource : ρ) :
    ledger.Balanced (resource :: owned) (ledger.acquired resource :: history) := by
  intro other
  have distinct : ledger.acquired resource ≠ ledger.reclaimed other :=
    ledger.acquired_ne_reclaimed resource other
  rw [List.count_cons_of_ne distinct]
  by_cases same : resource = other
  · subst same
    rw [List.count_cons_self, List.count_cons_self, balanced resource]
    omega
  · have differ : ledger.acquired resource ≠ ledger.acquired other :=
      fun equal => same (ledger.acquired_injective equal)
    rw [List.count_cons_of_ne differ, List.count_cons_of_ne same, balanced other]

theorem Balanced.reclaim {resource : ρ}
    (balanced : ledger.Balanced (resource :: owned) history) :
    ledger.Balanced owned (ledger.reclaimed resource :: history) := by
  intro other
  have before := balanced other
  have distinct : ledger.reclaimed resource ≠ ledger.acquired other :=
    (ledger.acquired_ne_reclaimed other resource).symm
  rw [List.count_cons_of_ne distinct]
  by_cases same : resource = other
  · subst same
    rw [List.count_cons_self] at before ⊢
    omega
  · have differ : ledger.reclaimed resource ≠ ledger.reclaimed other :=
      fun equal => same (ledger.reclaimed_injective equal)
    rw [List.count_cons_of_ne same] at before
    rw [List.count_cons_of_ne differ, before]

theorem Balanced.neutral {event : ε} (balanced : ledger.Balanced owned history)
    (neutral : ledger.Neutral event) : ledger.Balanced owned (event :: history) := by
  intro resource
  rw [List.count_cons_of_ne (neutral resource).1.symm,
    List.count_cons_of_ne (neutral resource).2.symm, balanced resource]

/-- What is held is what is owned. -/
theorem Balanced.held_iff (balanced : ledger.Balanced owned history) (resource : ρ) :
    ledger.Held history resource ↔ resource ∈ owned := by
  rw [Held, balanced resource, ← List.count_pos_iff]
  omega

/-- With nothing owned, every acquisition has been matched. -/
theorem Balanced.settled (balanced : ledger.Balanced [] history) (resource : ρ) :
    history.count (ledger.reclaimed resource) = history.count (ledger.acquired resource) := by
  rw [balanced resource, List.count_nil, Nat.add_zero]

end Ledger

end NcnnUpscaler.Library
