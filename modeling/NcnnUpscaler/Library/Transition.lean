import Mathlib.Tactic.Common

/-!
# Runs of a system

A system takes one step for each input, and a step that is not enabled gives
nothing.
-/

namespace NcnnUpscaler.Library

variable {σ ι : Type} (step : σ → ι → Option σ)

/-- The state after a sequence of inputs, when each of them is enabled. -/
def run (state : σ) (inputs : List ι) : Option σ := inputs.foldlM step state

/-- A state some sequence of inputs leads to. -/
def Reachable (start state : σ) : Prop := ∃ inputs, run step start inputs = some state

variable {step}

theorem run_cons {state next : σ} {input : ι} (stepped : step state input = some next)
    (rest : List ι) : run step state (input :: rest) = run step next rest := by
  simp only [run, List.foldlM_cons, stepped, Option.bind_eq_bind, Option.bind_some]

/-- The first step of a run. -/
theorem run_cons_eq_some {state last : σ} {input : ι} {rest : List ι}
    (ran : run step state (input :: rest) = some last) :
    ∃ next, step state input = some next ∧ run step next rest = some last := by
  simp only [run, List.foldlM_cons, Option.bind_eq_bind] at ran
  exact Option.bind_eq_some_iff.mp ran

/-- One run after another. -/
theorem run_append {state middle last : σ} {first second : List ι}
    (ranFirst : run step state first = some middle)
    (ranSecond : run step middle second = some last) :
    run step state (first ++ second) = some last := by
  simp only [run, List.foldlM_append, Option.bind_eq_bind] at ranFirst ranSecond ⊢
  rw [ranFirst, Option.bind_some, ranSecond]

/-- What every step preserves, every run preserves. -/
theorem run_preserves {Invariant : σ → Prop}
    (preserved : ∀ {state input next}, Invariant state → step state input = some next →
      Invariant next)
    {state last : σ} {inputs : List ι} (holds : Invariant state)
    (ran : run step state inputs = some last) : Invariant last := by
  induction inputs generalizing state with
  | nil =>
      cases ran
      exact holds
  | cons input rest ih =>
      rcases run_cons_eq_some ran with ⟨next, stepped, tail⟩
      exact ih (preserved holds stepped) tail

/-- Where a step that spends takes one from a potential, and nothing but a step that pays
adds to it, a run spends no more than it started with and was paid. -/
theorem run_countP_le {Invariant : σ → Prop} {potential : σ → Nat} {spends pays : ι → Bool}
    {price : Nat}
    (preserved : ∀ {state input next}, Invariant state → step state input = some next →
      Invariant next)
    (budget : ∀ {state input next}, Invariant state → step state input = some next →
      (if spends input then 1 else 0) + potential next ≤
        potential state + price * (if pays input then 1 else 0))
    {state last : σ} {inputs : List ι} (holds : Invariant state)
    (ran : run step state inputs = some last) :
    inputs.countP spends + potential last ≤ potential state + price * inputs.countP pays := by
  induction inputs generalizing state with
  | nil =>
      cases ran
      simp
  | cons input rest ih =>
      rcases run_cons_eq_some ran with ⟨next, stepped, tail⟩
      have first := budget holds stepped
      have others := ih (preserved holds stepped) tail
      simp only [List.countP_cons, Nat.mul_add]
      omega

namespace Reachable

variable {start state : σ}

/-- What holds at the start and is preserved by every step holds of every reachable
state. -/
theorem invariant {Invariant : σ → Prop} (reachable : Reachable step start state)
    (initially : Invariant start)
    (preserved : ∀ {state input next}, Invariant state → step state input = some next →
      Invariant next) : Invariant state := by
  rcases reachable with ⟨inputs, ran⟩
  exact run_preserves preserved initially ran

theorem after (reachable : Reachable step start state) {last : σ} {inputs : List ι}
    (ran : run step state inputs = some last) : Reachable step start last := by
  rcases reachable with ⟨first, ranFirst⟩
  exact ⟨first ++ inputs, run_append ranFirst ran⟩

end Reachable

end NcnnUpscaler.Library
