import NcnnUpscaler.Library.History

/-!
# What the queue is for

A bounded channel that can be closed, used by one thread after another.  Its
histories say what the queue's operations may report; the latest event comes first.
-/

namespace NcnnUpscaler.Queue

open NcnnUpscaler.Library

variable {τ α : Type}

/-- How an operation on the queue ends, in the order of the critical sections. -/
inductive Event (τ α : Type) where
  /-- A push that enqueued its item. -/
  | pushed (thread : τ) (item : α)
  /-- A push that threw. -/
  | refused (thread : τ) (item : α)
  /-- A pop or try_pop that returned true. -/
  | delivered (thread : τ) (item : α)
  /-- A pop that returned false. -/
  | ended (thread : τ)
  /-- A try_pop that returned false. -/
  | missed (thread : τ)
  /-- A close that set `closed_`. -/
  | closed (thread : τ)
  deriving DecidableEq, Repr

/-- The items of the successful pushes, in order. -/
def pushedItems : List (Event τ α) → List α
  | [] => []
  | .pushed _ item :: earlier => pushedItems earlier ++ [item]
  | _ :: earlier => pushedItems earlier

/-- The items handed out, in order. -/
def deliveredItems : List (Event τ α) → List α
  | [] => []
  | .delivered _ item :: earlier => deliveredItems earlier ++ [item]
  | _ :: earlier => deliveredItems earlier

/-- A closable channel. -/
structure Channel (α : Type) where
  contents : List α
  closed : Bool

/-- What one operation does to a channel of this capacity. -/
inductive Channel.Step (capacity : Nat) : Channel α → Event τ α → Channel α → Prop where
  | pushed (thread : τ) (item : α) {contents : List α} (room : contents.length < capacity) :
      Step capacity ⟨contents, false⟩ (.pushed thread item) ⟨contents ++ [item], false⟩
  | refused (thread : τ) (item : α) {contents : List α} :
      Step capacity ⟨contents, true⟩ (.refused thread item) ⟨contents, true⟩
  | delivered (thread : τ) (item : α) {rest : List α} {closed : Bool} :
      Step capacity ⟨item :: rest, closed⟩ (.delivered thread item) ⟨rest, closed⟩
  | ended (thread : τ) : Step capacity ⟨[], true⟩ (.ended thread) ⟨[], true⟩
  | missed (thread : τ) {closed : Bool} :
      Step capacity ⟨[], closed⟩ (.missed thread) ⟨[], closed⟩
  | closed (thread : τ) {contents : List α} {closed : Bool} :
      Step capacity ⟨contents, closed⟩ (.closed thread) ⟨contents, true⟩

/-- A history of a channel that starts open and empty, and where it leads. -/
inductive Channel.History (capacity : Nat) : List (Event τ α) → Channel α → Prop where
  | start : History capacity [] ⟨[], false⟩
  | step {log : List (Event τ α)} {channel next : Channel α} {event : Event τ α}
      (history : History capacity log channel) (stepped : Step capacity channel event next) :
      History capacity (event :: log) next

/-- What must have happened before an event, and what cannot have. -/
def Allowed (earlier : List (Event τ α)) : Event τ α → Prop
  | .pushed _ _ => ∀ closer, .closed closer ∉ earlier
  | .refused _ _ => ∃ closer, .closed closer ∈ earlier
  | .delivered _ _ => ∀ consumer, .ended consumer ∉ earlier
  | .ended _ =>
      (∃ closer, .closed closer ∈ earlier) ∧ deliveredItems earlier = pushedItems earlier
  | .missed _ => deliveredItems earlier = pushedItems earlier
  | .closed _ => True

namespace Channel.History

variable {capacity : Nat} {log : List (Event τ α)} {channel : Channel α}

/-- A channel never holds more than its capacity. -/
theorem length_le (history : History capacity log channel) :
    channel.contents.length ≤ capacity := by
  induction history with
  | start => exact Nat.zero_le capacity
  | step history stepped ih =>
      cases stepped with
      | pushed thread item room =>
          rw [List.length_append, List.length_singleton]
          exact room
      | refused => exact ih
      | delivered => exact Nat.le_of_succ_le ih
      | ended => exact ih
      | missed => exact ih
      | closed => exact ih

/-- Nothing is lost, duplicated or reordered. -/
theorem delivered_append_contents (history : History capacity log channel) :
    deliveredItems log ++ channel.contents = pushedItems log := by
  induction history with
  | start => rfl
  | step history stepped ih =>
      cases stepped with
      | pushed thread item room =>
          simp only [deliveredItems, pushedItems]
          rw [← ih, List.append_assoc]
      | refused => exact ih
      | delivered thread item =>
          simp only [deliveredItems, pushedItems]
          rw [← ih, List.append_assoc, List.singleton_append]
      | ended => exact ih
      | missed => exact ih
      | closed => exact ih

/-- The channel is closed exactly when a close has happened. -/
theorem closed_iff (history : History capacity log channel) :
    channel.closed = true ↔ ∃ closer, .closed closer ∈ log := by
  induction history with
  | start => simp
  | step history stepped ih =>
      cases stepped with
      | closed thread => simp
      | _ => simpa using ih

/-- After a pop has returned false the channel stays closed and empty. -/
theorem exhausted (history : History capacity log channel) {consumer : τ}
    (ended : .ended consumer ∈ log) : channel = ⟨[], true⟩ := by
  induction history with
  | start => cases ended
  | step history stepped ih =>
      rcases List.mem_cons.mp ended with now | before
      · subst now
        cases stepped
        rfl
      · have already := ih before
        cases stepped <;> simp_all

/-- A history is sound: no push after a close, no delivery after the end, and an end
only when everything pushed has been delivered. -/
theorem sound (history : History capacity log channel) : Sound Allowed log := by
  induction history with
  | start => trivial
  | step history stepped ih =>
      have balance := history.delivered_append_contents
      have closedIff := history.closed_iff
      apply ih.cons
      cases stepped with
      | pushed =>
          intro closer closed
          cases closedIff.mpr ⟨closer, closed⟩
      | refused => exact closedIff.mp rfl
      | delivered =>
          intro consumer ended
          cases history.exhausted ended
      | ended =>
          rw [List.append_nil] at balance
          exact ⟨closedIff.mp rfl, balance⟩
      | missed =>
          rw [List.append_nil] at balance
          exact balance
      | closed => trivial

end Channel.History

end NcnnUpscaler.Queue
