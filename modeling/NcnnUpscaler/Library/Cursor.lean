import NcnnUpscaler.Library.Wire

/-!
# Cursor walks over a byte buffer

A hand-written parser moves a pointer through a buffer and keeps the number of
bytes left in a separate counter; nothing ties the two together or keeps the
pointer inside the buffer.  `Walk` is that style of program, with every offset
it dereferences recorded.  `Parser` is the same program on the unread suffix,
where reading out of bounds cannot be expressed.  `RefinesAt` relates the two:
the walk computes what the parser computes and dereferences only offsets inside
the buffer.
-/

namespace Wire

/-- A pointer into a buffer, as an offset from its start, the number of bytes
believed to be left, and the offsets dereferenced so far. -/
structure Cursor where
  ptr : Nat
  remaining : Nat
  reads : List Nat
  deriving Repr, DecidableEq

namespace Cursor

/-- The cursor at the start of a buffer. -/
def start (data : Bytes) : Cursor := { ptr := 0, remaining := data.length, reads := [] }

/-- The counter agrees with the pointer, and no read was out of bounds. -/
structure At (data : Bytes) (cursor : Cursor) : Prop where
  ends : cursor.ptr + cursor.remaining = data.length
  inBounds : ∀ offset ∈ cursor.reads, offset < data.length

theorem at_start (data : Bytes) : (start data).At data where
  ends := by simp [start]
  inBounds := by simp [start]

/-- Record the offsets `ptr, …, ptr + count - 1` as dereferenced. -/
def touch (cursor : Cursor) (count : Nat) : Cursor :=
  { cursor with
    reads := cursor.reads ++ (List.range count).map (cursor.ptr + ·) }

/-- Move the pointer forward. -/
def advance (cursor : Cursor) (count : Nat) : Cursor :=
  { cursor with
    ptr := cursor.ptr + count, remaining := cursor.remaining - count }

/-- The bytes the cursor has not passed. -/
def unread (data : Bytes) (cursor : Cursor) : Bytes := data.drop cursor.ptr

variable {data : Bytes} {cursor : Cursor}

theorem At.unread_length (valid : cursor.At data) :
    (cursor.unread data).length = cursor.remaining := by
  have ends := valid.ends
  simp only [unread, List.length_drop]
  omega

theorem At.consume (valid : cursor.At data) {count : Nat}
    (enough : count ≤ cursor.remaining) :
    ((cursor.touch count).advance count).At data where
  ends := by
    have ends := valid.ends
    simp only [touch, advance]
    omega
  inBounds := by
    intro offset member
    have ends := valid.ends
    simp only [touch, advance, List.mem_append, List.mem_map, List.mem_range] at member
    rcases member with earlier | ⟨index, indexLt, rfl⟩
    · exact valid.inBounds offset earlier
    · omega

@[simp] theorem unread_consume (data : Bytes) (cursor : Cursor) (count : Nat) :
    ((cursor.touch count).advance count).unread data =
      (cursor.unread data).drop count := by
  simp [unread, touch, advance]

end Cursor

/-- A program that moves a cursor and may stop with an error. -/
def Walk (ε α : Type) := Cursor → Except ε α × Cursor

/-- A program on the unread suffix of a buffer that may stop with an error. -/
def Parser (ε α : Type) := Bytes → Except ε (α × Bytes)

variable {ε α β : Type}

namespace Walk

instance : Monad (Walk ε) where
  pure value cursor := (.ok value, cursor)
  bind walk next cursor :=
    match walk cursor with
    | (.ok value, moved) => next value moved
    | (.error failure, moved) => (.error failure, moved)

/-- Stop with an error when a check fails. -/
def rejectIf (condition : Prop) [Decidable condition] (failure : ε) : Walk ε Unit :=
  fun cursor => (if condition then .error failure else .ok (), cursor)

/-- The number of bytes left. -/
def remaining : Walk ε Nat := fun cursor => (.ok cursor.remaining, cursor)

/-- Copy the bytes at `ptr, …, ptr + count - 1` and move past them. -/
def take (data : Bytes) (count : Nat) : Walk ε Bytes := fun cursor =>
  (.ok ((List.range count).map fun index => data.getD (cursor.ptr + index) 0),
    (cursor.touch count).advance count)

/-- Stop with an error when a read reports that it failed. -/
def require (read : Walk ε (Option α)) (failure : ε) : Walk ε α := do
  match ← read with
  | some value => pure value
  | none => fun cursor => (.error failure, cursor)

end Walk

namespace Parser

instance : Monad (Parser ε) where
  pure value bytes := .ok (value, bytes)
  bind parser next bytes :=
    match parser bytes with
    | .ok (value, rest) => next value rest
    | .error failure => .error failure

def rejectIf (condition : Prop) [Decidable condition] (failure : ε) : Parser ε Unit :=
  fun bytes => if condition then .error failure else .ok ((), bytes)

def remaining : Parser ε Nat := fun bytes => .ok (bytes.length, bytes)

def take (count : Nat) : Parser ε Bytes :=
  fun bytes => .ok (bytes.take count, bytes.drop count)

/-- Read one value of a wire format, or stop with the given error. -/
def require (format : Format α) (failure : ε) : Parser ε α := fun bytes =>
  match format.read bytes with
  | some found => .ok found
  | none => .error failure

private theorem parser_id_map {α : Type} (parser : Parser ε α) : id <$> parser = parser := by
  funext bytes
  change (match parser bytes with
    | .ok (value, rest) => .ok (value, rest)
    | .error failure => .error failure) = parser bytes
  cases parser bytes with
  | error failure => rfl
  | ok found => rfl

private theorem parser_bind_assoc {α β γ : Type} (parser : Parser ε α)
    (next : α → Parser ε β) (last : β → Parser ε γ) :
    parser >>= next >>= last = parser >>= fun value => next value >>= last := by
  funext bytes
  simp only [Bind.bind]
  cases parser bytes with
  | error failure => rfl
  | ok found => rfl

instance : LawfulMonad (Parser ε) :=
  LawfulMonad.mk' _ parser_id_map (fun _ _ => rfl) parser_bind_assoc

/-! ## Inversion of successful and failed runs -/

variable {bytes rest : Bytes}

@[simp] theorem pure_eq_ok {value result : α} :
    (pure value : Parser ε α) bytes = .ok (result, rest) ↔
      result = value ∧ rest = bytes := by
  change Except.ok (value, bytes) = .ok (result, rest) ↔ _
  simp only [Except.ok.injEq, Prod.mk.injEq]
  exact ⟨fun same => ⟨same.1.symm, same.2.symm⟩, fun same => ⟨same.1.symm, same.2.symm⟩⟩

@[simp] theorem pure_ne_error {value : α} {failure : ε} :
    (pure value : Parser ε α) bytes ≠ .error failure := by
  intro equal
  cases equal

/-- Run the first step of a sequence that is known to succeed. -/
theorem bind_of_ok {parser : Parser ε α} {next : α → Parser ε β} {value : α}
    (first : parser bytes = .ok (value, rest)) :
    (parser >>= next) bytes = next value rest := by
  change (match parser bytes with
    | .ok (value, rest) => next value rest
    | .error failure => .error failure) = _
  rw [first]

/-- A sequence stops with its first step. -/
theorem bind_of_error {parser : Parser ε α} {next : α → Parser ε β} {failure : ε}
    (first : parser bytes = .error failure) :
    (parser >>= next) bytes = .error failure := by
  change (match parser bytes with
    | .ok (value, rest) => next value rest
    | .error failure => .error failure) = _
  rw [first]

theorem bind_eq_ok {parser : Parser ε α} {next : α → Parser ε β}
    {result : β × Bytes} :
    (parser >>= next) bytes = .ok result ↔
      ∃ value middle, parser bytes = .ok (value, middle) ∧
        next value middle = .ok result := by
  change (match parser bytes with
    | .ok (value, rest) => next value rest
    | .error failure => .error failure) = .ok result ↔ _
  cases parser bytes with
  | error failure => simp
  | ok found => simp [Prod.ext_iff]

theorem bind_eq_error {parser : Parser ε α} {next : α → Parser ε β} {failure : ε} :
    (parser >>= next) bytes = .error failure ↔
      parser bytes = .error failure ∨
        ∃ value middle, parser bytes = .ok (value, middle) ∧
          next value middle = .error failure := by
  change (match parser bytes with
    | .ok (value, rest) => next value rest
    | .error failure => .error failure) = .error failure ↔ _
  cases parser bytes with
  | error failure => simp
  | ok found => simp [Prod.ext_iff]

@[simp] theorem rejectIf_eq_ok {condition : Prop} [Decidable condition] {failure : ε}
    {result : Unit} :
    rejectIf condition failure bytes = .ok (result, rest) ↔
      ¬condition ∧ rest = bytes := by
  unfold rejectIf
  split <;> simp_all [eq_comm]

theorem rejectIf_of_not {condition : Prop} [Decidable condition] {failure : ε}
    (fails : ¬condition) : rejectIf condition failure bytes = .ok ((), bytes) :=
  rejectIf_eq_ok.mpr ⟨fails, rfl⟩

@[simp] theorem rejectIf_eq_error {condition : Prop} [Decidable condition]
    {failure found : ε} :
    rejectIf condition failure bytes = .error found ↔ condition ∧ found = failure := by
  unfold rejectIf
  split <;> simp_all [eq_comm]

@[simp] theorem remaining_eq_ok {count : Nat} :
    (remaining : Parser ε Nat) bytes = .ok (count, rest) ↔
      count = bytes.length ∧ rest = bytes := by
  simp [remaining, eq_comm]

@[simp] theorem remaining_ne_error {failure : ε} :
    (remaining : Parser ε Nat) bytes ≠ .error failure := by
  simp [remaining]

@[simp] theorem take_eq_ok {count : Nat} {taken : Bytes} :
    (take count : Parser ε Bytes) bytes = .ok (taken, rest) ↔
      taken = bytes.take count ∧ rest = bytes.drop count := by
  simp [take, eq_comm]

@[simp] theorem take_ne_error {count : Nat} {failure : ε} :
    (take count : Parser ε Bytes) bytes ≠ .error failure := by
  simp [take]

@[simp] theorem require_eq_ok {format : Format α} {failure : ε} {value : α} :
    require format failure bytes = .ok (value, rest) ↔
      format.Valid value ∧ bytes = format.encode value ++ rest := by
  rw [← format.read_eq_some_iff]
  cases readEq : format.read bytes <;> simp [require, readEq]

@[simp] theorem require_eq_error {format : Format α} {failure found : ε} :
    require format failure bytes = .error found ↔
      format.read bytes = none ∧ found = failure := by
  cases readEq : format.read bytes <;> simp [require, readEq, eq_comm]

/-! ## What a parser may fail with -/

/-- Every error the parser stops with satisfies `allowed`. -/
def FailsWith (allowed : ε → Prop) (parser : Parser ε α) : Prop :=
  ∀ bytes failure, parser bytes = .error failure → allowed failure

variable {allowed : ε → Prop}

theorem failsWith_pure (value : α) : FailsWith allowed (pure value : Parser ε α) := by
  intro bytes failure failed
  exact absurd failed pure_ne_error

theorem FailsWith.mono {parser : Parser ε α} {weaker : ε → Prop}
    (fails : FailsWith allowed parser) (implied : ∀ failure, allowed failure → weaker failure) :
    FailsWith weaker parser := by
  intro bytes failure failed
  exact implied failure (fails bytes failure failed)

theorem FailsWith.bind {parser : Parser ε α} {next : α → Parser ε β}
    (first : FailsWith allowed parser) (second : ∀ value, FailsWith allowed (next value)) :
    FailsWith allowed (parser >>= next) := by
  intro bytes failure failed
  rcases bind_eq_error.mp failed with failed | ⟨value, middle, _, failed⟩
  · exact first bytes failure failed
  · exact second value middle failure failed

theorem failsWith_rejectIf {condition : Prop} [Decidable condition] {failure : ε}
    (ok : allowed failure) : FailsWith allowed (rejectIf condition failure) := by
  intro bytes found failed
  rw [(rejectIf_eq_error.mp failed).2]
  exact ok

/-- What follows a check may use that it passed. -/
theorem FailsWith.guard {condition : Prop} [Decidable condition] {failure : ε}
    {next : Unit → Parser ε β} (ok : condition → allowed failure)
    (rest : ¬condition → FailsWith allowed (next ())) :
    FailsWith allowed (rejectIf condition failure >>= next) := by
  intro bytes found failed
  by_cases holds : condition
  · rw [bind_of_error (rejectIf_eq_error.mpr ⟨holds, rfl⟩)] at failed
    cases failed
    exact ok holds
  · rw [bind_of_ok (rejectIf_of_not holds)] at failed
    exact rest holds bytes found failed

theorem failsWith_remaining : FailsWith allowed (remaining : Parser ε Nat) := by
  intro bytes failure failed
  exact absurd failed remaining_ne_error

theorem failsWith_take (count : Nat) : FailsWith allowed (take count : Parser ε Bytes) := by
  intro bytes failure failed
  exact absurd failed take_ne_error

theorem failsWith_require {format : Format α} {failure : ε} (ok : allowed failure) :
    FailsWith allowed (require format failure) := by
  intro bytes found failed
  rw [(require_eq_error.mp failed).2]
  exact ok

end Parser

/-! ## Refinement of suffix parsers by cursor walks -/

namespace Walk

variable {data : Bytes} {cursor : Cursor}

/-- Started at `cursor`, the walk returns what the parser returns on the unread
bytes, leaves the cursor where the parser stops, and reads inside the buffer. -/
def RefinesAt (data : Bytes) (cursor : Cursor) (walk : Walk ε α)
    (parser : Parser ε α) : Prop :=
  match walk cursor with
  | (.ok value, moved) =>
      moved.At data ∧ parser (cursor.unread data) = .ok (value, moved.unread data)
  | (.error failure, moved) =>
      (∀ offset ∈ moved.reads, offset < data.length) ∧
        parser (cursor.unread data) = .error failure

theorem refinesAt_pure (valid : cursor.At data) (value : α) :
    RefinesAt data cursor (pure value : Walk ε α) (pure value) :=
  ⟨valid, rfl⟩

/-- Sequential composition. -/
theorem RefinesAt.bind {walk : Walk ε α} {parser : Parser ε α}
    {next : α → Walk ε β} {parserNext : α → Parser ε β}
    (first : RefinesAt data cursor walk parser)
    (rest : ∀ value moved, moved.At data →
      RefinesAt data moved (next value) (parserNext value)) :
    RefinesAt data cursor (walk >>= next) (parser >>= parserNext) := by
  unfold RefinesAt at first ⊢
  simp only [Bind.bind]
  cases walkEq : walk cursor with
  | mk outcome moved =>
      rw [walkEq] at first
      cases outcome with
      | error failure =>
          obtain ⟨inBounds, parserEq⟩ := first
          exact ⟨inBounds, by rw [parserEq]⟩
      | ok value =>
          obtain ⟨movedAt, parserEq⟩ := first
          simp only [parserEq]
          exact rest value moved movedAt

/-- A check does not move the cursor, and what follows it may use its outcome. -/
theorem refinesAt_rejectIf (valid : cursor.At data) {condition : Prop}
    [Decidable condition] {failure : ε} {next : Unit → Walk ε β}
    {parserNext : Unit → Parser ε β}
    (rest : ¬condition → RefinesAt data cursor (next ()) (parserNext ())) :
    RefinesAt data cursor (rejectIf condition failure >>= next)
      (Parser.rejectIf condition failure >>= parserNext) := by
  unfold RefinesAt at rest ⊢
  simp only [Bind.bind, rejectIf, Parser.rejectIf]
  by_cases holds : condition
  · simp only [if_pos holds]
    exact ⟨valid.inBounds, trivial⟩
  · simp only [if_neg holds]
    exact rest holds

/-- The counter is the length of the unread suffix. -/
theorem refinesAt_remaining (valid : cursor.At data) {next : Nat → Walk ε β}
    {parserNext : Nat → Parser ε β}
    (rest : RefinesAt data cursor (next cursor.remaining)
      (parserNext cursor.remaining)) :
    RefinesAt data cursor (remaining >>= next) (Parser.remaining >>= parserNext) := by
  unfold RefinesAt at rest ⊢
  simp only [Bind.bind, remaining, Parser.remaining]
  rw [valid.unread_length]
  exact rest

/-- The bytes at the pointer are the first unread ones. -/
theorem map_getD_eq_take (valid : cursor.At data) {count : Nat}
    (enough : count ≤ cursor.remaining) :
    ((List.range count).map fun index => data.getD (cursor.ptr + index) 0) =
      (cursor.unread data).take count := by
  have ends := valid.ends
  apply List.ext_getElem
  · simp only [List.length_map, List.length_range, List.length_take,
      valid.unread_length]
    omega
  · intro index leftLt rightLt
    simp only [List.length_map, List.length_range] at leftLt
    have inData : cursor.ptr + index < data.length := by omega
    simp [Cursor.unread, List.getD_eq_getElem?_getD, List.getElem?_eq_getElem inData]

/-- Copying bytes that are there consumes them. -/
theorem refinesAt_take (valid : cursor.At data) {count : Nat}
    (enough : count ≤ cursor.remaining) :
    RefinesAt data cursor (take data count : Walk ε Bytes) (Parser.take count) := by
  simp only [RefinesAt, take, Parser.take]
  refine ⟨valid.consume enough, ?_⟩
  rw [map_getD_eq_take valid enough, Cursor.unread_consume]

/-- At `cursor`, a read takes one value of the format from the unread bytes, or
reports failure and stays where it is. -/
def ReadsAs (data : Bytes) (cursor : Cursor) (read : Walk ε (Option α))
    (format : Format α) : Prop :=
  match format.read (cursor.unread data) with
  | none => read cursor = (.ok none, cursor)
  | some (value, rest) =>
      ∃ moved : Cursor, read cursor = (.ok (some value), moved) ∧ moved.At data ∧
        moved.unread data = rest

theorem ReadsAs.require (valid : cursor.At data) {read : Walk ε (Option α)}
    {format : Format α} (reads : ReadsAs data cursor read format) (failure : ε) :
    RefinesAt data cursor (Walk.require read failure)
      (Parser.require format failure) := by
  simp only [ReadsAs] at reads
  simp only [RefinesAt, Walk.require, Bind.bind, Parser.require]
  cases formatEq : format.read (cursor.unread data) with
  | none =>
      rw [formatEq] at reads
      simp only [reads]
      exact ⟨valid.inBounds, trivial⟩
  | some found =>
      rw [formatEq] at reads
      rcases reads with ⟨moved, readEq, movedAt, restEq⟩
      simp only [readEq]
      refine ⟨movedAt, ?_⟩
      rw [restEq]

/-- A walk over a whole buffer returns what the parser returns on it, and never
reads outside it. -/
theorem RefinesAt.run {walk : Walk ε α} {parser : Parser ε α}
    (refines : RefinesAt data (Cursor.start data) walk parser) :
    (walk (Cursor.start data)).1 = (parser data).map Prod.fst ∧
      ∀ offset ∈ (walk (Cursor.start data)).2.reads, offset < data.length := by
  have unreadStart : (Cursor.start data).unread data = data := rfl
  unfold RefinesAt at refines
  rw [unreadStart] at refines
  cases walkEq : walk (Cursor.start data) with
  | mk outcome moved =>
      rw [walkEq] at refines
      cases outcome with
      | error failure =>
          obtain ⟨inBounds, parserEq⟩ := refines
          exact ⟨by rw [parserEq]; rfl, inBounds⟩
      | ok value =>
          obtain ⟨movedAt, parserEq⟩ := refines
          exact ⟨by rw [parserEq]; rfl, movedAt.inBounds⟩

end Walk
end Wire
