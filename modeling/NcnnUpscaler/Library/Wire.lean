import Mathlib.Algebra.Order.Ring.Int
import Mathlib.Data.List.Basic
import Mathlib.Tactic.Common

/-!
# Wire formats

A wire format pairs an encoder with a reader that consumes a prefix of its
input.  The two laws of `Format` make the reader the exact inverse of the
encoder on the values the format can carry, in both directions; everything
else in this module is derived from them.  The combinators build formats of
length-prefixed, counted and dependent data from the little-endian word.
-/

namespace Wire

/-- A byte string. -/
abbrev Bytes := List UInt8

/-- A format for values of type `α`.  `read` returns the value and the bytes
that follow its encoding. -/
structure Format (α : Type) where
  Valid : α → Prop
  encode : α → Bytes
  read : Bytes → Option (α × Bytes)
  read_encode : ∀ value rest, Valid value →
    read (encode value ++ rest) = some (value, rest)
  of_read : ∀ bytes value rest, read bytes = some (value, rest) →
    Valid value ∧ bytes = encode value ++ rest

namespace Format

variable {α β : Type}

/-- Reading succeeds exactly on the encodings of valid values. -/
theorem read_eq_some_iff (format : Format α) {bytes rest : Bytes} {value : α} :
    format.read bytes = some (value, rest) ↔
      format.Valid value ∧ bytes = format.encode value ++ rest := by
  constructor
  · exact format.of_read bytes value rest
  · rintro ⟨valid, rfl⟩
    exact format.read_encode value rest valid

/-- Encodings are prefix-free: two of them followed by anything agree only when
both the values and what follows them agree. -/
theorem encode_append_inj (format : Format α) {left right : α}
    {leftRest rightRest : Bytes} (leftValid : format.Valid left)
    (rightValid : format.Valid right)
    (equal : format.encode left ++ leftRest = format.encode right ++ rightRest) :
    left = right ∧ leftRest = rightRest := by
  have leftRead := format.read_encode left leftRest leftValid
  rw [equal, format.read_encode right rightRest rightValid] at leftRead
  simp only [Option.some.injEq, Prod.mk.injEq] at leftRead
  exact ⟨leftRead.1.symm, leftRead.2.symm⟩

/-- Decode a byte string that must be one encoding and nothing else. -/
def decode (format : Format α) (bytes : Bytes) : Option α :=
  match format.read bytes with
  | some (value, []) => some value
  | _ => none

theorem decode_eq_some_iff (format : Format α) {bytes : Bytes} {value : α} :
    format.decode bytes = some value ↔
      format.Valid value ∧ bytes = format.encode value := by
  constructor
  · intro decoded
    unfold decode at decoded
    split at decoded
    · next found readEq =>
        cases decoded
        simpa using format.of_read _ _ _ readEq
    · cases decoded
  · rintro ⟨valid, rfl⟩
    have readEq := format.read_encode value [] valid
    rw [List.append_nil] at readEq
    simp [decode, readEq]

/-- Appending bytes to an encoding never gives an encoding. -/
theorem decode_append (format : Format α) {bytes suffix : Bytes} {value other : α}
    (decoded : format.decode bytes = some value)
    (extended : format.decode (bytes ++ suffix) = some other) : suffix = [] := by
  obtain ⟨valid, rfl⟩ := format.decode_eq_some_iff.mp decoded
  obtain ⟨otherValid, equal⟩ := format.decode_eq_some_iff.mp extended
  have padded : format.encode value ++ suffix = format.encode other ++ [] := by
    rw [equal, List.append_nil]
  exact (format.encode_append_inj valid otherValid padded).2

/-! ## Primitive formats -/

/-- One byte. -/
def u8 : Format UInt8 where
  Valid := fun _ => True
  encode value := [value]
  read
    | [] => none
    | value :: rest => some (value, rest)
  read_encode := by
    intro value rest _
    rfl
  of_read := by
    intro bytes value rest readEq
    cases bytes with
    | nil => cases readEq
    | cons head tail =>
        cases readEq
        exact ⟨trivial, rfl⟩

/-- The four bytes of a word, least significant first. -/
def encodeU32 (value : UInt32) : Bytes :=
  [value.toUInt8, (value >>> 8).toUInt8, (value >>> 16).toUInt8,
    (value >>> 24).toUInt8]

/-- The word whose bytes, least significant first, are the arguments. -/
def decodeU32 (b0 b1 b2 b3 : UInt8) : UInt32 :=
  b0.toUInt32 ||| (b1.toUInt32 <<< 8) ||| (b2.toUInt32 <<< 16) |||
    (b3.toUInt32 <<< 24)

@[simp] theorem encodeU32_length (value : UInt32) :
    (encodeU32 value).length = 4 := rfl

/-- Joining a low part with a shifted high part is addition. -/
private theorem or_shifted {low bits : Nat} (high : Nat) (lowLt : low < 2 ^ bits) :
    low ||| 2 ^ bits * high = low + 2 ^ bits * high := by
  rw [Nat.or_comm, ← Nat.two_pow_add_eq_or_of_lt lowLt, Nat.add_comm]

theorem toNat_decodeU32 (b0 b1 b2 b3 : UInt8) :
    (decodeU32 b0 b1 b2 b3).toNat =
      b0.toNat + 2 ^ 8 * b1.toNat + 2 ^ 16 * b2.toNat + 2 ^ 24 * b3.toNat := by
  have b0Lt := b0.toNat_lt
  have b1Lt := b1.toNat_lt
  have b2Lt := b2.toNat_lt
  have b3Lt := b3.toNat_lt
  have shifted (b : UInt8) (bits : Nat) (small : 2 ^ bits * b.toNat < 2 ^ 32) :
      b.toNat <<< bits % 2 ^ 32 = 2 ^ bits * b.toNat := by
    rw [Nat.shiftLeft_eq, Nat.mul_comm, Nat.mod_eq_of_lt small]
  have s1 := shifted b1 8 (by omega)
  have s2 := shifted b2 16 (by omega)
  have s3 := shifted b3 24 (by omega)
  simp only [decodeU32, UInt32.toNat_or, UInt32.toNat_shiftLeft,
    UInt8.toNat_toUInt32]
  change b0.toNat ||| b1.toNat <<< 8 % 2 ^ 32 ||| b2.toNat <<< 16 % 2 ^ 32 |||
    b3.toNat <<< 24 % 2 ^ 32 = _
  rw [s1, s2, s3]
  rw [or_shifted b1.toNat (by omega)]
  rw [or_shifted b2.toNat (by omega)]
  rw [or_shifted b3.toNat (by omega)]

@[simp] theorem decodeU32_bytes (value : UInt32) :
    decodeU32 value.toUInt8 (value >>> 8).toUInt8 (value >>> 16).toUInt8
      (value >>> 24).toUInt8 = value := by
  apply UInt32.toNat_inj.mp
  have valueLt := value.toNat_lt
  simp only [toNat_decodeU32, UInt32.toNat_toUInt8, UInt32.toNat_shiftRight,
    Nat.shiftRight_eq_div_pow]
  change value.toNat % 2 ^ 8 + 2 ^ 8 * (value.toNat / 2 ^ 8 % 2 ^ 8) +
      2 ^ 16 * (value.toNat / 2 ^ 16 % 2 ^ 8) +
      2 ^ 24 * (value.toNat / 2 ^ 24 % 2 ^ 8) = value.toNat
  omega

@[simp] theorem encodeU32_decodeU32 (b0 b1 b2 b3 : UInt8) :
    encodeU32 (decodeU32 b0 b1 b2 b3) = [b0, b1, b2, b3] := by
  have b0Lt := b0.toNat_lt
  have b1Lt := b1.toNat_lt
  have b2Lt := b2.toNat_lt
  have b3Lt := b3.toNat_lt
  simp only [encodeU32, List.cons.injEq, and_true]
  refine ⟨?_, ?_, ?_, ?_⟩ <;>
    (apply UInt8.toNat_inj.mp
     simp only [UInt32.toNat_toUInt8, UInt32.toNat_shiftRight, toNat_decodeU32,
       Nat.shiftRight_eq_div_pow]
     simp only [UInt32.reduceToNat, Nat.reduceMod, Nat.reducePow]
     omega)

/-- The little-endian word. -/
def u32 : Format UInt32 where
  Valid := fun _ => True
  encode := encodeU32
  read
    | b0 :: b1 :: b2 :: b3 :: rest => some (decodeU32 b0 b1 b2 b3, rest)
    | _ => none
  read_encode := by
    intro value rest _
    simp [encodeU32]
  of_read := by
    intro bytes value rest readEq
    match bytes with
    | [] | [_] | [_, _] | [_, _, _] => cases readEq
    | b0 :: b1 :: b2 :: b3 :: tail =>
        cases readEq
        exact ⟨trivial, by simp⟩

/-- A byte string of known length. -/
def raw (length : Nat) : Format Bytes where
  Valid value := value.length = length
  encode := id
  read bytes :=
    if length ≤ bytes.length then some (bytes.take length, bytes.drop length)
    else none
  read_encode := by
    intro value rest valid
    subst valid
    simp
  of_read := by
    intro bytes value rest readEq
    split at readEq
    · next inBounds =>
        cases readEq
        exact ⟨by simp [inBounds], by simp⟩
    · cases readEq

/-! ## Combinators -/

/-- A value followed by another whose format depends on it. -/
def dep (first : Format α) (second : α → Format β) : Format (α × β) where
  Valid value := first.Valid value.1 ∧ (second value.1).Valid value.2
  encode value := first.encode value.1 ++ (second value.1).encode value.2
  read bytes :=
    match first.read bytes with
    | none => none
    | some (head, middle) =>
        match (second head).read middle with
        | none => none
        | some (tail, rest) => some ((head, tail), rest)
  read_encode := by
    rintro ⟨head, tail⟩ rest ⟨headValid, tailValid⟩
    simp only [List.append_assoc]
    rw [first.read_encode head _ headValid]
    simp only [(second head).read_encode tail rest tailValid]
  of_read := by
    intro bytes value rest readEq
    split at readEq
    · cases readEq
    · next head middle headEq =>
        split at readEq
        · cases readEq
        · next tail last tailEq =>
            cases readEq
            obtain ⟨headValid, rfl⟩ := first.of_read _ _ _ headEq
            obtain ⟨tailValid, rfl⟩ := (second head).of_read _ _ _ tailEq
            exact ⟨⟨headValid, tailValid⟩, by rw [List.append_assoc]⟩

/-- Two values in order. -/
def pair (first : Format α) (second : Format β) : Format (α × β) :=
  first.dep fun _ => second

/-- Carry values of `β` by the values of `α` that `pack` accepts. -/
def refine (format : Format α) (pack : α → Option β) (unpack : β → α)
    (unpack_pack : ∀ raw value, format.Valid raw → pack raw = some value →
      unpack value = raw) : Format β where
  Valid value := format.Valid (unpack value) ∧ pack (unpack value) = some value
  encode value := format.encode (unpack value)
  read bytes :=
    match format.read bytes with
    | none => none
    | some (found, rest) => (pack found).map fun value => (value, rest)
  read_encode := by
    rintro value rest ⟨valid, packed⟩
    rw [format.read_encode _ rest valid]
    simp [packed]
  of_read := by
    intro bytes value rest readEq
    split at readEq
    · cases readEq
    · next found last foundEq =>
        obtain ⟨valid, rfl⟩ := format.of_read _ _ _ foundEq
        simp only [Option.map_eq_some_iff, Prod.mk.injEq] at readEq
        obtain ⟨_, packed, rfl, rfl⟩ := readEq
        have unpacked := unpack_pack found _ valid packed
        exact ⟨⟨unpacked ▸ valid, unpacked.symm ▸ packed⟩, by rw [unpacked]⟩

/-- Read a fixed number of values one after the other. -/
def readMany (format : Format α) : Nat → Bytes → Option (List α × Bytes)
  | 0, bytes => some ([], bytes)
  | count + 1, bytes =>
      match format.read bytes with
      | none => none
      | some (value, middle) =>
          match format.readMany count middle with
          | none => none
          | some (values, rest) => some (value :: values, rest)

theorem readMany_flatMap (format : Format α) (values : List α) (rest : Bytes)
    (valid : ∀ value ∈ values, format.Valid value) :
    format.readMany values.length (values.flatMap format.encode ++ rest) =
      some (values, rest) := by
  induction values with
  | nil => rfl
  | cons value values ih =>
      have headValid := valid value (by simp)
      have tailValid : ∀ other ∈ values, format.Valid other := by
        intro other member
        exact valid other (by simp [member])
      simp only [List.flatMap_cons, List.append_assoc, List.length_cons, readMany]
      rw [format.read_encode value _ headValid]
      simp only [ih tailValid]

theorem of_readMany (format : Format α) {count : Nat} {bytes rest : Bytes}
    {values : List α} (readEq : format.readMany count bytes = some (values, rest)) :
    values.length = count ∧ (∀ value ∈ values, format.Valid value) ∧
      bytes = values.flatMap format.encode ++ rest := by
  induction count generalizing bytes values with
  | zero =>
      cases readEq
      simp
  | succ count ih =>
      simp only [readMany] at readEq
      split at readEq
      · cases readEq
      · next value middle headEq =>
          split at readEq
          · cases readEq
          · next tail last tailEq =>
              cases readEq
              obtain ⟨headValid, rfl⟩ := format.of_read _ _ _ headEq
              obtain ⟨rfl, tailValid, rfl⟩ := ih tailEq
              refine ⟨rfl, ?_, by simp⟩
              intro other member
              rcases List.mem_cons.mp member with rfl | later
              · exact headValid
              · exact tailValid other later

/-- A fixed number of values of one format. -/
def replicate (format : Format α) (count : Nat) : Format (List α) where
  Valid values := values.length = count ∧ ∀ value ∈ values, format.Valid value
  encode values := values.flatMap format.encode
  read := format.readMany count
  read_encode := by
    rintro values rest ⟨rfl, valid⟩
    exact format.readMany_flatMap values rest valid
  of_read := by
    intro bytes values rest readEq
    obtain ⟨lengthEq, valid, bytesEq⟩ := format.of_readMany readEq
    exact ⟨⟨lengthEq, valid⟩, bytesEq⟩

/-- A byte string preceded by its length. -/
def sized : Format Bytes :=
  (u32.dep fun length => raw length.toNat).refine
    (fun (_, value) => some value)
    (fun value => (UInt32.ofNat value.length, value))
    (by
      rintro ⟨length, value⟩ _ ⟨_, lengthEq⟩ packed
      cases packed
      change value.length = length.toNat at lengthEq
      rw [lengthEq, UInt32.ofNat_toNat])

theorem sized_encode (value : Bytes) :
    sized.encode value = encodeU32 (UInt32.ofNat value.length) ++ value := rfl

@[simp] theorem sized_valid (value : Bytes) :
    sized.Valid value ↔ value.length < 2 ^ 32 := by
  have reduced : (UInt32.ofNat value.length).toNat = value.length % 2 ^ 32 := by
    simp
  change ((True ∧ value.length = (UInt32.ofNat value.length).toNat) ∧
    some value = some value) ↔ _
  rw [reduced]
  constructor
  · rintro ⟨⟨_, lengthEq⟩, _⟩
    rw [lengthEq]
    exact Nat.mod_lt _ (by decide)
  · intro small
    exact ⟨⟨trivial, (Nat.mod_eq_of_lt small).symm⟩, rfl⟩

@[simp] theorem sized_encode_length (value : Bytes) :
    (sized.encode value).length = 4 + value.length := by
  rw [sized_encode, List.length_append, encodeU32_length]

/-- A list preceded by its number of entries. -/
def counted (format : Format α) : Format (List α) :=
  (u32.dep fun count => format.replicate count.toNat).refine
    (fun (_, values) => some values)
    (fun values => (UInt32.ofNat values.length, values))
    (by
      rintro ⟨count, values⟩ _ ⟨_, lengthEq, _⟩ packed
      cases packed
      change values.length = count.toNat at lengthEq
      rw [lengthEq, UInt32.ofNat_toNat])

@[simp] theorem counted_valid (format : Format α) (values : List α) :
    format.counted.Valid values ↔
      values.length < 2 ^ 32 ∧ ∀ value ∈ values, format.Valid value := by
  have reduced : (UInt32.ofNat values.length).toNat = values.length % 2 ^ 32 := by
    simp
  change ((True ∧ values.length = (UInt32.ofNat values.length).toNat ∧
    ∀ value ∈ values, format.Valid value) ∧ some values = some values) ↔ _
  rw [reduced]
  constructor
  · rintro ⟨⟨_, lengthEq, valid⟩, _⟩
    exact ⟨lengthEq ▸ Nat.mod_lt _ (by decide), valid⟩
  · rintro ⟨small, valid⟩
    exact ⟨⟨trivial, (Nat.mod_eq_of_lt small).symm, valid⟩, rfl⟩

/-- A value preceded by the length of its encoding. -/
def framed (format : Format α) : Format α :=
  sized.refine format.decode format.encode
    (by
      intro bytes value _ decoded
      exact (format.decode_eq_some_iff.mp decoded).2.symm)

theorem framed_encode (format : Format α) (value : α) :
    format.framed.encode value = sized.encode (format.encode value) := rfl

@[simp] theorem framed_valid (format : Format α) (value : α) :
    format.framed.Valid value ↔
      (format.encode value).length < 2 ^ 32 ∧ format.Valid value := by
  change (sized.Valid (format.encode value) ∧
    format.decode (format.encode value) = some value) ↔ _
  rw [sized_valid, decode_eq_some_iff]
  exact and_congr_right fun _ => and_iff_left rfl

/-! ## Streams -/

/-- Split a byte string into consecutive encodings until it is used up.  The
first argument bounds the number of values. -/
def readStream (format : Format α) : Nat → Bytes → Option (List α)
  | _, [] => some []
  | 0, _ :: _ => none
  | fuel + 1, bytes@(_ :: _) =>
      match format.read bytes with
      | none => none
      | some (value, rest) => (format.readStream fuel rest).map (value :: ·)

/-- Split a whole byte string into consecutive encodings. -/
def decodeStream (format : Format α) (bytes : Bytes) : Option (List α) :=
  format.readStream bytes.length bytes

theorem readStream_flatMap (format : Format α) (values : List α) (fuel : Nat)
    (valid : ∀ value ∈ values, format.Valid value)
    (nonempty : ∀ value, format.encode value ≠ [])
    (enough : (values.flatMap format.encode).length ≤ fuel) :
    format.readStream fuel (values.flatMap format.encode) = some values := by
  induction values generalizing fuel with
  | nil => cases fuel <;> rfl
  | cons value values ih =>
      have tailValid : ∀ other ∈ values, format.Valid other := by
        intro other member
        exact valid other (by simp [member])
      cases encodeEq : format.encode value with
      | nil => exact absurd encodeEq (nonempty value)
      | cons byte bytes =>
          simp only [List.flatMap_cons, List.length_append, encodeEq,
            List.length_cons] at enough
          cases fuel with
          | zero => omega
          | succ fuel =>
              have readEq := format.read_encode value (values.flatMap format.encode)
                (valid value (by simp))
              simp only [encodeEq, List.cons_append] at readEq
              simp only [List.flatMap_cons, encodeEq, List.cons_append, readStream,
                readEq]
              rw [ih fuel tailValid (by omega)]
              rfl

/-- The concatenation of encodings is split into exactly the encoded values. -/
theorem decodeStream_flatMap (format : Format α) (values : List α)
    (valid : ∀ value ∈ values, format.Valid value)
    (nonempty : ∀ value, format.encode value ≠ []) :
    format.decodeStream (values.flatMap format.encode) = some values :=
  format.readStream_flatMap values _ valid nonempty (Nat.le_refl _)

end Format
end Wire
