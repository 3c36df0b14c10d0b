/-
**Self-delimiting byte formats.**

A `Wire α` writes a value and reads it back from the front of any byte list, leaving what follows
untouched. Formats compose: pairs, optional values, length-prefixed sequences, tagged alternatives,
and values seen through a partial inverse. Integers are little-endian base-128 with a continuation
bit, texts are length-prefixed UTF-8.
-/

import Kernis.Lib.Text

namespace Kernis

/-- A format that reads back exactly what it wrote, in front of anything. -/
structure Wire (α : Type) where
  put : α → List UInt8
  take : List UInt8 → Option (α × List UInt8)
  take_put : ∀ value rest, take (put value ++ rest) = some (value, rest)

namespace Wire

variable {α β : Type}

/-- The empty format. -/
def nothing : Wire Unit where
  put _ := []
  take bytes := some ((), bytes)
  take_put _ _ := rfl

/-- One value after the other. -/
def both (first : Wire α) (second : Wire β) : Wire (α × β) where
  put value := first.put value.1 ++ second.put value.2
  take bytes :=
    match first.take bytes with
    | none => none
    | some (left, rest) =>
      match second.take rest with
      | none => none
      | some (right, rest) => some ((left, right), rest)
  take_put := by
    rintro ⟨left, right⟩ rest
    simp only [List.append_assoc, first.take_put, second.take_put]

/-- A value seen through a partial inverse. -/
def through (wire : Wire β) (out : α → β) (back : β → Option α)
    (inverse : ∀ value, back (out value) = some value) : Wire α where
  put value := wire.put (out value)
  take bytes :=
    match wire.take bytes with
    | none => none
    | some (raw, rest) => (back raw).map fun value => (value, rest)
  take_put := by
    intro value rest
    simp only [wire.take_put, inverse, Option.map_some]

/-! ### Integers -/

/-- Base-128 digits, low first, with the continuation bit on all but the last. -/
def putVarintWith : Nat → Nat → List UInt8
  | 0, n => [UInt8.ofNat n]
  | fuel + 1, n =>
    if n < 128 then [UInt8.ofNat n]
    else UInt8.ofNat (n % 128 + 128) :: putVarintWith fuel (n / 128)

/-- Reads base-128 digits up to the first byte without the continuation bit. -/
def takeVarint : List UInt8 → Option (Nat × List UInt8)
  | [] => none
  | byte :: rest =>
    if byte.toNat < 128 then some (byte.toNat, rest)
    else
      match takeVarint rest with
      | none => none
      | some (high, rest) => some (byte.toNat - 128 + 128 * high, rest)

theorem takeVarint_putVarintWith (fuel n : Nat) (enough : n ≤ fuel) (rest : List UInt8) :
    takeVarint (putVarintWith fuel n ++ rest) = some (n, rest) := by
  induction fuel generalizing n with
  | zero =>
    obtain rfl : n = 0 := by omega
    rfl
  | succ fuel ih =>
    unfold putVarintWith
    split
    · rename_i small
      have read : (UInt8.ofNat n).toNat = n := by
        rw [UInt8.toNat_ofNat']
        omega
      show takeVarint (UInt8.ofNat n :: rest) = _
      rw [takeVarint, read, if_pos small]
    · have read : (UInt8.ofNat (n % 128 + 128)).toNat = n % 128 + 128 := by
        rw [UInt8.toNat_ofNat']
        omega
      show takeVarint (UInt8.ofNat (n % 128 + 128) :: (putVarintWith fuel (n / 128) ++ rest)) = _
      rw [takeVarint, read, if_neg (by omega), ih (n / 128) (by omega)]
      show some (n % 128 + 128 - 128 + 128 * (n / 128), rest) = _
      rw [show n % 128 + 128 - 128 + 128 * (n / 128) = n by omega]

/-- An unsigned integer. -/
def varint : Wire Nat where
  put n := putVarintWith n n
  take := takeVarint
  take_put n rest := takeVarint_putVarintWith n n (Nat.le_refl n) rest

/-! ### Sequences and texts -/

/-- The elements one after the other. -/
def putAll (wire : Wire α) (values : List α) : List UInt8 := values.flatMap wire.put

/-- Reads the given number of elements. -/
def takeAll (wire : Wire α) : Nat → List UInt8 → Option (List α × List UInt8)
  | 0, bytes => some ([], bytes)
  | count + 1, bytes =>
    match wire.take bytes with
    | none => none
    | some (value, rest) =>
      match takeAll wire count rest with
      | none => none
      | some (values, rest) => some (value :: values, rest)

theorem takeAll_putAll (wire : Wire α) (values : List α) (rest : List UInt8) :
    wire.takeAll values.length (wire.putAll values ++ rest) = some (values, rest) := by
  induction values with
  | nil => rfl
  | cons value values ih =>
    have split : wire.putAll (value :: values) ++ rest =
        wire.put value ++ (wire.putAll values ++ rest) := by
      simp only [putAll, List.flatMap_cons, List.append_assoc]
    rw [split, List.length_cons, takeAll, wire.take_put]
    simp only [ih]

/-- A length-prefixed sequence. -/
def sequence (wire : Wire α) : Wire (List α) where
  put values := varint.put values.length ++ wire.putAll values
  take bytes :=
    match varint.take bytes with
    | none => none
    | some (count, rest) => wire.takeAll count rest
  take_put := by
    intro values rest
    simp only [List.append_assoc, varint.take_put, takeAll_putAll]

/-- One raw byte. -/
def byte : Wire UInt8 where
  put value := [value]
  take
    | [] => none
    | value :: rest => some (value, rest)
  take_put _ _ := rfl

/-- The UTF-8 bytes of a text. -/
def utf8 (text : Text) : List UInt8 := text.flatMap String.utf8EncodeChar

/-- The text of UTF-8 bytes. -/
def ofUtf8 (bytes : List UInt8) : Option Text := bytes.toByteArray.utf8Decode?.map Array.toList

theorem ofUtf8_utf8 (text : Text) : ofUtf8 (utf8 text) = some text := by
  unfold ofUtf8
  have same : (utf8 text).toByteArray = text.utf8Encode := rfl
  rw [same, List.utf8Decode?_utf8Encode]
  rfl

/-- A length-prefixed text. -/
def text : Wire Text := byte.sequence.through utf8 ofUtf8 ofUtf8_utf8

/-- A text that is not blank. -/
def nonBlank : Wire NonBlank :=
  text.through Subtype.val (fun raw => if valid : blank raw = false then some ⟨raw, valid⟩ else none)
    fun value => by rw [dif_pos value.property]

/-! ### Alternatives -/

/-- An optional value: a presence byte, then the value. -/
def optional (wire : Wire α) : Wire (Option α) where
  put
    | none => [0]
    | some value => 1 :: wire.put value
  take
    | [] => none
    | tag :: rest =>
      if tag = 0 then some (none, rest)
      else if tag = 1 then (wire.take rest).map fun taken => (some taken.1, taken.2)
      else none
  take_put := by
    rintro (_ | value) rest
    · rfl
    · show (if (1 : UInt8) = 0 then _ else if (1 : UInt8) = 1 then
        (wire.take (wire.put value ++ rest)).map _ else _) = _
      rw [if_neg (by decide), if_pos rfl, wire.take_put]
      rfl

/-- Numbered alternatives: the number of a value's alternative, and its bytes. -/
structure Alternatives (α : Type) where
  number : α → Nat
  put : α → List UInt8
  take : Nat → List UInt8 → Option (α × List UInt8)
  take_put : ∀ value rest, take (number value) (put value ++ rest) = some (value, rest)

/-- A single alternative. -/
def Alternatives.last (wire : Wire α) : Alternatives α where
  number _ := 0
  put := wire.put
  take
    | 0, bytes => wire.take bytes
    | _ + 1, _ => none
  take_put := wire.take_put

/-- One more alternative in front of the others. -/
def Alternatives.orElse (wire : Wire α) (others : Alternatives β) : Alternatives (α ⊕ β) where
  number
    | .inl _ => 0
    | .inr value => others.number value + 1
  put
    | .inl value => wire.put value
    | .inr value => others.put value
  take
    | 0, bytes => (wire.take bytes).map fun taken => (.inl taken.1, taken.2)
    | number + 1, bytes => (others.take number bytes).map fun taken => (.inr taken.1, taken.2)
  take_put := by
    rintro (value | value) rest
    · simp only [wire.take_put, Option.map_some]
    · simp only [others.take_put, Option.map_some]

/-- A value of numbered alternatives: its number, then its bytes. -/
def tagged (alternatives : Alternatives α) : Wire α where
  put value := varint.put (alternatives.number value) ++ alternatives.put value
  take bytes :=
    match varint.take bytes with
    | none => none
    | some (number, rest) => alternatives.take number rest
  take_put := by
    intro value rest
    simp only [List.append_assoc, varint.take_put, alternatives.take_put]

end Wire

end Kernis
