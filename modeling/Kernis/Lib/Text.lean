/-
**Text, and the identities built from it.**

A string is the list of its Unicode scalar values (`Text`). Bytewise comparison of two UTF-8
strings is the lexicographic comparison of their scalar values, so the list order is the string
order.

* `blank` — the string is empty or all white space.
* `NonBlank` — a string carrying the proof that it is not blank.
* `digits` — the decimal rendering of a counter; injective and made of digits only.
* `utf8Length` — the length of a string in UTF-8 bytes.
* `rsplitOnce` — the parts of a string around the last delimiter.
* `LawfulOn` — a type ordered through an injective projection is lawfully ordered.
-/

import Mathlib.Algebra.GroupWithZero.Nat
import Mathlib.Data.List.Nodup

namespace Kernis

open Std

/-- A string, as its Unicode scalar values. -/
abbrev Text := List Char

/-- The Unicode `White_Space` property, which string trimming uses. -/
def isWhitespace (c : Char) : Bool :=
  (9 ≤ c.toNat && c.toNat ≤ 13) || c.toNat == 0x20 || c.toNat == 0x85 || c.toNat == 0xA0 ||
    c.toNat == 0x1680 || (0x2000 ≤ c.toNat && c.toNat ≤ 0x200A) || c.toNat == 0x2028 ||
    c.toNat == 0x2029 || c.toNat == 0x202F || c.toNat == 0x205F || c.toNat == 0x3000

/-- Trimming leaves nothing. -/
def blank (text : Text) : Bool := text.all isWhitespace

theorem blank_append (first second : Text) :
    blank (first ++ second) = (blank first && blank second) := by
  simp [blank]

theorem blank_append_of_left {first : Text} (visible : blank first = false) (second : Text) :
    blank (first ++ second) = false := by
  rw [blank_append, visible, Bool.false_and]

/-- The number of bytes of the UTF-8 encoding. -/
def utf8Length (text : Text) : Nat := (text.map Char.utf8Size).sum

/-- A string that is not blank. -/
abbrev NonBlank := {text : Text // blank text = false}

/-! ### Orders through an injective projection -/

section LawfulOn

variable {α β : Type} [Ord β] [LawfulEqOrd β]

/-- Comparing through an injective projection separates distinct values. -/
theorem lawfulEqCmp_compareOn {project : α → β} (injective : Function.Injective project) :
    LawfulEqCmp (compareOn project) where
  compare_self := by
    intro value
    exact compare_self
  eq_of_compare := by
    intro first second same
    exact injective (LawfulEqOrd.eq_of_compare same)

end LawfulOn

instance : Ord NonBlank := ⟨compareOn Subtype.val⟩

instance : TransOrd NonBlank := inferInstanceAs (TransCmp (compareOn Subtype.val))

instance : LawfulEqOrd NonBlank := lawfulEqCmp_compareOn Subtype.val_injective

/-! ### Decimal counters -/

/-- The decimal rendering of a counter. -/
def digits (n : Nat) : Text := Nat.toDigits 10 n

theorem digits_injective : Function.Injective digits := by
  intro first second same
  have read : ∀ n, Nat.ofDigitChars 10 (digits n) 0 = n := fun n =>
    Nat.ofDigitChars_toDigits (by decide) (by decide)
  rw [← read first, same, read second]

theorem isDigit_of_mem_digits {c : Char} {n : Nat} (member : c ∈ digits n) : c.isDigit = true :=
  Nat.isDigit_of_mem_toDigits (by decide) (by decide) member

/-- A counter is read off the front of a text, up to the first character that is no digit. -/
theorem digits_of_append {first second : Nat} {separator : Char} {rest other : Text}
    (mark : separator.isDigit = false)
    (same : digits first ++ separator :: rest = digits second ++ separator :: other) :
    first = second := by
  have front : ∀ (number : Nat) (tail : Text),
      (digits number ++ separator :: tail).takeWhile Char.isDigit = digits number := by
    intro number tail
    rw [List.takeWhile_append_of_pos fun c => isDigit_of_mem_digits,
      List.takeWhile_cons_of_neg (by rw [mark]; decide), List.append_nil]
  refine digits_injective ?_
  rw [← front first rest, same, front second other]

/-- A counter is read off the end of a text, back to the last character that is no digit. -/
theorem append_digits_cancel {first second : Nat} {separator : Char} {front other : Text}
    (mark : separator.isDigit = false)
    (same : front ++ separator :: digits first = other ++ separator :: digits second) :
    front = other ∧ first = second := by
  have back : ∀ (number : Nat) (head : Text),
      ((head ++ separator :: digits number).reverse).takeWhile Char.isDigit =
        (digits number).reverse := by
    intro number head
    rw [List.reverse_append, List.reverse_cons, List.append_assoc,
      List.takeWhile_append_of_pos fun c member => isDigit_of_mem_digits (List.mem_reverse.mp member),
      List.singleton_append, List.takeWhile_cons_of_neg (by rw [mark]; decide), List.append_nil]
  have number : first = second := by
    refine digits_injective (List.reverse_injective ?_)
    rw [← back first front, same, back second other]
  rw [number] at same
  exact ⟨List.append_cancel_right same, number⟩

/-! ### The last delimiter -/

/-- The parts of a text before and after the last delimiter. -/
def rsplitOnce (delimiter : Char) : Text → Option (Text × Text)
  | [] => none
  | c :: rest =>
    match rsplitOnce delimiter rest with
    | some (front, back) => some (c :: front, back)
    | none => if c = delimiter then some ([], rest) else none

/-- Only a text without the delimiter is not split. -/
theorem rsplitOnce_eq_none {delimiter : Char} {text : Text} :
    rsplitOnce delimiter text = none ↔ delimiter ∉ text := by
  induction text with
  | nil => simp [rsplitOnce]
  | cons c rest ih =>
    unfold rsplitOnce
    cases later : rsplitOnce delimiter rest with
    | none =>
      have absent := ih.mp later
      by_cases same : c = delimiter
      · simp [same]
      · simp [same, absent, Ne.symm same]
    | some parts =>
      have present : delimiter ∈ rest := by
        by_contra absent
        rw [ih.mpr absent] at later
        cases later
      simp [present]

/-- **The split is at the last delimiter.** -/
theorem rsplitOnce_eq_some {delimiter : Char} {text front back : Text} :
    rsplitOnce delimiter text = some (front, back) ↔
      text = front ++ delimiter :: back ∧ delimiter ∉ back := by
  induction text generalizing front back with
  | nil => simp [rsplitOnce]
  | cons c rest ih =>
    unfold rsplitOnce
    cases later : rsplitOnce delimiter rest with
    | none =>
      have absent := rsplitOnce_eq_none.mp later
      simp only
      constructor
      · intro found
        by_cases same : c = delimiter
        · rw [if_pos same] at found
          cases found
          exact ⟨congrArg (· :: rest) same, absent⟩
        · rw [if_neg same] at found
          cases found
      · rintro ⟨same, missing⟩
        cases front with
        | nil =>
          obtain ⟨rfl, rfl⟩ := List.cons.inj same
          exact if_pos rfl
        | cons first others =>
          obtain ⟨_, rfl⟩ := List.cons.inj same
          exact absurd (List.mem_append_right others List.mem_cons_self) absent
    | some parts =>
      obtain ⟨before, after⟩ := parts
      obtain ⟨split, missing⟩ := ih.mp later
      constructor
      · rintro ⟨⟩
        exact ⟨congrArg (c :: ·) split, missing⟩
      · rintro ⟨same, absent⟩
        cases front with
        | nil =>
          obtain ⟨_, rfl⟩ := List.cons.inj same
          rw [split] at absent
          exact absurd (List.mem_append_right before List.mem_cons_self) absent
        | cons first others =>
          obtain ⟨rfl, tail⟩ := List.cons.inj same
          have again := ih.mpr ⟨tail, absent⟩
          rw [later, Option.some.injEq, Prod.mk.injEq] at again
          simp only
          rw [again.1, again.2]

end Kernis
