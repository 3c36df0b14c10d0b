/-
**Self-delimiting encodings.**

An encoding is self-delimiting (`Delimited`) when the front of a list determines the value written
there and where it ends. Such encodings compose: constant marks on either side, pairs, values seen
through an injection, optional values, counted sequences, and sequences closed by a value.

* `delimited_digits` — a counter closed by a character that is no digit.
* `delimited_measured` — a text after its length in bytes.
* `sorted_eq_of_perm` — sorting by a key forgets the order of a list whose keys are distinct.
-/

import Mathlib.Data.List.Sort
import Kernis.Lib.Text

namespace Kernis

open Std

variable {α β γ : Type}

/-- **The front of a list determines the value written there and what follows it.** -/
def Delimited (encode : α → List γ) : Prop :=
  ∀ first second rest other, encode first ++ rest = encode second ++ other →
    first = second ∧ rest = other

namespace Delimited

variable {encode : α → List γ} {encodeOther : β → List γ}

theorem injective (delimited : Delimited encode) : Function.Injective encode := by
  intro first second same
  refine (delimited first second [] [] ?_).1
  rw [same]

/-- A constant mark in front. -/
theorem after (delimited : Delimited encode) (mark : List γ) :
    Delimited fun value => mark ++ encode value := by
  intro first second rest other same
  rw [List.append_assoc, List.append_assoc] at same
  exact delimited first second rest other (List.append_cancel_left same)

/-- A constant mark behind. -/
theorem before (delimited : Delimited encode) (mark : List γ) :
    Delimited fun value => encode value ++ mark := by
  intro first second rest other same
  rw [List.append_assoc, List.append_assoc] at same
  obtain ⟨rfl, tails⟩ := delimited first second _ _ same
  exact ⟨rfl, List.append_cancel_left tails⟩

/-- One value after the other. -/
theorem both (delimited : Delimited encode) (delimitedOther : Delimited encodeOther) :
    Delimited fun value : α × β => encode value.1 ++ encodeOther value.2 := by
  rintro ⟨left, right⟩ ⟨left', right'⟩ rest other same
  rw [List.append_assoc, List.append_assoc] at same
  obtain ⟨rfl, tails⟩ := delimited left left' _ _ same
  obtain ⟨rfl, ends⟩ := delimitedOther right right' _ _ tails
  exact ⟨rfl, ends⟩

/-- A value seen through an injection. -/
theorem through (delimited : Delimited encode) {project : β → α}
    (injective : Function.Injective project) : Delimited fun value => encode (project value) := by
  intro first second rest other same
  obtain ⟨same, tails⟩ := delimited _ _ _ _ same
  exact ⟨injective same, tails⟩

/-- An optional value: one of two marks that cannot be confused, then the value. -/
theorem optional (delimited : Delimited encode) {present absent : List γ}
    (apart : ∀ rest other, present ++ rest ≠ absent ++ other) :
    Delimited fun value : Option α => value.elim absent fun held => present ++ encode held := by
  rintro (_ | first) (_ | second) rest other same
  · exact ⟨rfl, List.append_cancel_left same⟩
  · simp only [Option.elim, List.append_assoc] at same
    exact absurd same.symm (apart _ _)
  · simp only [Option.elim, List.append_assoc] at same
    exact absurd same (apart _ _)
  · obtain ⟨rfl, tails⟩ := delimited.after present first second rest other same
    exact ⟨rfl, tails⟩

/-- Equally many values, one after the other. -/
theorem flatMap (delimited : Delimited encode) {first second : List α} {rest other : List γ}
    (lengths : first.length = second.length)
    (same : first.flatMap encode ++ rest = second.flatMap encode ++ other) :
    first = second ∧ rest = other := by
  induction first generalizing second with
  | nil =>
    obtain rfl := List.length_eq_zero_iff.mp lengths.symm
    exact ⟨rfl, same⟩
  | cons value values ih =>
    cases second with
    | nil => cases lengths
    | cons value' values' =>
      rw [List.flatMap_cons, List.flatMap_cons, List.append_assoc, List.append_assoc] at same
      obtain ⟨rfl, tails⟩ := delimited value value' _ _ same
      obtain ⟨rfl, ends⟩ := ih (Nat.succ.inj lengths) tails
      exact ⟨rfl, ends⟩

/-- A counted sequence. -/
theorem counted (delimited : Delimited encode) {count : Nat → List γ} (counts : Delimited count) :
    Delimited fun values : List α => count values.length ++ values.flatMap encode := by
  intro first second rest other same
  rw [List.append_assoc, List.append_assoc] at same
  obtain ⟨lengths, tails⟩ := counts _ _ _ _ same
  exact delimited.flatMap lengths tails

/-- Values one after the other up to the end, when no value is written as nothing. -/
theorem flatMap_injective (delimited : Delimited encode) (visible : ∀ value, encode value ≠ []) :
    Function.Injective fun values : List α => values.flatMap encode := by
  intro first second same
  simp only at same
  induction first generalizing second with
  | nil =>
    cases second with
    | nil => rfl
    | cons value rest =>
      rw [List.flatMap_nil, List.flatMap_cons] at same
      exact absurd (List.append_eq_nil_iff.mp same.symm).1 (visible value)
  | cons value rest ih =>
    cases second with
    | nil =>
      rw [List.flatMap_nil, List.flatMap_cons] at same
      exact absurd (List.append_eq_nil_iff.mp same).1 (visible value)
    | cons other others =>
      rw [List.flatMap_cons, List.flatMap_cons] at same
      obtain ⟨rfl, tails⟩ := delimited value other _ _ same
      rw [ih tails]

/-- A sequence closed by a value that cannot be taken for one more element. -/
theorem closed (delimited : Delimited encode) (delimitedOther : Delimited encodeOther)
    (apart : ∀ value close rest other, encode value ++ rest ≠ encodeOther close ++ other) :
    Delimited fun value : List α × β => value.1.flatMap encode ++ encodeOther value.2 := by
  rintro ⟨first, close⟩ ⟨second, close'⟩ rest other same
  simp only at same
  induction first generalizing second with
  | nil =>
    cases second with
    | nil =>
      obtain ⟨rfl, tails⟩ := delimitedOther close close' rest other same
      exact ⟨rfl, tails⟩
    | cons value values =>
      simp only [List.flatMap_nil, List.nil_append, List.flatMap_cons, List.append_assoc] at same
      exact absurd same.symm (apart value close _ _)
  | cons value values ih =>
    cases second with
    | nil =>
      simp only [List.flatMap_nil, List.nil_append, List.flatMap_cons, List.append_assoc] at same
      exact absurd same (apart value close' _ _)
    | cons value' values' =>
      rw [List.flatMap_cons, List.flatMap_cons, List.append_assoc, List.append_assoc,
        List.append_assoc, List.append_assoc] at same
      obtain ⟨rfl, tails⟩ := delimited value value' _ _ same
      rw [← List.append_assoc, ← List.append_assoc] at tails
      obtain ⟨equal, ends⟩ := ih values' tails
      obtain ⟨rfl, rfl⟩ := Prod.mk.inj equal
      exact ⟨rfl, ends⟩

/-- A single element. -/
theorem single : Delimited fun value : γ => [value] := by
  intro first second rest other same
  exact ⟨(List.cons.inj same).1, (List.cons.inj same).2⟩

end Delimited

/-- Marks that differ within a common length cannot be confused. -/
theorem append_ne_of_take {first second : List γ} (length : Nat) (fits : length ≤ first.length)
    (fitsOther : length ≤ second.length) (differ : first.take length ≠ second.take length)
    (rest other : List γ) : first ++ rest ≠ second ++ other := by
  intro same
  have fronts := congrArg (List.take length) same
  rw [List.take_append_of_le_length fits, List.take_append_of_le_length fitsOther] at fronts
  exact differ fronts

/-! ### Counters and texts -/

/-- A counter closed by a character that is no digit. -/
theorem delimited_digits {separator : Char} (mark : separator.isDigit = false) :
    Delimited fun number => digits number ++ [separator] := by
  intro first second rest other same
  rw [List.append_assoc, List.append_assoc] at same
  obtain rfl := digits_of_append mark same
  exact ⟨rfl, (List.cons.inj (List.append_cancel_left same)).2⟩

theorem utf8Length_append (first second : Text) :
    utf8Length (first ++ second) = utf8Length first + utf8Length second := by
  simp [utf8Length]

/-- Only the empty text has no bytes. -/
theorem eq_nil_of_utf8Length {text : Text} (empty : utf8Length text = 0) : text = [] := by
  cases text with
  | nil => rfl
  | cons c rest =>
    have visible := c.utf8Size_pos
    simp [utf8Length] at empty
    omega

/-- Texts with equally many bytes end at the same place. -/
theorem append_inj_of_utf8Length {first second rest other : Text}
    (lengths : utf8Length first = utf8Length second) (same : first ++ rest = second ++ other) :
    first = second ∧ rest = other := by
  rcases List.append_eq_append_iff.mp same with ⟨extra, rfl, rfl⟩ | ⟨extra, rfl, rfl⟩
  · rw [utf8Length_append] at lengths
    obtain rfl := eq_nil_of_utf8Length (show utf8Length extra = 0 by omega)
    exact ⟨(List.append_nil _).symm, rfl⟩
  · rw [utf8Length_append] at lengths
    obtain rfl := eq_nil_of_utf8Length (show utf8Length extra = 0 by omega)
    exact ⟨List.append_nil _, rfl⟩

/-- A text after its length in bytes. -/
theorem delimited_measured {separator : Char} (mark : separator.isDigit = false) :
    Delimited fun text : Text => digits (utf8Length text) ++ separator :: text := by
  intro first second rest other same
  rw [List.append_assoc, List.append_assoc] at same
  have lengths := digits_of_append mark same
  rw [lengths] at same
  exact append_inj_of_utf8Length lengths (List.cons.inj (List.append_cancel_left same)).2

/-! ### Sorting by a key -/

section Sorting

variable [Ord β] [TransOrd β] [LawfulEqOrd β]

/-- A list sorted by a key. -/
def sortedBy (key : α → β) (values : List α) : List α :=
  values.mergeSort fun left right => (compare (key left) (key right)).isLE

omit [TransOrd β] [LawfulEqOrd β] in
theorem sortedBy_perm (key : α → β) (values : List α) : (sortedBy key values).Perm values :=
  List.mergeSort_perm _ _

/-- **Sorting by distinct keys forgets the order.** -/
theorem sorted_eq_of_perm {key : α → β} {first second : List α} (same : first.Perm second)
    (distinct : (first.map key).Nodup) : sortedBy key first = sortedBy key second := by
  have sorted : ∀ values : List α, (sortedBy key values).Pairwise fun left right =>
      (compare (key left) (key right)).isLE := fun values =>
    List.pairwise_mergeSort (fun _ _ _ => TransCmp.isLE_trans)
      (fun left right => by
        rcases compared : compare (key left) (key right) with _ | _ | _
        · simp
        · simp
        · simp [OrientedCmp.lt_of_gt compared]) values
  refine List.Perm.eq_of_pairwise ?_ (sorted first) (sorted second)
    (((sortedBy_perm key first).trans same).trans (sortedBy_perm key second).symm)
  intro left right member memberOther less greater
  have keys : key left = key right :=
    LawfulEqOrd.eq_of_compare (OrientedCmp.isLE_antisymm less greater)
  have inside := (sortedBy_perm key first).mem_iff.mp member
  have insideOther := same.mem_iff.mpr ((sortedBy_perm key second).mem_iff.mp memberOther)
  exact List.inj_on_of_nodup_map distinct inside insideOther keys

/-- Lists with distinct keys sort to the same list exactly when they have the same members. -/
theorem sortedBy_eq_iff {key : α → β} {first second : List α} (distinct : (first.map key).Nodup)
    (distinctOther : (second.map key).Nodup) :
    sortedBy key first = sortedBy key second ↔ ∀ value, value ∈ first ↔ value ∈ second := by
  constructor
  · intro same value
    rw [← (sortedBy_perm key first).mem_iff, same, (sortedBy_perm key second).mem_iff]
  · intro same
    refine sorted_eq_of_perm ?_ distinct
    exact (List.perm_ext_iff_of_nodup distinct.of_map distinctOther.of_map).mpr same

end Sorting

end Kernis
