/-
**The textual form of a module reference.**

A reference is written as its module, the delimiter and its version, and read back at the last delimiter:
a module may contain the delimiter, a version may not.

* `ModuleReference.serialize`, `ModuleReference.deserialize` — the two directions.
* `reference_text_exact` — a text is read as a reference exactly when it is what that reference is
  written as.
-/

import Kernis.Loader.Catalog

namespace Kernis

/-- Why a text is no reference. -/
inductive ReferenceTextError
  | undelimited
  | invalid (error : LoaderError)
deriving DecidableEq

namespace ModuleReference

/-- The text of a reference. -/
def display (reference : ModuleReference) : Text :=
  reference.id.asStr ++ '@' :: reference.version.text

/-- A reference is serialized as its text. -/
def serialize (reference : ModuleReference) : Text := reference.display

/-- Reads a reference: the final delimiter ends the module. -/
def deserialize (value : Text) : Except ReferenceTextError ModuleReference :=
  match rsplitOnce '@' value with
  | none => .error .undelimited
  | some (id, version) => (ModuleReference.new id version).mapError .invalid

/-- A version is made of its own text only. -/
theorem version_eq_ok {value : Text} {version : ModuleVersion} :
    ModuleVersion.new value = .ok version ↔ version.text = value := by
  obtain ⟨text, nonblank, undelimited⟩ := version
  unfold ModuleVersion.new
  constructor
  · intro made
    split at made
    · split at made
      · cases made
        rfl
      · cases made
    · cases made
  · rintro rfl
    rw [dif_pos nonblank, dif_pos undelimited]

/-- An identity is made of its own text only. -/
theorem id_eq_ok {value : Text} {id : Id} : Id.new value = .ok id ↔ id.asStr = value := by
  obtain ⟨⟨text, nonblank⟩⟩ := id
  unfold Id.new
  constructor
  · intro made
    split at made
    · cases made
      rfl
    · cases made
  · rintro rfl
    exact dif_pos nonblank

/-- **A reference is made of its own parts only.** -/
theorem new_eq_ok {id version : Text} {reference : ModuleReference} :
    ModuleReference.new id version = .ok reference ↔
      reference.id.asStr = id ∧ reference.version.text = version := by
  rw [← id_eq_ok, ← version_eq_ok]
  unfold ModuleReference.new
  cases made : Id.new id with
  | error error => simp
  | ok moduleId =>
    cases ModuleVersion.new version with
    | error error => simp [Except.map]
    | ok held =>
      obtain ⟨own, exact_⟩ := reference
      simp [Except.map]

/-- **References have an exact textual form**: a text is read as a reference exactly when it is what that
reference is written as. So what is written is read back, and distinct references have distinct texts. -/
theorem reference_text_exact :
    (∀ (value : Text) (reference : ModuleReference),
      deserialize value = .ok reference ↔ reference.serialize = value) ∧
    (∀ (id version : Text) (reference : ModuleReference),
      ModuleReference.new id version = .ok reference →
        deserialize reference.serialize = .ok reference) ∧
    Function.Injective serialize := by
  have exact_ : ∀ (value : Text) (reference : ModuleReference),
      deserialize value = .ok reference ↔ reference.serialize = value := by
    intro value reference
    unfold deserialize serialize display
    cases parts : rsplitOnce '@' value with
    | none =>
      have absent := rsplitOnce_eq_none.mp parts
      refine iff_of_false nofun ?_
      rintro rfl
      exact absent (List.mem_append_right _ List.mem_cons_self)
    | some pair =>
      obtain ⟨id, version⟩ := pair
      simp only
      rw [except_mapError_ok, new_eq_ok]
      constructor
      · rintro ⟨rfl, rfl⟩
        exact (rsplitOnce_eq_some.mp parts).1.symm
      · intro written
        have again := rsplitOnce_eq_some.mpr ⟨written.symm, reference.version.undelimited⟩
        rw [parts, Option.some.injEq, Prod.mk.injEq] at again
        exact ⟨again.1.symm, again.2.symm⟩
  refine ⟨exact_, fun _ _ reference _ => (exact_ _ reference).mpr rfl, fun first second same => ?_⟩
  have read := (exact_ _ first).mpr rfl
  rw [(exact_ _ second).mpr same.symm] at read
  exact (Except.ok.inj read).symm

end ModuleReference

end Kernis
