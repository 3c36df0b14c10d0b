/-
**References to modules, and the catalog that answers them.**

* `ModuleReference` — a module at one exact version. Versions are opaque; a version is not blank and
  does not contain the delimiter of the textual form.
* `ModuleCatalog` — at most one entry for a reference; an entry declares its dependencies and
  constructs a registration.
-/

import Kernis.Composition.Plan

namespace Kernis

open Std

/-- Typed, non-blank exact module version without the reference delimiter. -/
structure ModuleVersion where
  text : Text
  nonblank : blank text = false
  undelimited : '@' ∉ text
deriving DecidableEq

namespace ModuleVersion

theorem text_injective : Function.Injective ModuleVersion.text := by
  rintro ⟨first, _, _⟩ ⟨second, _, _⟩ same
  cases same
  rfl

instance : Ord ModuleVersion := ⟨compareOn ModuleVersion.text⟩

instance : TransOrd ModuleVersion := inferInstanceAs (TransCmp (compareOn ModuleVersion.text))

instance : LawfulEqOrd ModuleVersion := lawfulEqCmp_compareOn text_injective

end ModuleVersion

/-- Stable logical reference to one module at one exact version. -/
structure ModuleReference where
  id : Id
  version : ModuleVersion
deriving DecidableEq

instance : Ord ModuleReference := ⟨compareLex (compareOn ModuleReference.id)
  (compareOn ModuleReference.version)⟩

instance : TransOrd ModuleReference := inferInstanceAs (TransCmp (compareLex
  (compareOn ModuleReference.id) (compareOn ModuleReference.version)))

instance : LawfulEqOrd ModuleReference where
  eq_of_compare := by
    rintro ⟨id, version⟩ ⟨otherId, otherVersion⟩ same
    obtain ⟨sameId, sameVersion⟩ := compareLex_eq_eq.mp same
    cases LawfulEqOrd.eq_of_compare sameId
    cases LawfulEqOrd.eq_of_compare sameVersion
    rfl

/-- Which typed part of a reference failed validation. -/
inductive InvalidReferenceReason
  | blankModuleId
  | blankVersion
  | reservedVersionDelimiter
deriving DecidableEq

/-- Why a resolved entry disagrees with the registration its factory produced. -/
inductive IncompatibleEntryReason
  | producedIdentityMismatch (actual : Id)
  | declaredDependenciesDisagree (declared produced : List Id)
deriving DecidableEq

/-- Typed failure of reference resolution. -/
inductive LoaderError
  | invalidReference (value : Text) (reason : InvalidReferenceReason)
  | duplicateCatalogEntry (reference : ModuleReference)
  | duplicateRootReference (reference : ModuleReference)
  | missingReference (requested : ModuleReference) (requiredBy : Option ModuleReference)
      (path : List ModuleReference)
  | dependencyCycle (path : List ModuleReference)
  | incompatibleEntry (reference : ModuleReference) (reason : IncompatibleEntryReason)
  | registrationConstructionFailed (reference : ModuleReference) (reason : Text)
deriving DecidableEq

/-- A version that is neither blank nor delimited. -/
def ModuleVersion.new (value : Text) : Except LoaderError ModuleVersion :=
  if nonblank : blank value = false then
    if undelimited : '@' ∉ value then .ok ⟨value, nonblank, undelimited⟩
    else .error (.invalidReference value .reservedVersionDelimiter)
  else .error (.invalidReference value .blankVersion)

/-- A reference from its two parts. -/
def ModuleReference.new (id version : Text) : Except LoaderError ModuleReference :=
  match Id.new id with
  | .error _ => .error (.invalidReference id .blankModuleId)
  | .ok moduleId => (ModuleVersion.new version).map fun version => ⟨moduleId, version⟩

/-- One catalog entry. `factory` is what its constructor returns in this resolution, which calls it
at most once. -/
structure CatalogEntry (ν : Type) where
  reference : ModuleReference
  dependencies : List ModuleReference
  factory : Except Text (ModuleRegistration ν)

/-- Entries by reference, each under its own. -/
structure ModuleCatalog (ν : Type) where
  entries : BTreeMap ModuleReference (CatalogEntry ν)
  keyed : ∀ (reference : ModuleReference) (entry : CatalogEntry ν),
    entries[reference]? = some entry → entry.reference = reference

namespace ModuleCatalog

variable {ν : Type}

/-- A catalog without entries. -/
def new : ModuleCatalog ν := ⟨∅, by simp⟩

/-- Adds one entry; a registered reference is refused. -/
def register (catalog : ModuleCatalog ν) (entry : CatalogEntry ν) :
    Except LoaderError (ModuleCatalog ν) :=
  if entry.reference ∈ catalog.entries then .error (.duplicateCatalogEntry entry.reference)
  else .ok ⟨catalog.entries.insert entry.reference entry, by
    intro reference held found
    rw [lookup_insert] at found
    split at found
    · cases found
      assumption
    · exact catalog.keyed reference held found⟩

/-- The entry registered for one exact reference. -/
def get (catalog : ModuleCatalog ν) (reference : ModuleReference) : Option (CatalogEntry ν) :=
  catalog.entries[reference]?

end ModuleCatalog

end Kernis
