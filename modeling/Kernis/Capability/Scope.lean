/-
**Capability scopes.**

A scope is a chain of levels, the local one first. A level is open or closed and holds the published
entries of its capabilities. Publication is modelled for a scope without live descendants, as a run
builds and owns it.

* `Scope.get`, `Scope.contextGet` — lookups through the chain.
* `Scope.publish` — the two-phase publication: admission, construction, admission again, insertion.
* `RootOf definitions scope` — an open root scope that publishes exactly these definitions.
  `RootOf.provide`, `RootOf.of_provide`: whether a new publication succeeds depends on the
  definitions and on the constructor only.
-/

import Kernis.Capability.Graph
import Kernis.Lib.Fallible

namespace Kernis

open Std

/-- A reader-owned reference to one exact capability entry: its definition, the constructed value
with the handles it was built from, its generation and its entry identity. -/
structure CapabilityHandle (ν : Type) where
  definition : CapabilityDefinition
  value : ν
  dependencies : List (Id × CapabilityHandle ν)
  generation : Nat
  entryId : Nat

/-- Exact handles for the dependencies of one construction. -/
abbrev ResolvedDependencies (ν : Type) := List (Id × CapabilityHandle ν)

/-- Errors produced while publishing a scoped capability. -/
inductive ScopeError
  | graphAdmission (error : CapabilityGraphError)
  | missingDependency (capability dependency : Id)
  | constructionFailed (capability : Id) (reason : Text)
  | alreadyProvided (capability : Id) (generation : Nat)
  | noLocalEntry (capability : Id)
  | replacementConflict (capability : Id) (expected actual : Nat)
  | dependencyChanged (capability dependency : Id)
  | generationExhausted (capability : Id)
  | closed
deriving DecidableEq

/-- A missing dependency keeps its own error; every other graph error is an admission error. -/
def ScopeError.ofGraph : CapabilityGraphError → ScopeError
  | .missingDependency capability dependency => .missingDependency capability dependency
  | other => .graphAdmission other

/-- One level of a scope chain. -/
structure ScopeLevel (ν : Type) where
  isOpen : Bool
  entries : BTreeMap Id (CapabilityHandle ν)

/-- A hierarchical scope: its local level, and its ancestors from the parent on. -/
structure Scope (ν : Type) where
  own : ScopeLevel ν
  ancestors : List (ScopeLevel ν)

/-- What a publication expects of the local slot. -/
inductive PublishExpectation
  | new
  | replace (expected : Nat)
deriving DecidableEq

namespace Scope

variable {ν : Type}

/-- An empty root scope. -/
def root : Scope ν := ⟨⟨true, ∅⟩, []⟩

/-- Looks up the nearest entry; a closed level ends the lookup. -/
def lookupLevels : List (ScopeLevel ν) → Id → Option (CapabilityHandle ν)
  | [], _ => none
  | level :: rest, id =>
    if level.isOpen then
      match level.entries[id]? with
      | some handle => some handle
      | none => lookupLevels rest id
    else none

/-- The nearest capability visible from this scope. -/
def get (scope : Scope ν) (id : Id) : Option (CapabilityHandle ν) :=
  lookupLevels (scope.own :: scope.ancestors) id

/-- The context lookup: the nearest level with a local entry decides. -/
def contextLookup : List (ScopeLevel ν) → Id → Option (CapabilityHandle ν)
  | [], _ => none
  | level :: rest, id =>
    if id ∈ level.entries then lookupLevels (level :: rest) id else contextLookup rest id

/-- Resolves a capability in the context over this scope, which isolates nothing. -/
def contextGet (scope : Scope ν) (id : Id) : Option (CapabilityHandle ν) :=
  contextLookup (scope.own :: scope.ancestors) id

/-- The definitions visible through a chain of levels, nearer ones overriding. -/
def visibleLevels : List (ScopeLevel ν) → BTreeMap Id CapabilityDefinition
  | [] => ∅
  | level :: rest =>
    if level.isOpen then
      level.entries.toList.foldl (fun definitions (id, handle) =>
        definitions.insert id handle.definition) (visibleLevels rest)
    else ∅

/-- The graph of the visible definitions. -/
def visibleGraph (scope : Scope ν) : CapabilityGraph :=
  .fromDefinitions (valuesOf (visibleLevels (scope.own :: scope.ancestors)))

/-- Checks the lifecycle and what the publication expects of the local slot. -/
def checkExpectation (scope : Scope ν) (capability : Id) (expectation : PublishExpectation) :
    Except ScopeError Unit :=
  if ¬ scope.own.isOpen then .error .closed
  else
    match expectation, scope.own.entries[capability]? with
    | .new, some entry => .error (.alreadyProvided capability entry.generation)
    | .new, none => .ok ()
    | .replace _, none => .error (.noLocalEntry capability)
    | .replace expected, some entry =>
      if entry.generation ≠ expected then
        .error (.replacementConflict capability expected entry.generation)
      else .ok ()

/-- Resolves exact handles for every dependency, in order. -/
def resolveDependencies (scope : Scope ν) (definition : CapabilityDefinition) :
    Except ScopeError (ResolvedDependencies ν) :=
  definition.dependencies.toList.mapM fun dependency =>
    match scope.get dependency with
    | none => .error (.missingDependency definition.id dependency)
    | some handle => .ok (dependency, handle)

/-- The generation and entry identity of a resolved dependency. -/
def entryOf (dependencies : ResolvedDependencies ν) (id : Id) : Option (Nat × Nat) :=
  (dependencies.lookup id).map fun handle => (handle.generation, handle.entryId)

/-- Graph admission of a candidate. -/
def validateCandidate (scope : Scope ν) (definition : CapabilityDefinition) : Except ScopeError Unit :=
  match scope.visibleGraph.validateCandidate definition with
  | .error error => .error (.ofGraph error)
  | .ok _ => .ok ()

/-- The generation a publication gets. -/
def nextGeneration (scope : Scope ν) (capability : Id) : PublishExpectation →
    Except ScopeError Nat
  | .new => .ok 1
  | .replace _ =>
    match scope.own.entries[capability]? with
    | none => .error (.noLocalEntry capability)
    | some entry =>
      match checkedNext entry.generation with
      | none => .error (.generationExhausted capability)
      | some generation => .ok generation

/-- Publishes a constructed value after checking again what admission saw. -/
def publishPreconstructed (scope : Scope ν) (definition : CapabilityDefinition)
    (expectation : PublishExpectation) (dependencies : ResolvedDependencies ν) (value : ν)
    (entryId : Nat) : Except ScopeError (CapabilityHandle ν × Scope ν) := do
  let current ← scope.resolveDependencies definition
  match definition.dependencies.toList.find? fun dependency =>
      entryOf current dependency ≠ entryOf dependencies dependency with
  | some dependency => .error (.dependencyChanged definition.id dependency)
  | none =>
    scope.checkExpectation definition.id expectation
    scope.validateCandidate definition
    let generation ← scope.nextGeneration definition.id expectation
    let handle : CapabilityHandle ν := ⟨definition, value, dependencies, generation, entryId⟩
    .ok (handle, { scope with own :=
      { scope.own with entries := scope.own.entries.insert definition.id handle } })

/-- Admits a definition, constructs its value from exact dependency handles, and publishes it. -/
def publish (scope : Scope ν) (definition : CapabilityDefinition)
    (expectation : PublishExpectation)
    (construct : ResolvedDependencies ν → Except Text ν) (entryId : Nat) :
    Except ScopeError (CapabilityHandle ν × Scope ν) := do
  scope.checkExpectation definition.id expectation
  scope.validateCandidate definition
  let dependencies ← scope.resolveDependencies definition
  match construct dependencies with
  | .error reason => .error (.constructionFailed definition.id reason)
  | .ok value =>
    scope.publishPreconstructed definition expectation dependencies value entryId

/-- Provides a new local capability. -/
def provide (scope : Scope ν) (definition : CapabilityDefinition)
    (construct : ResolvedDependencies ν → Except Text ν) (entryId : Nat) :
    Except ScopeError (CapabilityHandle ν × Scope ν) :=
  scope.publish definition .new construct entryId

/-! ### Root scopes -/

/-- **An open root scope that publishes exactly these definitions.** -/
structure RootOf (definitions : BTreeMap Id CapabilityDefinition) (scope : Scope ν) : Prop where
  root : scope.ancestors = []
  isOpen : scope.own.isOpen = true
  entries : ∀ id : Id,
    (scope.own.entries[id]?).map CapabilityHandle.definition = definitions[id]?

variable {definitions : BTreeMap Id CapabilityDefinition} {scope : Scope ν}

theorem rootOf_root : RootOf ∅ (root : Scope ν) where
  root := rfl
  isOpen := rfl
  entries := by simp [root]

theorem RootOf.get (rooted : RootOf definitions scope) (id : Id) :
    scope.get id = scope.own.entries[id]? := by
  unfold Scope.get lookupLevels
  rw [if_pos rooted.isOpen, rooted.root]
  cases scope.own.entries[id]? <;> rfl

theorem RootOf.contextGet (rooted : RootOf definitions scope) (id : Id) :
    scope.contextGet id = scope.own.entries[id]? := by
  unfold Scope.contextGet contextLookup
  split
  · exact rooted.get id
  · rw [rooted.root, contextLookup, lookup_none_of_not_mem ‹_›]

/-- A handle of a root scope carries the published definition. -/
theorem RootOf.contextGet_definition (rooted : RootOf definitions scope) {id : Id}
    {definition : CapabilityDefinition} (published : definitions[id]? = some definition) :
    ∃ handle, scope.contextGet id = some handle ∧ handle.definition = definition := by
  rw [rooted.contextGet]
  rw [← rooted.entries, Option.map_eq_some_iff] at published
  exact published

theorem RootOf.visibleGraph (rooted : RootOf definitions scope) :
    scope.visibleGraph = .fromDefinitions (valuesOf definitions) := by
  have visible : visibleLevels (scope.own :: scope.ancestors) = definitions := by
    refine ExtTreeMap.ext_getElem? fun id => ?_
    unfold visibleLevels
    rw [if_pos rooted.isOpen, rooted.root]
    exact (lookup_foldl_insert CapabilityHandle.definition scope.own.entries id).trans
      (rooted.entries id)
  unfold Scope.visibleGraph
  rw [visible]

/-- A definition that a root scope of these definitions admits as a new one. -/
structure Providable (definitions : BTreeMap Id CapabilityDefinition)
    (definition : CapabilityDefinition) : Prop where
  fresh : definition.id ∉ definitions
  admitted : ∃ order,
    (CapabilityGraph.fromDefinitions (valuesOf definitions)).validateCandidate definition = .ok order
  resolved : ∀ dependency ∈ definition.dependencies.toList, dependency ∈ definitions

theorem RootOf.mem_entries (rooted : RootOf definitions scope) {id : Id} :
    id ∈ scope.own.entries ↔ id ∈ definitions := by
  rw [ExtTreeMap.mem_iff_isSome_getElem?, ExtTreeMap.mem_iff_isSome_getElem?, ← rooted.entries,
    Option.isSome_map]

theorem RootOf.checkExpectation_new (rooted : RootOf definitions scope) {id : Id} :
    scope.checkExpectation id .new = .ok () ↔ id ∉ definitions := by
  unfold Scope.checkExpectation
  rw [if_neg (not_not.mpr rooted.isOpen), ← rooted.mem_entries]
  cases found : scope.own.entries[id]? with
  | none => simp [not_mem_of_lookup_none found]
  | some entry => simp [mem_of_lookup found]

theorem RootOf.validateCandidate_iff (rooted : RootOf definitions scope) {definition : CapabilityDefinition} :
    scope.validateCandidate definition = .ok () ↔ ∃ order,
      (CapabilityGraph.fromDefinitions (valuesOf definitions)).validateCandidate definition =
        .ok order := by
  unfold Scope.validateCandidate
  rw [rooted.visibleGraph]
  cases (CapabilityGraph.fromDefinitions (valuesOf definitions)).validateCandidate definition with
  | error error => simp
  | ok order => simp

theorem RootOf.resolveDependencies_iff (rooted : RootOf definitions scope)
    {definition : CapabilityDefinition} :
    (∃ dependencies, scope.resolveDependencies definition = .ok dependencies) ↔
      ∀ dependency ∈ definition.dependencies.toList, dependency ∈ definitions := by
  unfold Scope.resolveDependencies
  rw [exists_mapM_ok_iff]
  refine forall₂_congr fun dependency _ => ?_
  rw [rooted.get, ← rooted.mem_entries]
  cases found : scope.own.entries[dependency]? with
  | none => simp [not_mem_of_lookup_none found]
  | some handle => simp [mem_of_lookup found]

/-- Publishing under a new identifier adds the definition. -/
theorem RootOf.insert (rooted : RootOf definitions scope) (handle : CapabilityHandle ν) :
    RootOf (definitions.insert handle.definition.id handle.definition)
      { scope with own := { scope.own with
        entries := scope.own.entries.insert handle.definition.id handle } } where
  root := rooted.root
  isOpen := rooted.isOpen
  entries := by
    intro id
    rw [lookup_insert, lookup_insert]
    split
    · rfl
    · exact rooted.entries id

/-- What a providable definition's publication comes to, once its constructor returned. -/
theorem RootOf.publishPreconstructed_new (rooted : RootOf definitions scope)
    {definition : CapabilityDefinition} (providable : Providable definitions definition)
    {dependencies : ResolvedDependencies ν}
    (resolved : scope.resolveDependencies definition = .ok dependencies) (value : ν)
    (entryId : Nat) :
    scope.publishPreconstructed definition .new dependencies value entryId =
      .ok (⟨definition, value, dependencies, 1, entryId⟩, { scope with own := { scope.own with
        entries := scope.own.entries.insert definition.id
          ⟨definition, value, dependencies, 1, entryId⟩ } }) := by
  have unchanged : (definition.dependencies.toList.find? fun dependency =>
      entryOf dependencies dependency ≠ entryOf dependencies dependency) = none := by
    rw [List.find?_eq_none]
    simp
  unfold Scope.publishPreconstructed
  simp only [resolved, bind, Except.bind, unchanged, rooted.checkExpectation_new.mpr providable.fresh,
    rooted.validateCandidate_iff.mpr providable.admitted, nextGeneration]

/-- **A providable definition is published whenever its constructor succeeds.** -/
theorem RootOf.provide (rooted : RootOf definitions scope) {definition : CapabilityDefinition}
    (providable : Providable definitions definition)
    {construct : ResolvedDependencies ν → Except Text ν}
    (constructs : ∀ dependencies, ∃ value, construct dependencies = .ok value) (entryId : Nat) :
    ∃ handle next, scope.provide definition construct entryId = .ok (handle, next) ∧
      RootOf (definitions.insert definition.id definition) next := by
  obtain ⟨dependencies, resolved⟩ := rooted.resolveDependencies_iff.mpr providable.resolved
  obtain ⟨value, built⟩ := constructs dependencies
  refine ⟨⟨definition, value, dependencies, 1, entryId⟩, { scope with own := { scope.own with
    entries := scope.own.entries.insert definition.id
      ⟨definition, value, dependencies, 1, entryId⟩ } }, ?_,
    rooted.insert ⟨definition, value, dependencies, 1, entryId⟩⟩
  unfold Scope.provide publish
  simp only [rooted.checkExpectation_new.mpr providable.fresh,
    rooted.validateCandidate_iff.mpr providable.admitted, resolved, built, bind, Except.bind]
  exact rooted.publishPreconstructed_new providable resolved value entryId

/-- **A providable definition is refused only by its constructor.** -/
theorem RootOf.of_refused (rooted : RootOf definitions scope) {definition : CapabilityDefinition}
    (providable : Providable definitions definition)
    {construct : ResolvedDependencies ν → Except Text ν} {entryId : Nat} {error : ScopeError}
    (refused : scope.provide definition construct entryId = .error error) :
    ∃ dependencies reason, construct dependencies = .error reason ∧
      error = .constructionFailed definition.id reason := by
  obtain ⟨dependencies, resolved⟩ := rooted.resolveDependencies_iff.mpr providable.resolved
  unfold Scope.provide publish at refused
  simp only [rooted.checkExpectation_new.mpr providable.fresh,
    rooted.validateCandidate_iff.mpr providable.admitted, resolved, bind, Except.bind] at refused
  cases built : construct dependencies with
  | error reason =>
    rw [built] at refused
    exact ⟨dependencies, reason, built, (Except.error.inj refused).symm⟩
  | ok value =>
    rw [built] at refused
    simp only at refused
    rw [rooted.publishPreconstructed_new providable resolved] at refused
    cases refused

/-- **A publication that succeeded was providable.** -/
theorem RootOf.of_provide (rooted : RootOf definitions scope) {definition : CapabilityDefinition}
    {construct : ResolvedDependencies ν → Except Text ν} {entryId : Nat}
    {handle : CapabilityHandle ν} {next : Scope ν}
    (provided : scope.provide definition construct entryId = .ok (handle, next)) :
    Providable definitions definition ∧
      RootOf (definitions.insert definition.id definition) next := by
  unfold Scope.provide publish at provided
  simp only [bind, Except.bind] at provided
  split at provided
  · cases provided
  · rename_i expected
    split at provided
    · cases provided
    · rename_i admitted
      split at provided
      · cases provided
      · rename_i dependencies resolved
        split at provided
        · cases provided
        · rename_i value built
          have providable : Providable definitions definition :=
            ⟨rooted.checkExpectation_new.mp expected, rooted.validateCandidate_iff.mp admitted,
              rooted.resolveDependencies_iff.mp ⟨_, resolved⟩⟩
          rw [rooted.publishPreconstructed_new providable resolved] at provided
          cases provided
          exact ⟨providable, rooted.insert ⟨definition, value, dependencies, 1, entryId⟩⟩

end Scope

end Kernis
