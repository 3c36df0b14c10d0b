/-
**Capability definitions and their deterministic resolution.**

* `CapabilityGraph.resolve` — a dependency-first construction order of all definitions, or the first
  missing dependency or cycle found in identifier order.
* `mem_resolve` — a resolution lists every definition.
* `CapabilityGraph.Valid` — every requirement is defined and there is no cycle; `resolve_iff`: exactly
  the valid graphs resolve.
-/

import Kernis.Core
import Kernis.Lib.DepthFirst

namespace Kernis

open Std

/-- Capability metadata plus the dependencies required to construct it. -/
structure CapabilityDefinition where
  id : Id
  kind : Text
  replayIdentity : Text
  dependencies : BTreeSet Id
deriving DecidableEq

namespace CapabilityDefinition

/-- A definition with no dependencies and the default replay identity. -/
def new (id : Id) (kind : Text) : CapabilityDefinition :=
  ⟨id, kind, id.asStr ++ ":".toList ++ kind, ∅⟩

/-- This definition with an explicit stable replay identity. -/
def withReplayIdentity (definition : CapabilityDefinition) (replayIdentity : Text) :
    CapabilityDefinition :=
  { definition with replayIdentity := replayIdentity }

/-- Adds a dependency to this definition. -/
def addDependency (definition : CapabilityDefinition) (dependency : Id) : CapabilityDefinition :=
  { definition with dependencies := definition.dependencies.insert dependency }

end CapabilityDefinition

/-- Errors produced while building or resolving a capability graph. -/
inductive CapabilityGraphError
  | unknownCapability (capability : Id)
  | missingDependency (capability dependency : Id)
  | cycle (path : List Id)
deriving DecidableEq

/-- In-memory capability dependency model. -/
structure CapabilityGraph where
  definitions : BTreeMap Id CapabilityDefinition
deriving DecidableEq

namespace CapabilityGraph

/-- A graph without definitions. -/
def empty : CapabilityGraph := ⟨∅⟩

/-- Inserts or replaces a capability definition. -/
def insert (graph : CapabilityGraph) (definition : CapabilityDefinition) : CapabilityGraph :=
  ⟨graph.definitions.insert definition.id definition⟩

/-- Direct requirements in deterministic identifier order. -/
def requirements (graph : CapabilityGraph) (capability : Id) : List Id :=
  match graph.definitions[capability]? with
  | none => []
  | some definition => definition.dependencies.toList

/-- The search of the resolver: requirements in order, a missing one refused. -/
def resolvePlan (graph : CapabilityGraph) : Exploration.Plan Id CapabilityGraphError where
  edges := graph.requirements
  refuse capability dependency :=
    if dependency ∈ graph.definitions then none
    else some (.missingDependency capability dependency)
  cycle := .cycle

/-- Resolves all capabilities in dependency-first construction order. -/
def resolve (graph : CapabilityGraph) : Except CapabilityGraphError (List Id) :=
  Exploration.search graph.resolvePlan graph.definitions.keys graph.definitions.keys

/-- Validates one candidate against this graph's current definitions. -/
def validateCandidate (graph : CapabilityGraph) (candidate : CapabilityDefinition) :
    Except CapabilityGraphError (List Id) :=
  (graph.insert candidate).resolve

/-- A graph of the given definitions. -/
def fromDefinitions (definitions : List CapabilityDefinition) : CapabilityGraph :=
  definitions.foldl insert empty

theorem resolvePlan_closed (graph : CapabilityGraph) :
    ∀ node ∈ graph.definitions.keys, ∀ next ∈ graph.resolvePlan.edges node,
      graph.resolvePlan.refuse node next = none → next ∈ graph.definitions.keys := by
  intro node _ next _ allowed
  rw [ExtTreeMap.mem_keys]
  by_contra missing
  have refused : graph.resolvePlan.refuse node next = some (.missingDependency node next) :=
    if_neg missing
  rw [refused] at allowed
  cases allowed

/-- **A resolution lists every definition.** -/
theorem mem_resolve {graph : CapabilityGraph} {order : List Id}
    (resolved : graph.resolve = .ok order) {id : Id} (known : id ∈ graph.definitions) :
    id ∈ order :=
  Exploration.mem_search resolved graph.resolvePlan_closed (fun _ => fun member => member)
    (ExtTreeMap.mem_keys.mpr known)

/-- **A resolution lists defined capabilities, each once and after its requirements.** -/
theorem order_of_resolve {graph : CapabilityGraph} {order : List Id}
    (resolved : graph.resolve = .ok order) : order.Nodup ∧
      (∀ id ∈ order, id ∈ graph.definitions) ∧ Exploration.Ordered graph.requirements order := by
  obtain ⟨nodup, within⟩ := Exploration.search_once resolved graph.resolvePlan_closed
    fun _ member => member
  exact ⟨nodup, fun id member => ExtTreeMap.mem_keys.mp (within id member),
    Exploration.search_ordered resolved⟩

/-! ### Graphs of keyed definitions -/

/-- Every definition is held under its own identifier. -/
def Keyed (definitions : BTreeMap Id CapabilityDefinition) : Prop :=
  ∀ (id : Id) (definition : CapabilityDefinition), definitions[id]? = some definition →
    definition.id = id

theorem Keyed.insert {definitions : BTreeMap Id CapabilityDefinition} (keyed : Keyed definitions)
    (definition : CapabilityDefinition) : Keyed (definitions.insert definition.id definition) := by
  intro id other found
  rw [lookup_insert] at found
  split at found
  · cases found
    assumption
  · exact keyed id other found

theorem foldl_insert_definitions (definitions : List CapabilityDefinition) (graph : CapabilityGraph) :
    (definitions.foldl insert graph).definitions =
      definitions.foldl (fun built definition => built.insert definition.id definition)
        graph.definitions := by
  induction definitions generalizing graph with
  | nil => rfl
  | cons definition rest ih => exact ih _

/-- The graph of the values of a keyed map is that map. -/
theorem fromDefinitions_valuesOf {definitions : BTreeMap Id CapabilityDefinition}
    (keyed : Keyed definitions) :
    (fromDefinitions (valuesOf definitions)).definitions = definitions := by
  unfold fromDefinitions
  rw [foldl_insert_definitions]
  unfold valuesOf
  rw [List.foldl_map]
  refine ExtTreeMap.ext_getElem? fun id => ?_
  have same : definitions.toList.foldl
      (fun (built : BTreeMap Id CapabilityDefinition) (entry : Id × CapabilityDefinition) =>
        built.insert entry.2.id entry.2) empty.definitions =
      definitions.toList.foldl
        (fun (built : BTreeMap Id CapabilityDefinition) (entry : Id × CapabilityDefinition) =>
          built.insert entry.1 entry.2) ∅ := by
    refine List.foldl_ext _ _ _ fun built entry member => ?_
    rw [keyed entry.1 entry.2 (ExtTreeMap.mem_toList_iff_getElem?_eq_some.mp member)]
  rw [same]
  exact (lookup_foldl_insert (fun definition => definition) definitions id).trans
    Option.map_id'

/-! ### What can be resolved -/

/-- The first capability requires the second. -/
def Requires (graph : CapabilityGraph) (capability dependency : Id) : Prop :=
  ∃ definition, graph.definitions[capability]? = some definition ∧
    dependency ∈ definition.dependencies

theorem mem_requirements {graph : CapabilityGraph} {capability dependency : Id} :
    dependency ∈ graph.requirements capability ↔ graph.Requires capability dependency := by
  unfold requirements Requires
  cases graph.definitions[capability]? with
  | none => simp
  | some definition => simp [ExtTreeSet.mem_toList]

/-- **A graph is valid** if every requirement is defined and no capability requires itself, not even
indirectly. -/
structure Valid (graph : CapabilityGraph) : Prop where
  closed : ∀ capability dependency : Id, graph.Requires capability dependency →
    dependency ∈ graph.definitions
  acyclic : ∀ capability : Id, ¬ Relation.TransGen graph.Requires capability capability

theorem requires_eq (graph : CapabilityGraph) :
    (fun source target => target ∈ graph.resolvePlan.edges source) = graph.Requires := by
  funext source target
  exact propext mem_requirements

/-- A capability that requires something is defined. -/
theorem Requires.mem {graph : CapabilityGraph} {capability dependency : Id}
    (requires : graph.Requires capability dependency) : capability ∈ graph.definitions := by
  obtain ⟨definition, found, _⟩ := requires
  exact mem_of_lookup found

/-- **Exactly the valid graphs resolve.** -/
theorem resolve_iff (graph : CapabilityGraph) :
    (∃ order, graph.resolve = .ok order) ↔ graph.Valid := by
  constructor
  · rintro ⟨order, resolved⟩
    refine ⟨fun capability dependency requires => ?_, fun capability cycle => ?_⟩
    · have allowed := Exploration.search_allowed resolved graph.resolvePlan_closed
        (fun _ member => member) (ExtTreeMap.mem_keys.mpr requires.mem) dependency
        (mem_requirements.mpr requires)
      by_contra missing
      have refused : graph.resolvePlan.refuse capability dependency =
          some (.missingDependency capability dependency) := if_neg missing
      rw [refused] at allowed
      cases allowed
    · have known : capability ∈ graph.definitions := by
        obtain ⟨_, first, _⟩ := Relation.TransGen.head'_iff.mp cycle
        exact first.mem
      refine Exploration.search_acyclic resolved graph.resolvePlan_closed (fun _ member => member)
        (ExtTreeMap.mem_keys.mpr known) ?_
      rw [requires_eq]
      exact cycle
  · intro valid
    cases resolved : graph.resolve with
    | ok order => exact ⟨order, rfl⟩
    | error error =>
      obtain ⟨capability, cycle⟩ := Exploration.cycle_of_search (fun capability dependency edge =>
        if_pos (valid.closed capability dependency (mem_requirements.mp edge))) resolved
      rw [requires_eq] at cycle
      exact absurd cycle (valid.acyclic capability)

end CapabilityGraph

end Kernis
