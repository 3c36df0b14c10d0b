/-
**Construction from a valid definition.**

* `reconstructScope_cases` — the declared capabilities are published one by one unless a factory fails.
* `startFromDefinition_error` — a start from a valid definition whose factories are complete fails only
  through a factory or the store.
-/

import Kernis.Capability.Standing
import Kernis.Runtime.Created
import Kernis.Runtime.Reconstructed

namespace Kernis

open Std Fallible

variable {ν : Type} {validated : ValidatedRunDefinition} {factories : FactoryRegistry ν}

/-- The graph of declarations that are held under their names. -/
theorem capabilityGraph_lookup {capabilities : BTreeMap Id CapabilityDeclaration}
    (own : ∀ (capabilityId : Id) (capability : CapabilityDeclaration),
      capabilities[capabilityId]? = some capability → capability.id = capabilityId) (id : Id) :
    (capabilityGraph capabilities).definitions[id]? =
      (capabilities[id]?).map CapabilityDeclaration.definition := by
  unfold capabilityGraph CapabilityGraph.fromDefinitions
  rw [CapabilityGraph.foldl_insert_definitions, List.foldl_map]
  unfold valuesOf
  rw [List.foldl_map]
  have same : capabilities.toList.foldl
      (fun (built : BTreeMap Id CapabilityDefinition) (entry : Id × CapabilityDeclaration) =>
        built.insert entry.2.definition.id entry.2.definition) CapabilityGraph.empty.definitions =
      capabilities.toList.foldl
        (fun (built : BTreeMap Id CapabilityDefinition) (entry : Id × CapabilityDeclaration) =>
          built.insert entry.1 entry.2.definition) ∅ := by
    refine List.foldl_ext _ _ _ fun built entry member => ?_
    rw [(definition_declared entry.2).1,
      own entry.1 entry.2 (ExtTreeMap.mem_toList_iff_getElem?_eq_some.mp member)]
  rw [same]
  exact lookup_foldl_insert CapabilityDeclaration.definition capabilities id

/-- A failure of a factory. -/
def FactoryFails (validated : ValidatedRunDefinition) (factories : FactoryRegistry ν)
    (error : RuntimeError) : Prop :=
  ∃ capability ∈ valuesOf validated.capabilities, ∃ factory dependencies reason,
    factories.factoryFor capability.id capability.definitionIdentity = some factory ∧
      factory dependencies = .error reason ∧
      error = .factory (.constructionFailed capability.id capability.definitionIdentity reason)

/-- One declared capability is published unless its factory fails. -/
theorem reconstructCapability_cases
    (own : ∀ (capabilityId : Id) (capability : CapabilityDeclaration),
      validated.capabilities[capabilityId]? = some capability → capability.id = capabilityId)
    (covered : factories.validate validated = .ok ())
    {definitions : BTreeMap Id CapabilityDefinition} {scope : Scope ν}
    (rooted : Scope.RootOf definitions scope) (standing : Standing definitions) (entryId : Nat)
    {capabilityId : Id} {capability : CapabilityDeclaration}
    (found : validated.capabilities[capabilityId]? = some capability)
    (fresh : capabilityId ∉ definitions)
    (known : ∀ dependency ∈ capability.definition.dependencies, dependency ∈ definitions) :
    (∃ error, reconstructCapability validated factories scope entryId capabilityId = .error error ∧
      FactoryFails validated factories error) ∨
    ∃ next, reconstructCapability validated factories scope entryId capabilityId = .ok next ∧
      Scope.RootOf (definitions.insert capability.definition.id capability.definition) next := by
  have member : capability ∈ valuesOf validated.capabilities := mem_valuesOf.mpr ⟨_, found⟩
  have named : capability.definition.id = capabilityId :=
    (definition_declared capability).1.trans (own _ _ found)
  have held := forM_ok.mp covered capability member
  split at held
  · rename_i inside
    obtain ⟨factory, registered⟩ := exists_lookup_of_mem inside
    have registered : factories.factoryFor capability.id capability.definitionIdentity =
        some factory := registered
    have providable := standing.providable (named ▸ fresh) known
    unfold reconstructCapability
    simp only [found, registered]
    split
    · rename_i error refused
      obtain ⟨dependencies, reason, fails, rfl⟩ := rooted.of_refused providable refused
      exact .inl ⟨_, rfl, capability, member, factory, dependencies, reason, registered, fails, rfl⟩
    · rename_i handle next provided
      exact .inr ⟨next, rfl, (rooted.of_provide provided).2⟩
  · cases held

/-- **The declared capabilities are published in their order unless a factory fails**, and they stand on
their own. -/
theorem reconstructCapabilities_cases
    (own : ∀ (capabilityId : Id) (capability : CapabilityDeclaration),
      validated.capabilities[capabilityId]? = some capability → capability.id = capabilityId)
    (covered : factories.validate validated = .ok ()) (front order : List Id)
    (nodup : (front ++ order).Nodup)
    (declared : ∀ id ∈ order, id ∈ (capabilityGraph validated.capabilities).definitions)
    (ordered : Exploration.Ordered (capabilityGraph validated.capabilities).requirements
      (front ++ order)) {definitions : BTreeMap Id CapabilityDefinition}
    (published : ∀ id : Id, id ∈ definitions ↔ id ∈ front) {scope : Scope ν}
    (rooted : Scope.RootOf definitions scope) (standing : Standing definitions) (entryId : Nat) :
    (∃ error, reconstructCapabilities validated factories scope entryId order = .error error ∧
      FactoryFails validated factories error) ∨
    ∃ last others, reconstructCapabilities validated factories scope entryId order = .ok last ∧
      Scope.RootOf others last ∧ Standing others ∧ ∀ id : Id, id ∈ others ↔ id ∈ front ++ order := by
  induction order generalizing front definitions scope entryId with
  | nil =>
    rw [List.append_nil]
    exact .inr ⟨scope, definitions, rfl, rooted, standing, published⟩
  | cons capabilityId rest ih =>
    have lookup := capabilityGraph_lookup own capabilityId
    obtain ⟨definition, held⟩ := exists_lookup_of_mem (declared capabilityId List.mem_cons_self)
    rw [held] at lookup
    obtain ⟨capability, found, rfl⟩ := Option.map_eq_some_iff.mp lookup.symm
    have named : capability.definition.id = capabilityId :=
      (definition_declared capability).1.trans (own _ _ found)
    have fresh : capabilityId ∉ definitions := by
      rw [published]
      rw [List.nodup_append] at nodup
      exact fun member => nodup.2.2 _ member _ List.mem_cons_self rfl
    have known : ∀ dependency ∈ capability.definition.dependencies, dependency ∈ definitions := by
      intro dependency member
      rw [published]
      exact ordered front capabilityId rest rfl dependency
        (CapabilityGraph.mem_requirements.mpr ⟨_, held, member⟩)
    have joined : front ++ capabilityId :: rest = front ++ [capabilityId] ++ rest := by
      rw [List.append_assoc]
      rfl
    unfold reconstructCapabilities
    rcases reconstructCapability_cases own covered rooted standing entryId found fresh known with
      ⟨error, refused, host⟩ | ⟨next, provided, rootedNext⟩
    · rw [refused]
      exact .inl ⟨error, rfl, host⟩
    · rw [provided, joined]
      rw [joined] at nodup ordered
      refine ih (front ++ [capabilityId]) nodup
        (fun id member => declared id (List.mem_cons_of_mem _ member)) ordered (fun id => ?_) rootedNext
        (standing.insert (named ▸ fresh) known) (entryId + 1)
      rw [mem_insert_iff, named, published, List.mem_append, List.mem_singleton]
      exact or_comm

/-- **A scope is reconstructed unless a factory fails.** It publishes the declared capabilities. -/
theorem reconstructScope_cases {definition : RunDefinition}
    {declared : BTreeMap Id CapabilityDeclaration} (checks : Validates definition declared validated)
    (covered : factories.validate validated = .ok ()) (firstEntry : Nat) :
    (∃ error, reconstructScope validated factories firstEntry = .error error ∧
      FactoryFails validated factories error) ∨
    ∃ scope definitions, reconstructScope validated factories firstEntry = .ok scope ∧
      Scope.RootOf definitions scope ∧ Standing definitions ∧
        ∀ id : Id, id ∈ definitions → id ∈ validated.capabilities := by
  have resolves := checks.graph
  unfold validateCapabilityGraph at resolves
  unfold reconstructScope
  split
  · rename_i refused
    rw [refused] at resolves
    cases resolves
  · rename_i order resolved
    obtain ⟨nodup, listed, ordered⟩ := CapabilityGraph.order_of_resolve resolved
    rcases reconstructCapabilities_cases checks.own covered [] order nodup listed ordered (by simp)
      Scope.rootOf_root .empty firstEntry with refused | ⟨scope, definitions, made, rooted, standing, known⟩
    · exact .inl refused
    · refine .inr ⟨scope, definitions, made, rooted, standing, fun id member => ?_⟩
      obtain ⟨other, held⟩ := exists_lookup_of_mem (listed id ((known id).mp member))
      rw [capabilityGraph_lookup checks.own] at held
      obtain ⟨capability, found, _⟩ := Option.map_eq_some_iff.mp held
      exact mem_of_lookup found

/-- The inputs of a valid definition: an unfinished workflow. -/
theorem exists_runtimeInputs {definition : RunDefinition}
    {declared : BTreeMap Id CapabilityDeclaration} (checks : Validates definition declared validated) :
    ∃ workflow taskConfigs, runtimeInputs validated = .ok (workflow, taskConfigs) ∧
      ensureUnfinishedWorkflow workflow = .ok () := by
  have applies := checks.workflow
  unfold validateWorkflow at applies
  unfold runtimeInputs
  simp only
  by_cases none_ : workflowMutations validated.tasks = []
  · rw [if_pos none_]
    exact ⟨_, _, rfl, rfl⟩
  · rw [if_neg none_] at applies ⊢
    cases applied : WorkflowGraph.empty.applyBatch 0 (workflowMutations validated.tasks) with
    | error error =>
      rw [applied] at applies
      cases applies
    | ok outcome =>
      obtain ⟨record, workflow⟩ := outcome
      obtain ⟨_, _, _, _, facts⟩ := WorkflowGraph.applyBatch_eq_ok applied
      refine ⟨workflow, _, rfl, ?_⟩
      unfold ensureUnfinishedWorkflow WorkflowGraph.completionLog
      rw [facts]
      rfl

namespace Runtime

variable {σ : Type} [DurableStore σ]

/-- A run is bootstrapped unless the store fails. -/
theorem bootstrapRun_error {runId : RunId} {store reached : σ} {error : RuntimeError}
    (fails : bootstrapRun runId store = (.error error, reached)) : ∃ source, error = .store source := by
  unfold bootstrapRun at fails
  split at fails
  · cases fails
  · split at fails
    · cases fails
      exact ⟨_, rfl⟩
    · split at fails
      · cases fails
      · cases fails
        exact ⟨_, rfl⟩
  · cases fails
    exact ⟨_, rfl⟩

/-- An identity is recorded unless the store fails. -/
theorem recordIdentity_error {runId : RunId} {revision : Nat} {identity : WorkflowReplayIdentity}
    {store reached : σ} {error : RuntimeError}
    (fails : recordIdentity runId revision identity store = (.error error, reached)) :
    ∃ source, error = .store source := by
  unfold recordIdentity at fails
  split at fails
  · cases fails
    exact ⟨_, rfl⟩
  · cases fails

/-- **A start from a valid definition whose factories are complete fails only through a factory or the
store.** -/
theorem startFromDefinition_error {definition : RunDefinition}
    {declared : BTreeMap Id CapabilityDeclaration} (checks : Validates definition declared validated)
    (covered : factories.validate validated = .ok ()) {runId : RunId} {firstEntry : Nat}
    {store reached : σ} {error : RuntimeError}
    (fails : startFromDefinitionWithStore runId definition factories firstEntry store =
      (.error error, reached)) :
    FactoryFails validated factories error ∨ ∃ source, error = .store source := by
  obtain ⟨workflow, taskConfigs, inputs, unfinished⟩ := exists_runtimeInputs checks
  unfold startFromDefinitionWithStore at fails
  rw [validated_iff.mpr ⟨declared, checks⟩] at fails
  rcases bind_error.mp fails with refused | ⟨_, _, valid, fails⟩
  · cases refused
  cases valid
  rcases bind_error.mp fails with refused | ⟨_, _, available, fails⟩
  · rw [run_lift, covered] at refused
    cases refused
  rw [run_lift, covered] at available
  cases available
  rcases bind_error.mp fails with refused | ⟨_, _, given, fails⟩
  · rw [run_lift, inputs] at refused
    cases refused
  rw [run_lift, inputs] at given
  cases given
  rcases bind_error.mp fails with refused | ⟨scope, _, reconstructed, fails⟩
  · rw [run_lift] at refused
    have refused := (Prod.mk.inj refused).1
    rcases reconstructScope_cases checks covered firstEntry with
      ⟨other, same, host⟩ | ⟨scope, _, made, _⟩
    · rw [refused] at same
      cases same
      exact .inl host
    · rw [refused] at made
      cases made
  refine .inr ?_
  unfold startWithIdentity at fails
  rcases bind_error.mp fails with refused | ⟨_, _, _, fails⟩
  · rw [run_lift, unfinished] at refused
    cases refused
  rcases bind_error.mp fails with refused | ⟨_, _, _, fails⟩
  · exact bootstrapRun_error refused
  rcases bind_error.mp fails with refused | ⟨_, _, _, fails⟩
  · exact recordIdentity_error refused
  rcases bind_error.mp fails with refused | ⟨_, _, _, fails⟩
  · cases refused
  · cases fails

end Runtime

end Kernis
