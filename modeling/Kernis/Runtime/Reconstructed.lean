/-
**What is reconstructed from a definition is the same every time.**

* `FactoryRegistry.Serves` — a registry with a constructor that succeeds for every declared
  capability.
* `reconstructScope_again` — where one registry could publish every capability, every registry that
  serves the definition can; the scope has the declared definitions.
* `declared_requirement` — every configured requirement of a definition is declared under the
  configured identity, so a reconstructed scope pins it (`reconstructed_pins`).
-/

import Kernis.Runtime.Identity
import Kernis.Runtime.Repinned

namespace Kernis

open Std

/-- **A registry whose factories succeed** for every capability that a definition declares. -/
def FactoryRegistry.Serves {ν : Type} (factories : FactoryRegistry ν)
    (validated : ValidatedRunDefinition) : Prop :=
  ∀ capability ∈ valuesOf validated.capabilities, ∃ factory,
    factories.factoryFor capability.id capability.definitionIdentity = some factory ∧
      ∀ dependencies, ∃ value, factory dependencies = .ok value

theorem FactoryRegistry.Serves.validate {ν : Type} {factories : FactoryRegistry ν}
    {validated : ValidatedRunDefinition} (serves : factories.Serves validated) :
    factories.validate validated = .ok () := by
  refine forM_ok.mpr fun capability member => ?_
  obtain ⟨factory, found, _⟩ := serves capability member
  exact if_pos (mem_of_lookup found)

/-! ### The scope -/

/-- Dependencies do not change what a definition is called and identified by. -/
theorem definition_declared (capability : CapabilityDeclaration) :
    capability.definition.id = capability.id ∧
      capability.definition.replayIdentity = capability.definitionIdentity.text := by
  have kept : ∀ (dependencies : List CapabilityRequirement) (start : CapabilityDefinition),
      (dependencies.foldl (fun definition dependency =>
          definition.addDependency dependency.capabilityId) start).id = start.id ∧
        (dependencies.foldl (fun definition dependency =>
          definition.addDependency dependency.capabilityId) start).replayIdentity =
            start.replayIdentity := by
    intro dependencies
    induction dependencies with
    | nil => exact fun _ => ⟨rfl, rfl⟩
    | cons dependency rest ih => exact fun start => ih (start.addDependency dependency.capabilityId)
  exact kept capability.dependencies _

section Scopes

variable {ν : Type} {validated : ValidatedRunDefinition} {factories others : FactoryRegistry ν}

/-- The definitions published for a list of capabilities. -/
def publishedOf (validated : ValidatedRunDefinition)
    (definitions : BTreeMap Id CapabilityDefinition) (order : List Id) :
    BTreeMap Id CapabilityDefinition :=
  order.foldl (fun definitions capabilityId =>
    match validated.capabilities[capabilityId]? with
    | none => definitions
    | some capability => definitions.insert capability.id capability.definition) definitions

/-- **Publication depends on the definitions only**, as long as the constructors succeed. -/
theorem reconstructCapabilities_again (serves : others.Serves validated)
    {definitions : BTreeMap Id CapabilityDefinition} {order : List Id} {first second : Scope ν}
    {entryId otherEntry : Nat} {scope : Scope ν} (rooted : Scope.RootOf definitions first)
    (rootedOther : Scope.RootOf definitions second)
    (reconstructed : reconstructCapabilities validated factories first entryId order = .ok scope) :
    ∃ other, reconstructCapabilities validated others second otherEntry order = .ok other ∧
      Scope.RootOf (publishedOf validated definitions order) other := by
  induction order generalizing definitions first second entryId otherEntry with
  | nil => exact ⟨second, rfl, rootedOther⟩
  | cons capabilityId rest ih =>
    rw [reconstructCapabilities] at reconstructed
    split at reconstructed
    · cases reconstructed
    · rename_i next published
      unfold reconstructCapability at published
      split at published
      · cases published
      · rename_i capability found
        split at published
        · cases published
        · rename_i factory _
          split at published
          · cases published
          · rename_i handle reached provided
            cases published
            obtain ⟨providable, rootedNext⟩ := rooted.of_provide provided
            obtain ⟨again, available, constructs⟩ :=
              serves capability (mem_valuesOf.mpr ⟨_, found⟩)
            obtain ⟨_, nextOther, providedOther, rootedOtherNext⟩ :=
              rootedOther.provide providable constructs otherEntry
            obtain ⟨other, finished, rootedLast⟩ := ih rootedNext rootedOtherNext reconstructed
            refine ⟨other, ?_, ?_⟩
            · rw [reconstructCapabilities, reconstructCapability]
              simp only [found, available, providedOther]
              exact finished
            · rw [(definition_declared capability).1] at rootedLast
              rw [publishedOf, List.foldl_cons, found]
              exact rootedLast

/-- Published definitions are those of the declarations, each under its own name. -/
theorem lookup_publishedOf
    (own : ∀ (capabilityId : Id) (capability : CapabilityDeclaration),
      validated.capabilities[capabilityId]? = some capability → capability.id = capabilityId)
    {definitions : BTreeMap Id CapabilityDefinition} {order : List Id} {capabilityId : Id}
    {capability : CapabilityDeclaration}
    (found : validated.capabilities[capabilityId]? = some capability)
    (listed : capabilityId ∈ order ∨ definitions[capabilityId]? = some capability.definition) :
    (publishedOf validated definitions order)[capabilityId]? = some capability.definition := by
  induction order generalizing definitions with
  | nil => exact listed.resolve_left List.not_mem_nil
  | cons other rest ih =>
    rw [publishedOf, List.foldl_cons]
    refine ih ?_
    by_cases same : other = capabilityId
    · subst same
      simp only [found]
      rw [own _ _ found]
      exact .inr (lookup_insert_self _ _ _)
    · rcases listed with member | before
      · exact .inl ((List.mem_cons.mp member).resolve_left fun equal => same equal.symm)
      · refine .inr ?_
        cases looked : validated.capabilities[other]? with
        | none => exact before
        | some declared =>
          simp only
          rw [own _ _ looked, lookup_insert_ne _ _ same]
          exact before

theorem mem_fromDefinitions {definitions : List CapabilityDefinition}
    {definition : CapabilityDefinition} (member : definition ∈ definitions) :
    definition.id ∈ (CapabilityGraph.fromDefinitions definitions).definitions := by
  unfold CapabilityGraph.fromDefinitions
  induction definitions using List.reverseRecOn with
  | nil => cases member
  | append_singleton definitions last ih =>
    rw [List.foldl_append, List.foldl_cons, List.foldl_nil, CapabilityGraph.insert, mem_insert_iff]
    rcases List.mem_append.mp member with before | now
    · exact .inr (ih before)
    · rw [List.mem_singleton.mp now]
      exact .inl rfl

/-- **A definition can be reconstructed by every registry that serves it**, and the scope has every
declared capability under its declared identity. -/
theorem reconstructScope_again {definition : RunDefinition}
    {declared : BTreeMap Id CapabilityDeclaration} (checks : Validates definition declared validated)
    (serves : others.Serves validated) {entryId : Nat} (otherEntry : Nat) {scope : Scope ν}
    (reconstructed : reconstructScope validated factories entryId = .ok scope) :
    ∃ other, reconstructScope validated others otherEntry = .ok other ∧
      ∀ (capabilityId : Id) (capability : CapabilityDeclaration),
        validated.capabilities[capabilityId]? = some capability →
        ∃ handle, other.contextGet capabilityId = some handle ∧
          handle.definition.replayIdentity = capability.definitionIdentity.text := by
  unfold reconstructScope at reconstructed ⊢
  split at reconstructed
  · cases reconstructed
  · rename_i order resolved
    obtain ⟨other, again, rooted⟩ := reconstructCapabilities_again serves Scope.rootOf_root
      Scope.rootOf_root reconstructed
    refine ⟨other, again, fun capabilityId capability found => ?_⟩
    have own := checks.own capabilityId capability found
    have known := mem_fromDefinitions
      (List.mem_map_of_mem (f := CapabilityDeclaration.definition) (mem_valuesOf.mpr ⟨_, found⟩))
    rw [(definition_declared capability).1, own] at known
    have listed := CapabilityGraph.mem_resolve resolved known
    obtain ⟨handle, held, same⟩ := rooted.contextGet_definition
      (lookup_publishedOf checks.own found (.inl listed))
    exact ⟨handle, held, by rw [same, (definition_declared capability).2]⟩

/-! ### Requirements -/

/-- The requirements of a task's configuration are those it declares. -/
theorem exists_required {task : TaskDefinition} {capabilityId : Id} {configured : Option Text}
    (required : task.config.requiredCapabilities[capabilityId]? = some configured) :
    ∃ requirement ∈ task.requiredCapabilities, requirement.capabilityId = capabilityId ∧
      some requirement.definitionIdentity.text = configured := by
  have folded : ∀ (requirements : List CapabilityRequirement) (config : TaskConfig),
      (requirements.foldl (fun config requirement => config.requireCapabilityWithIdentity
          requirement.capabilityId requirement.definitionIdentity.text) config).requiredCapabilities =
        requirements.foldl (fun built requirement => built.insert requirement.capabilityId
          (some requirement.definitionIdentity.text)) config.requiredCapabilities := by
    intro requirements
    induction requirements with
    | nil => exact fun _ => rfl
    | cons requirement rest ih => exact fun config => ih _
  exact exists_of_foldl_insert (folded task.requiredCapabilities TaskConfig.new ▸ required)

/-- **Every configured requirement is declared under the configured identity.** -/
theorem declared_requirement {definition : RunDefinition}
    {declared : BTreeMap Id CapabilityDeclaration} (checks : Validates definition declared validated)
    {workflow : WorkflowGraph} {taskConfigs : BTreeMap Id TaskConfig}
    (inputs : runtimeInputs validated = .ok (workflow, taskConfigs)) {taskId capabilityId : Id}
    {configured : Option Text}
    (required : (capabilityId, configured) ∈ requiredCapabilities taskConfigs taskId) :
    ∃ capability, validated.capabilities[capabilityId]? = some capability ∧
      configured = some capability.definitionIdentity.text := by
  have configs : taskConfigs = (valuesOf validated.tasks).foldl
      (fun configs task => configs.insert task.id task.config) ∅ := by
    unfold runtimeInputs at inputs
    simp only at inputs
    split at inputs
    · cases inputs
      rfl
    · split at inputs
      · cases inputs
      · cases inputs
        rfl
  unfold requiredCapabilities at required
  split at required
  · cases required
  · rename_i config found
    rw [configs] at found
    obtain ⟨task, member, _, rfl⟩ := exists_of_foldl_insert found
    obtain ⟨requirement, inside, rfl, rfl⟩ :=
      exists_required (ExtTreeMap.mem_toList_iff_getElem?_eq_some.mp required)
    obtain ⟨capability, held, same⟩ := checks.required_declared
      (List.mem_append_left _ (List.mem_flatMap.mpr ⟨task, member, inside⟩))
    exact ⟨capability, held, by rw [same]⟩

/-- The identity that a configured requirement asks for. -/
def askedIdentity : Id × Option Text → CapabilityReplayIdentity
  | (capabilityId, configured) => ⟨capabilityId, configured.getD []⟩

/-- **A capture of configured identities pins exactly these**, whatever the scope. -/
theorem capture_asked {scope : Scope ν} {taskConfigs : BTreeMap Id TaskConfig} {taskId : Id}
    {pins : List CapabilityPin}
    (configured : ∀ requirement ∈ requiredCapabilities taskConfigs taskId,
      requirement.2.isSome = true)
    (captured : captureCapabilityPins scope taskConfigs taskId none = .ok pins) :
    pins.map CapabilityPin.replayIdentity =
      (requiredCapabilities taskConfigs taskId).map askedIdentity := by
  have each := forall₂_of_mapM (capture_ok.mp captured)
  clear captured
  generalize requiredCapabilities taskConfigs taskId = required at configured each
  induction each with
  | nil => rfl
  | @cons requirement pin _ _ one _ ih =>
    obtain ⟨capabilityId, identity⟩ := requirement
    obtain ⟨handle, _, same, rfl⟩ := capturePin_ok.mp one
    obtain ⟨asked, rfl⟩ := Option.isSome_iff_exists.mp (configured _ List.mem_cons_self)
    rw [List.map_cons, List.map_cons, ih fun other member =>
      configured other (List.mem_cons_of_mem _ member)]
    simp only [askedIdentity, Option.getD_some, same asked rfl]

/-- **A scope of the declared capabilities pins every requirement.** -/
theorem reconstructed_pins {definition : RunDefinition}
    {declared : BTreeMap Id CapabilityDeclaration} (checks : Validates definition declared validated)
    {workflow : WorkflowGraph} {taskConfigs : BTreeMap Id TaskConfig}
    (inputs : runtimeInputs validated = .ok (workflow, taskConfigs)) {scope : Scope ν}
    (complete : ∀ (capabilityId : Id) (capability : CapabilityDeclaration),
      validated.capabilities[capabilityId]? = some capability →
      ∃ handle, scope.contextGet capabilityId = some handle ∧
        handle.definition.replayIdentity = capability.definitionIdentity.text) (taskId : Id) :
    ∃ pins, captureCapabilityPins scope taskConfigs taskId none = .ok pins := by
  simp only [capture_ok]
  refine exists_mapM_ok_iff.mpr ?_
  rintro ⟨capabilityId, configured⟩ required
  obtain ⟨capability, found, rfl⟩ := declared_requirement checks inputs required
  obtain ⟨handle, held, same⟩ := complete capabilityId capability found
  exact ⟨_, capturePin_ok.mpr ⟨handle, held,
    fun identity asked => (Option.some.inj asked).symm.trans same.symm, rfl⟩⟩

end Scopes

end Kernis
