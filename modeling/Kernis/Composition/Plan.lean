/-
**Planning a composition.**

* `CompositionBuilder.register` — collects modules by identity.
* `CompositionBuilder.build` — checks the module graph, the ownership of every slot, the requirements,
  factories and plugins on it, and the configuration, and merges the declarations into one run
  definition. Nothing is activated.
* `Plans` — what holds of a plan that was built.
-/

import Kernis.Composition.Module
import Kernis.Lib.Topological

namespace Kernis

open Std

/-- Composition-visible owner record for one capability slot. -/
structure CapabilitySlot where
  moduleId : Id
  ownership : CapabilityOwnership
  definitionIdentity : DefinitionIdentity
  kind : Text
deriving DecidableEq

/-- Modules by identity, each under its own. -/
structure CompositionBuilder (ν : Type) where
  modules : BTreeMap Id (ModuleRegistration ν)
  keyed : ∀ (moduleId : Id) (registration : ModuleRegistration ν),
    modules[moduleId]? = some registration → registration.definition.id = moduleId

/-- Validated, deterministic composition plan. -/
structure CompositionPlan (ν : Type) where
  modules : BTreeMap Id (ModuleRegistration ν)
  order : List Id
  definition : RunDefinition
  factories : FactoryRegistry ν
  slots : BTreeMap Id CapabilitySlot

/-- Whether a constructor is registered. -/
def FactoryRegistry.contains {ν : Type} (registry : FactoryRegistry ν) (capabilityId : Id)
    (definitionIdentity : DefinitionIdentity) : Bool :=
  registry.factories.contains ⟨capabilityId, definitionIdentity⟩

section Checks

variable {ν : Type} (modules : BTreeMap Id (ModuleRegistration ν))

/-- What the modules contribute of one kind, in module order, with the module. -/
def contributed {γ : Type} (of : ModuleRegistration ν → List γ) : List (Id × γ) :=
  modules.toList.flatMap fun entry => (of entry.2).map fun contribution =>
    (entry.1, contribution)

/-- Claims keys one after the other; a claimed key is refused. -/
def claimBy {γ δ : Type} (key : γ → Id) (claim : Id → γ → δ)
    (refused : Id → γ → δ → CompositionError) :
    BTreeMap Id δ → List (Id × γ) → Except CompositionError (BTreeMap Id δ)
  | claims, [] => .ok claims
  | claims, (moduleId, contribution) :: rest =>
    match claims[key contribution]? with
    | some previous => .error (refused moduleId contribution previous)
    | none => claimBy key claim refused
        (claims.insert (key contribution) (claim moduleId contribution)) rest

/-! ### The module graph -/

/-- Every dependency is a registered module. -/
def validateModuleDependencies : Except CompositionError Unit :=
  (contributed modules fun registration => registration.definition.dependencies).forM fun entry =>
    if entry.2 ∈ modules then .ok () else .error (.missingModuleDependency entry.1 entry.2)

/-- The dependencies of every module. -/
def dependencySets : BTreeMap Id (BTreeSet Id) :=
  modules.map fun _ registration => .ofList registration.definition.dependencies

/-- A topological order with the module identity as tie-breaker, or a dependency cycle. -/
def deterministicOrder : Except CompositionError (List Id) :=
  let order := Counting.order (dependencySets modules)
  if order.length = modules.size then .ok order
  else .error (.moduleDependencyCycle (Counting.cycle (dependencySets modules)))

/-! ### Contributions -/

/-- Every slot has one owner. -/
def validateCapabilitySlots : Except CompositionError (BTreeMap Id CapabilitySlot) :=
  claimBy CapabilityContribution.capabilityId
    (fun moduleId contribution => ⟨moduleId, contribution.ownership, contribution.definitionIdentity,
      contribution.kind⟩)
    (fun moduleId contribution previous =>
      .duplicateCapabilityOwnership contribution.capabilityId moduleId previous.moduleId)
    ∅ (contributed modules fun registration => registration.definition.capabilities)

/-- Every task has one owner. -/
def validateTaskContributions : Except CompositionError Unit :=
  (claimBy TaskDefinition.id (fun moduleId _ => moduleId)
    (fun moduleId task previous => .duplicateTaskContribution task.id moduleId previous)
    ∅ (contributed modules fun registration => registration.definition.tasks)).map fun _ => ()

/-- A required slot is declaratively owned, under the required identity. -/
def validateRequirement (slots : BTreeMap Id CapabilitySlot) (requirement : CapabilityRequirement) :
    Except CompositionError Unit :=
  match slots[requirement.capabilityId]? with
  | none => .error (.capabilityDefinitionConflict requirement.capabilityId .unownedRequirement)
  | some slot =>
    if slot.ownership = .reactive then
      .error (.capabilityDefinitionConflict requirement.capabilityId
        (.requiredOnReactiveSlot slot.moduleId))
    else if slot.definitionIdentity ≠ requirement.definitionIdentity then
      .error (.capabilityDefinitionConflict requirement.capabilityId
        (.identityMismatch requirement.definitionIdentity slot.definitionIdentity))
    else .ok ()

/-- What a contribution requires of declaratively owned slots. -/
def CapabilityContribution.requirements : CapabilityContribution → List CapabilityRequirement
  | .declarative declaration => declaration.dependencies
  | .reactive _ => []

/-- The requirements of one module: those of its tasks, then those of its declarations. -/
def ModuleDefinition.requirements (definition : ModuleDefinition) : List CapabilityRequirement :=
  definition.tasks.flatMap TaskDefinition.requiredCapabilities ++
    definition.capabilities.flatMap CapabilityContribution.requirements

/-- All requirements. -/
def validateModuleRequirements (slots : BTreeMap Id CapabilitySlot) : Except CompositionError Unit :=
  (contributed modules fun registration => registration.definition.requirements).forM fun entry =>
    validateRequirement slots entry.2

/-! ### Factories -/

/-- The first module that contributes a factory for a definition. -/
def firstFactoryOwner (capabilityId : Id) (definitionIdentity : DefinitionIdentity) : Option Id :=
  (modules.toList.find? fun entry => entry.2.factories.any fun contribution =>
    contribution.capabilityId = capabilityId ∧
      contribution.definitionIdentity = definitionIdentity).map Prod.fst

/-- One factory: for a declared slot, under the declared identity, once. -/
def mergeFactory (slots : BTreeMap Id CapabilitySlot) (factories : FactoryRegistry ν)
    (moduleId : Id) (contribution : FactoryContribution ν) :
    Except CompositionError (FactoryRegistry ν) :=
  let conflict := CompositionError.factoryConflict contribution.capabilityId
    contribution.definitionIdentity
  if blank contribution.definitionIdentity.text then .error (conflict .invalidDefinitionIdentity)
  else
    match slots[contribution.capabilityId]? with
    | none => .error (conflict .undeclaredSlot)
    | some slot =>
      if slot.ownership = .reactive then .error (conflict (.factoryOnReactiveSlot slot.moduleId))
      else if slot.definitionIdentity ≠ contribution.definitionIdentity then
        .error (conflict (.identityMismatch slot.definitionIdentity))
      else
        match factories.register contribution.capabilityId contribution.definitionIdentity
            contribution.factory with
        | .error _ => .error (conflict (.duplicate moduleId
            ((firstFactoryOwner modules contribution.capabilityId
              contribution.definitionIdentity).getD moduleId)))
        | .ok factories => .ok factories

/-- The factories one after the other. -/
def mergeFactories (slots : BTreeMap Id CapabilitySlot) :
    FactoryRegistry ν → List (Id × FactoryContribution ν) →
      Except CompositionError (FactoryRegistry ν)
  | factories, [] => .ok factories
  | factories, (moduleId, contribution) :: rest =>
    match mergeFactory modules slots factories moduleId contribution with
    | .error error => .error error
    | .ok factories => mergeFactories slots factories rest

/-- All factories, and one for every declaratively owned slot. -/
def validateFactories (slots : BTreeMap Id CapabilitySlot) :
    Except CompositionError (FactoryRegistry ν) := do
  let factories ← mergeFactories modules slots .new (contributed modules ModuleRegistration.factories)
  slots.toList.forM fun entry =>
    if entry.2.ownership = .declarative ∧
        factories.contains entry.1 entry.2.definitionIdentity = false then
      .error (.factoryConflict entry.1 entry.2.definitionIdentity .missing)
    else .ok ()
  .ok factories

/-! ### Plugins -/

/-- The first module that contributes a plugin. -/
def firstPluginOwner (pluginId : Id) : Option Id :=
  (modules.toList.find? fun entry => entry.2.plugins.any fun contribution =>
    contribution.plugin.id = pluginId).map Prod.fst

/-- The plugins seen so far, and the module that claimed each reactive slot. -/
structure PluginClaims where
  owners : BTreeSet Id
  reactive : BTreeMap Id Id
deriving DecidableEq

/-- The slot that a plugin publishes into: reactively owned, of its kind and identity, claimed once. -/
def claimSlot (slots : BTreeMap Id CapabilitySlot) (claims : PluginClaims) (moduleId : Id)
    (plugin : PluginDefinition) : Except CompositionError PluginClaims :=
  let conflict := CompositionError.capabilityPluginConflict plugin.id
  match slots[plugin.capability.id]? with
  | none => .error (conflict .unownedPublication)
  | some slot =>
    if slot.ownership = .declarative then .error (conflict (.staticSlotCollision slot.moduleId))
    else
      match claims.reactive[plugin.capability.id]? with
      | some previous => .error (conflict (.slotAlreadyClaimed moduleId previous))
      | none =>
        if plugin.capability.kind ≠ slot.kind then
          .error (conflict (.definitionMismatch ("plugin kind ".toList ++ plugin.capability.kind ++
            " differs from slot kind ".toList ++ slot.kind)))
        else if plugin.capability.replayIdentity ≠ slot.definitionIdentity.text then
          .error (conflict (.definitionMismatch ("plugin replay identity ".toList ++
            plugin.capability.replayIdentity ++ " differs from slot identity ".toList ++
            slot.definitionIdentity.text)))
        else .ok ⟨claims.owners.insert plugin.id,
          claims.reactive.insert plugin.capability.id moduleId⟩

/-- One plugin: it is new, its dependencies are slots, and it may publish into its own. -/
def claimPlugin (slots : BTreeMap Id CapabilitySlot) (claims : PluginClaims) (moduleId : Id)
    (plugin : PluginDefinition) : Except CompositionError PluginClaims :=
  if plugin.id ∈ claims.owners then
    .error (.capabilityPluginConflict plugin.id
      (.duplicateRegistration moduleId ((firstPluginOwner modules plugin.id).getD moduleId)))
  else
    match plugin.capability.dependencies.toList.find? (· ∉ slots) with
    | some dependency => .error (.capabilityDefinitionConflict dependency .unownedRequirement)
    | none => claimSlot slots claims moduleId plugin

/-- The plugins one after the other. -/
def claimPlugins (slots : BTreeMap Id CapabilitySlot) :
    PluginClaims → List (Id × PluginContribution) → Except CompositionError PluginClaims
  | claims, [] => .ok claims
  | claims, (moduleId, contribution) :: rest =>
    match claimPlugin modules slots claims moduleId contribution.plugin with
    | .error error => .error error
    | .ok claims => claimPlugins slots claims rest

/-- All plugins, and one for every reactively owned slot. -/
def validatePlugins (slots : BTreeMap Id CapabilitySlot) : Except CompositionError Unit := do
  let claims ← claimPlugins modules slots ⟨∅, ∅⟩ (contributed modules ModuleRegistration.plugins)
  slots.toList.forM fun entry =>
    if entry.2.ownership = .reactive ∧ entry.1 ∉ claims.reactive then
      .error (.missingCapabilityPlugin entry.1 entry.2.moduleId)
    else .ok ()

/-! ### Configuration and the merged definition -/

/-- The configuration keys one after the other: no key both required and optional. -/
def validateRequirementKeys : BTreeMap Id (Id × Bool) → List (Id × ConfigRequirement) →
    Except CompositionError Unit
  | _, [] => .ok ()
  | requirements, (moduleId, requirement) :: rest =>
    match requirements[requirement.key]? with
    | some previous =>
      if previous.2 ≠ requirement.required then
        .error (.configurationConflict requirement.key moduleId previous.1)
      else validateRequirementKeys
        (requirements.insert requirement.key (moduleId, requirement.required)) rest
    | none => validateRequirementKeys
        (requirements.insert requirement.key (moduleId, requirement.required)) rest

/-- All configuration requirements. -/
def validateConfiguration : Except CompositionError Unit :=
  validateRequirementKeys ∅
    (contributed modules fun registration => registration.definition.configRequirements)

/-- The declarations of the declaratively owned slots. -/
def CapabilityContribution.declaration? : CapabilityContribution → Option CapabilityDeclaration
  | .declarative declaration => some declaration
  | .reactive _ => none

/-- The tasks in module order, the declarations in slot order. -/
def mergedDefinition (order : List Id) (slots : BTreeMap Id CapabilitySlot) : RunDefinition :=
  let declarations := (contributed modules fun registration =>
    registration.definition.capabilities.filterMap CapabilityContribution.declaration?).foldl
      (fun (declarations : BTreeMap Id CapabilityDeclaration) entry =>
        declarations.insert entry.2.id entry.2) ∅
  { tasks := order.flatMap fun moduleId => (modules[moduleId]?).elim [] fun registration =>
      registration.definition.tasks
    capabilities := slots.keys.filterMap fun capabilityId => declarations[capabilityId]? }

/-- The merged definition must be valid. -/
def mergeDefinition (order : List Id) (slots : BTreeMap Id CapabilitySlot) :
    Except CompositionError RunDefinition :=
  match (mergedDefinition modules order slots).validated with
  | .error source => .error (.invalidMergedDefinition source)
  | .ok _ => .ok (mergedDefinition modules order slots)

end Checks

namespace CompositionBuilder

variable {ν : Type}

/-- A builder without modules. -/
def new : CompositionBuilder ν := ⟨∅, by simp⟩

/-- Registers one module; a registered identity is refused. -/
def register (builder : CompositionBuilder ν) (registration : ModuleRegistration ν) :
    Except CompositionError (CompositionBuilder ν) :=
  if registration.definition.id ∈ builder.modules then
    .error (.duplicateModule registration.definition.id)
  else .ok ⟨builder.modules.insert registration.definition.id registration, by
    intro moduleId held found
    rw [lookup_insert] at found
    split at found
    · cases found
      assumption
    · exact builder.keyed moduleId held found⟩

/-- Validates the modules and plans their activation. -/
def build (builder : CompositionBuilder ν) : Except CompositionError (CompositionPlan ν) := do
  validateModuleDependencies builder.modules
  let order ← deterministicOrder builder.modules
  let slots ← validateCapabilitySlots builder.modules
  validateTaskContributions builder.modules
  validateModuleRequirements builder.modules slots
  let factories ← validateFactories builder.modules slots
  validatePlugins builder.modules slots
  validateConfiguration builder.modules
  let definition ← mergeDefinition builder.modules order slots
  .ok ⟨builder.modules, order, definition, factories, slots⟩

end CompositionBuilder

end Kernis
