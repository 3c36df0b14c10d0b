/-
**Composition modules.**

A module declares stable contributions (`ModuleDefinition`) and brings the process-local side of them
(`ModuleRegistration`): constructors for the slots it declares, plugins for the slots they publish,
and two hooks. What the hooks and the plugins do is left to the host.

* `CapabilityContribution` — a slot of a module and the one path on which it is owned.
* `CompositionError` — how planning, activation and the construction of the runtime fail.
-/

import Kernis.Capability.Fiber
import Kernis.Runtime.Start

namespace Kernis

open Std

/-! ### Declarations -/

/-- Stable configuration demand of one module. -/
structure ConfigRequirement where
  key : Id
  required : Bool
deriving DecidableEq

/-- Stable declaration of a slot that a plugin fiber publishes. -/
structure ReactiveCapabilityDeclaration where
  capabilityId : Id
  kind : Text
  definitionIdentity : DefinitionIdentity
deriving DecidableEq

/-- The single declared ownership path of one capability slot. -/
inductive CapabilityOwnership
  | declarative
  | reactive
deriving DecidableEq

/-- One module's contribution to a capability slot. -/
inductive CapabilityContribution
  | declarative (declaration : CapabilityDeclaration)
  | reactive (declaration : ReactiveCapabilityDeclaration)
deriving DecidableEq

namespace CapabilityContribution

/-- The declared capability identity. -/
def capabilityId : CapabilityContribution → Id
  | .declarative declaration => declaration.id
  | .reactive declaration => declaration.capabilityId

/-- The declared definition identity. -/
def definitionIdentity : CapabilityContribution → DefinitionIdentity
  | .declarative declaration => declaration.definitionIdentity
  | .reactive declaration => declaration.definitionIdentity

/-- The declared capability kind. -/
def kind : CapabilityContribution → Text
  | .declarative declaration => declaration.kind
  | .reactive declaration => declaration.kind

/-- The declared ownership path. -/
def ownership : CapabilityContribution → CapabilityOwnership
  | .declarative _ => .declarative
  | .reactive _ => .reactive

end CapabilityContribution

/-- Stable declaration of one composition module. -/
structure ModuleDefinition where
  id : Id
  dependencies : List Id
  tasks : List TaskDefinition
  capabilities : List CapabilityContribution
  configRequirements : List ConfigRequirement
deriving DecidableEq

/-! ### Registrations -/

/-- One factory for a declaratively owned slot. -/
structure FactoryContribution (ν : Type) where
  capabilityId : Id
  definitionIdentity : DefinitionIdentity
  factory : CapabilityFactory ν

/-- One plugin and the configuration of its fiber. -/
structure PluginContribution where
  plugin : PluginDefinition
  config : Text

/-- Process-local registration of one module. `onActivate` and `onDispose` say whether it has the
hook. -/
structure ModuleRegistration (ν : Type) where
  definition : ModuleDefinition
  factories : List (FactoryContribution ν)
  plugins : List PluginContribution
  onActivate : Bool
  onDispose : Bool

/-- Configuration values the host provides. -/
structure HostConfig where
  values : BTreeMap Id Text

/-- Whether the configuration provides a key. -/
def HostConfig.contains (config : HostConfig) (key : Id) : Bool := config.values.contains key

/-! ### Errors -/

/-- What a cleanup step releases. -/
inductive CleanupResource
  | disposeHook
  | fiber (pluginId : Id)
  | pluginRegistration (pluginId : Id)
deriving DecidableEq

/-- One cleanup step that failed. -/
structure RollbackFailure where
  moduleId : Id
  resource : CleanupResource
  reason : Text
deriving DecidableEq

/-- What a cleanup did: the modules without a failure, and the failures. -/
structure RollbackReport where
  cleaned : List Id
  failures : List RollbackFailure
deriving DecidableEq

/-- Why a requirement conflicts with the declared slots. -/
inductive CapabilityConflictReason
  | unownedRequirement
  | requiredOnReactiveSlot (moduleId : Id)
  | identityMismatch (required declared : DefinitionIdentity)
deriving DecidableEq

/-- Why a factory conflicts with the declared slots. -/
inductive FactoryConflictReason
  | undeclaredSlot
  | factoryOnReactiveSlot (moduleId : Id)
  | identityMismatch (declared : DefinitionIdentity)
  | duplicate (moduleId previousModuleId : Id)
  | missing
  | invalidDefinitionIdentity
deriving DecidableEq

/-- Why a plugin conflicts with the declared slots or another plugin. -/
inductive PluginConflictReason
  | duplicateRegistration (moduleId previousModuleId : Id)
  | slotAlreadyClaimed (moduleId previousModuleId : Id)
  | unownedPublication
  | staticSlotCollision (moduleId : Id)
  | definitionMismatch (detail : Text)
deriving DecidableEq

/-- A failed registration or removal of a plugin. -/
inductive RegistryError
  | duplicate (plugin : Id)
  | unknown (plugin : Id)
  | fiber (error : FiberError)
  | dispose (plugin : Id) (errors : List FiberError)
deriving DecidableEq

/-- Where the activation of a module failed, with the error that the source renders. -/
inductive ActivationStage
  | pluginRegistration (pluginId : Id) (reason : RegistryError)
  | fiberInstantiate (pluginId : Id) (reason : RegistryError)
  | fiberStart (pluginId : Id) (reason : FiberError)
  | activateHook (reason : Text)
deriving DecidableEq

/-- Which construction of the runtime failed. -/
inductive ConstructionStage
  | start
  | restore
deriving DecidableEq

/-- Typed composition failures. -/
inductive CompositionError
  | duplicateModule (moduleId : Id)
  | missingModuleDependency (moduleId dependencyId : Id)
  | moduleDependencyCycle (cycle : List Id)
  | duplicateTaskContribution (taskId moduleId previousModuleId : Id)
  | duplicateCapabilityOwnership (capabilityId moduleId previousModuleId : Id)
  | capabilityDefinitionConflict (capabilityId : Id) (reason : CapabilityConflictReason)
  | missingCapabilityPlugin (capabilityId moduleId : Id)
  | capabilityPluginConflict (pluginId : Id) (reason : PluginConflictReason)
  | configurationConflict (key moduleId previousModuleId : Id)
  | missingConfiguration (moduleId key : Id)
  | factoryConflict (capabilityId : Id) (definitionIdentity : DefinitionIdentity)
      (reason : FactoryConflictReason)
  | invalidMergedDefinition (source : DefinitionError)
  | activationFailed (moduleId : Id) (stage : ActivationStage)
  | reconciliationFailed (errors : List FiberError) (cleanupErrors : List (List EffectError))
  | runtimeConstructionFailed (stage : ConstructionStage) (source : RuntimeError)
deriving DecidableEq

end Kernis
