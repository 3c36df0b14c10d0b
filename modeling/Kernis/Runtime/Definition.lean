/-
**Declarative run definitions, their validation and canonical identity, and capability factories.**

* `RunDefinition.validated` — duplicate and reference checks, implicit capability declarations, both
  topologies, and the versioned canonical identity, in the order of the source.
* `canonicalIdentity` — the `kernis-run-definition-v2` text: structural tokens begin with `#`, counts
  stand in brackets, and every data token carries its byte length.
* `FactoryRegistry` — process-local constructors by capability and definition identity.
-/

import Kernis.Capability.Scope
import Kernis.Recovery.Durable
import Kernis.Workflow.Graph

namespace Kernis

open Std

/-- Canonical format prefix for declarative run definitions. -/
def runDefinitionFormat : Text := "kernis-run-definition-v2".toList

/-- Historical format tag, refused on restore. -/
def legacyRunDefinitionFormatV1 : Text := "kernis-run-definition-v1".toList

/-- Stable identity of one capability definition understood by a factory. -/
structure DefinitionIdentity where
  text : Text
deriving DecidableEq

/-- One stable capability requirement made by a task or capability. -/
structure CapabilityRequirement where
  capabilityId : Id
  definitionIdentity : DefinitionIdentity
deriving DecidableEq

/-- Stable declaration of a capability that can be built during reconstruction. -/
structure CapabilityDeclaration where
  id : Id
  kind : Text
  definitionIdentity : DefinitionIdentity
  dependencies : List CapabilityRequirement
deriving DecidableEq

/-- The declaration of a capability that is only required, with the default kind. -/
def CapabilityDeclaration.implicit (requirement : CapabilityRequirement) : CapabilityDeclaration :=
  ⟨requirement.capabilityId, "capability".toList, requirement.definitionIdentity, []⟩

/-- Runtime configuration for one logical external effect. -/
structure EffectSpec where
  operationId : OperationId
  semantics : EffectSemantics
deriving DecidableEq

/-- Stable declaration of one workflow task and its runtime inputs. -/
structure TaskDefinition where
  id : Id
  label : Text
  dependencies : List Id
  requiredCapabilities : List CapabilityRequirement
  effect : Option EffectSpec
deriving DecidableEq

/-- Stable declarative input from which a fresh runtime can be constructed. -/
structure RunDefinition where
  tasks : List TaskDefinition
  capabilities : List CapabilityDeclaration
deriving DecidableEq

/-- Typed rejection of a declarative definition before runtime execution. -/
inductive DefinitionError
  | duplicateTask (taskId : Id)
  | duplicateCapability (capabilityId : Id)
  | duplicateTaskDependency (taskId dependencyId : Id)
  | duplicateCapabilityDependency (capabilityId dependencyId : Id)
  | duplicateCapabilityRequirement (taskId capabilityId : Id)
  | unknownTask (taskId : Id)
  | capabilityIdentityMismatch (capabilityId : Id) (expected actual : DefinitionIdentity)
  | duplicateOperation (operationId : OperationId)
  | workflow (error : WorkflowGraphError)
  | capabilityGraph (error : CapabilityGraphError)
  | invalidDefinition (reason : Text)
deriving DecidableEq

/-- A definition after duplicate checks and canonical identity validation. -/
structure ValidatedRunDefinition where
  tasks : BTreeMap Id TaskDefinition
  capabilities : BTreeMap Id CapabilityDeclaration
  identity : WorkflowReplayIdentity
deriving DecidableEq

/-! ### Checks -/

/-- Collects values under their identifiers; a repeated identifier is refused. -/
def uniqueBy {α : Type} (key : α → Id) (duplicate : Id → DefinitionError) :
    BTreeMap Id α → List α → Except DefinitionError (BTreeMap Id α)
  | collected, [] => .ok collected
  | collected, value :: rest =>
    if key value ∈ collected then .error (duplicate (key value))
    else uniqueBy key duplicate (collected.insert (key value) value) rest

/-- Tasks by identity. -/
def uniqueTasks (tasks : List TaskDefinition) :
    Except DefinitionError (BTreeMap Id TaskDefinition) :=
  uniqueBy TaskDefinition.id .duplicateTask ∅ tasks

/-- Explicit capability declarations by identity. -/
def uniqueCapabilities (declarations : List CapabilityDeclaration) :
    Except DefinitionError (BTreeMap Id CapabilityDeclaration) :=
  uniqueBy CapabilityDeclaration.id .duplicateCapability ∅ declarations

/-- A definition identity must not be blank. -/
def validateIdentity (identity : DefinitionIdentity) : Except DefinitionError Unit :=
  if blank identity.text then
    .error (.invalidDefinition "definition identity must not be empty".toList)
  else .ok ()

/-- The prerequisites of one task: none repeated, all declared. -/
def validateDependencies (tasks : BTreeMap Id TaskDefinition) (taskId : Id) :
    BTreeSet Id → List Id → Except DefinitionError Unit
  | _, [] => .ok ()
  | seen, dependencyId :: rest =>
    if dependencyId ∈ seen then .error (.duplicateTaskDependency taskId dependencyId)
    else if dependencyId ∉ tasks then .error (.unknownTask dependencyId)
    else validateDependencies tasks taskId (seen.insert dependencyId) rest

/-- A list of requirements: every identity is valid, no slot is repeated. -/
def validateRequirements (duplicate : Id → DefinitionError) :
    BTreeSet Id → List CapabilityRequirement → Except DefinitionError Unit
  | _, [] => .ok ()
  | seen, requirement :: rest => do
    validateIdentity requirement.definitionIdentity
    if requirement.capabilityId ∈ seen then .error (duplicate requirement.capabilityId)
    else validateRequirements duplicate (seen.insert requirement.capabilityId) rest

/-- The tasks in order, with the operations claimed so far. -/
def validateTaskList (tasks : BTreeMap Id TaskDefinition) :
    BTreeSet OperationId → List TaskDefinition → Except DefinitionError Unit
  | _, [] => .ok ()
  | operations, task :: rest => do
    validateDependencies tasks task.id ∅ task.dependencies
    validateRequirements (.duplicateCapabilityRequirement task.id) ∅ task.requiredCapabilities
    match task.effect with
    | none => validateTaskList tasks operations rest
    | some effect =>
      if effect.operationId ∈ operations then .error (.duplicateOperation effect.operationId)
      else validateTaskList tasks (operations.insert effect.operationId) rest

/-- Checks every task declaration. -/
def validateTasks (tasks : BTreeMap Id TaskDefinition) : Except DefinitionError Unit :=
  validateTaskList tasks ∅ (valuesOf tasks)

/-- Checks every capability declaration. -/
def validateCapabilities (capabilities : BTreeMap Id CapabilityDeclaration) :
    Except DefinitionError Unit :=
  (valuesOf capabilities).forM fun capability => do
    validateIdentity capability.definitionIdentity
    validateRequirements (.duplicateCapabilityDependency capability.id) ∅ capability.dependencies

/-- Declares every capability that is required but not declared; a requirement of a declared one
must name its identity. -/
def materializeRequirements (capabilities : BTreeMap Id CapabilityDeclaration) :
    List CapabilityRequirement → Except DefinitionError (BTreeMap Id CapabilityDeclaration)
  | [] => .ok capabilities
  | requirement :: rest =>
    match capabilities[requirement.capabilityId]? with
    | some capability =>
      if capability.definitionIdentity ≠ requirement.definitionIdentity then
        .error (.capabilityIdentityMismatch requirement.capabilityId
          capability.definitionIdentity requirement.definitionIdentity)
      else materializeRequirements capabilities rest
    | none => materializeRequirements
        (capabilities.insert requirement.capabilityId (.implicit requirement)) rest

/-- The requirements of all tasks, then those of all declared capabilities. -/
def materializeImplicitCapabilities (tasks : BTreeMap Id TaskDefinition)
    (capabilities : BTreeMap Id CapabilityDeclaration) :
    Except DefinitionError (BTreeMap Id CapabilityDeclaration) :=
  materializeRequirements capabilities
    ((valuesOf tasks).flatMap TaskDefinition.requiredCapabilities ++
      (valuesOf capabilities).flatMap CapabilityDeclaration.dependencies)

/-- The topology batch of a definition: every task, then every edge. -/
def workflowMutations (tasks : BTreeMap Id TaskDefinition) : List WorkflowMutation :=
  (valuesOf tasks).map (fun task => .addTask ⟨task.id, task.label⟩) ++
    (valuesOf tasks).flatMap fun task => task.dependencies.map (.addDependency task.id)

/-- The workflow authority must accept the topology. -/
def validateWorkflow (tasks : BTreeMap Id TaskDefinition) : Except DefinitionError Unit :=
  if workflowMutations tasks = [] then .ok ()
  else
    match WorkflowGraph.empty.applyBatch 0 (workflowMutations tasks) with
    | .error error => .error (.workflow error)
    | .ok _ => .ok ()

/-- The capability definition of a declaration. -/
def CapabilityDeclaration.definition (capability : CapabilityDeclaration) : CapabilityDefinition :=
  capability.dependencies.foldl (fun definition dependency =>
      definition.addDependency dependency.capabilityId)
    ((CapabilityDefinition.new capability.id capability.kind).withReplayIdentity
      capability.definitionIdentity.text)

/-- The capability graph of a definition. -/
def capabilityGraph (capabilities : BTreeMap Id CapabilityDeclaration) : CapabilityGraph :=
  .fromDefinitions ((valuesOf capabilities).map CapabilityDeclaration.definition)

/-- The capability authority must resolve the topology. -/
def validateCapabilityGraph (capabilities : BTreeMap Id CapabilityDeclaration) :
    Except DefinitionError Unit :=
  match (capabilityGraph capabilities).resolve with
  | .error error => .error (.capabilityGraph error)
  | .ok _ => .ok ()

/-! ### The canonical identity -/

/-- Appends one structural tag. -/
def pushTag (canonical : Text) (tag : String) : Text := canonical ++ '#' :: tag.toList

/-- Appends the element count of one collection. -/
def pushCount (canonical : Text) (count : Nat) : Text := canonical ++ '[' :: digits count ++ [']']

/-- Appends one length-delimited data token. -/
def pushValue (canonical : Text) (value : Text) : Text :=
  canonical ++ '%' :: digits (utf8Length value) ++ ':' :: value

/-- Appends one tagged, counted list of requirements ordered by capability. -/
def pushRequirements (canonical : Text) (requirements : List CapabilityRequirement) : Text :=
  let sorted := requirements.mergeSort fun left right =>
    (compare left.capabilityId right.capabilityId).isLE
  let opened := pushCount (pushTag canonical "requires") sorted.length
  let listed := sorted.foldl (fun canonical requirement =>
    pushValue (pushValue canonical requirement.capabilityId.asStr)
      requirement.definitionIdentity.text) opened
  pushTag listed "end"

/-- Appends one capability declaration. -/
def pushCapability (canonical : Text) (capability : CapabilityDeclaration) : Text :=
  let tagged := pushTag canonical "capability"
  let named := pushValue (pushValue (pushValue tagged capability.id.asStr) capability.kind)
    capability.definitionIdentity.text
  pushRequirements named capability.dependencies

/-- Appends the effect of a task. -/
def pushEffect (canonical : Text) : Option EffectSpec → Text
  | none => pushTag (pushTag canonical "effect") "absent"
  | some effect =>
    let named := pushValue (pushTag (pushTag canonical "effect") "present")
      effect.operationId.id.asStr
    match effect.semantics with
    | .idempotent => pushTag named "idempotent"
    | .nonIdempotent => pushTag named "non_idempotent"

/-- Appends one task declaration; its label is no replay semantics. -/
def pushTask (canonical : Text) (task : TaskDefinition) : Text :=
  let named := pushValue (pushTag canonical "task") task.id.asStr
  let sorted := task.dependencies.mergeSort fun left right => (compare left right).isLE
  let opened := pushCount (pushTag named "depends") sorted.length
  let depends := pushTag (sorted.foldl (fun canonical dependency =>
    pushValue canonical dependency.asStr) opened) "end"
  pushEffect (pushRequirements depends task.requiredCapabilities) task.effect

/-- The canonical text of a definition. -/
def canonicalText (tasks : BTreeMap Id TaskDefinition)
    (capabilities : BTreeMap Id CapabilityDeclaration) : Text :=
  let opened := pushCount (pushTag runDefinitionFormat "capabilities") capabilities.size
  let declared := pushTag ((valuesOf capabilities).foldl pushCapability opened) "end"
  let counted := pushCount (pushTag declared "tasks") tasks.size
  pushTag ((valuesOf tasks).foldl pushTask counted) "end"

/-- The versioned canonical replay identity. -/
def canonicalIdentity (tasks : BTreeMap Id TaskDefinition)
    (capabilities : BTreeMap Id CapabilityDeclaration) :
    Except DefinitionError WorkflowReplayIdentity :=
  match WorkflowReplayIdentity.new (canonicalText tasks capabilities) with
  | .error _ => .error (.invalidDefinition "workflow replay identity is empty".toList)
  | .ok identity => .ok identity

/-- Validates all logical identities, topology, and stable requirements. -/
def RunDefinition.validated (definition : RunDefinition) :
    Except DefinitionError ValidatedRunDefinition := do
  let tasks ← uniqueTasks definition.tasks
  let declared ← uniqueCapabilities definition.capabilities
  validateTasks tasks
  validateCapabilities declared
  let capabilities ← materializeImplicitCapabilities tasks declared
  validateCapabilities capabilities
  validateCapabilityGraph capabilities
  validateWorkflow tasks
  let identity ← canonicalIdentity tasks capabilities
  .ok ⟨tasks, capabilities, identity⟩

/-- Computes the versioned canonical replay identity. -/
def RunDefinition.identity (definition : RunDefinition) :
    Except DefinitionError WorkflowReplayIdentity :=
  definition.validated.map ValidatedRunDefinition.identity

/-! ### Factories -/

/-- What a factory is registered under. -/
structure FactoryKey where
  capabilityId : Id
  definitionIdentity : DefinitionIdentity
deriving DecidableEq

instance : Ord FactoryKey := ⟨compareLex (compareOn FactoryKey.capabilityId)
  (compareOn fun key => key.definitionIdentity.text)⟩

instance : TransOrd FactoryKey := inferInstanceAs (TransCmp (compareLex
  (compareOn FactoryKey.capabilityId) (compareOn fun key => key.definitionIdentity.text)))

instance : LawfulEqOrd FactoryKey where
  eq_of_compare := by
    rintro ⟨capability, ⟨identity⟩⟩ ⟨otherCapability, ⟨otherIdentity⟩⟩ same
    obtain ⟨sameCapability, sameIdentity⟩ := compareLex_eq_eq.mp same
    cases LawfulEqOrd.eq_of_compare sameCapability
    cases LawfulEqOrd.eq_of_compare sameIdentity
    rfl

/-- A process-local constructor. -/
abbrev CapabilityFactory (ν : Type) := ResolvedDependencies ν → Except Text ν

/-- Process-local mapping from stable capability identities to constructors. -/
structure FactoryRegistry (ν : Type) where
  factories : BTreeMap FactoryKey (CapabilityFactory ν)

/-- Typed failure while resolving a process-local capability factory. -/
inductive FactoryResolutionError
  | duplicateDefinitionIdentity (capabilityId : Id) (definitionIdentity : DefinitionIdentity)
  | invalidDefinitionIdentity (identity : Text)
  | missingFactory (capabilityId : Id) (definitionIdentity : DefinitionIdentity)
  | constructionFailed (capabilityId : Id) (definitionIdentity : DefinitionIdentity) (reason : Text)
deriving DecidableEq

namespace FactoryRegistry

variable {ν : Type}

/-- An empty registry. -/
def new : FactoryRegistry ν := ⟨∅⟩

/-- Registers one constructor for a capability and stable definition. -/
def register (registry : FactoryRegistry ν) (capabilityId : Id)
    (definitionIdentity : DefinitionIdentity) (factory : CapabilityFactory ν) :
    Except FactoryResolutionError (FactoryRegistry ν) :=
  if blank definitionIdentity.text then
    .error (.invalidDefinitionIdentity definitionIdentity.text)
  else if (⟨capabilityId, definitionIdentity⟩ : FactoryKey) ∈ registry.factories then
    .error (.duplicateDefinitionIdentity capabilityId definitionIdentity)
  else .ok ⟨registry.factories.insert ⟨capabilityId, definitionIdentity⟩ factory⟩

/-- The constructor registered for one requirement. -/
def factoryFor (registry : FactoryRegistry ν) (capabilityId : Id)
    (definitionIdentity : DefinitionIdentity) : Option (CapabilityFactory ν) :=
  registry.factories[(⟨capabilityId, definitionIdentity⟩ : FactoryKey)]?

/-- Every declared capability has a registered constructor. -/
def validate (registry : FactoryRegistry ν) (definition : ValidatedRunDefinition) :
    Except FactoryResolutionError Unit :=
  (valuesOf definition.capabilities).forM fun capability =>
    if (⟨capability.id, capability.definitionIdentity⟩ : FactoryKey) ∈ registry.factories then
      .ok ()
    else .error (.missingFactory capability.id capability.definitionIdentity)

end FactoryRegistry

end Kernis
