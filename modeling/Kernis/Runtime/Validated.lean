/-
**What validation checks.**

Each check of a definition, as the condition under which it passes:

* `uniqueBy_iff` — collecting under distinct identifiers.
* `validateTaskList_iff`, `validateCapabilities_iff` — declarations that stand on their own.
* `materialize_iff`, `materialize_ok` — every slot is declared under the identity it is required
  with, and the declarations with the implicit ones.
* `validated_iff` — all of them together.
-/

import Kernis.Lib.Fallible
import Kernis.Runtime.Canonical

namespace Kernis

open Std Fallible

/-! ### Collecting -/

section Unique

variable {α : Type} {key : α → Id} {duplicate : Id → DefinitionError}

theorem uniqueBy_ok {collected map : BTreeMap Id α} {history values : List α}
    (indexed : Indexes key history collected)
    (collects : uniqueBy key duplicate collected values = .ok map) :
    Indexes key (history ++ values) map := by
  induction values generalizing collected history with
  | nil =>
    cases collects
    rw [List.append_nil]
    exact indexed
  | cons value rest ih =>
    rw [uniqueBy] at collects
    split at collects
    · cases collects
    · have more := ih (indexed.push ‹_›) collects
      rw [List.append_assoc] at more
      exact more

theorem exists_uniqueBy {collected : BTreeMap Id α} {history values : List α}
    (indexed : Indexes key history collected) (distinct : ((history ++ values).map key).Nodup) :
    ∃ map, uniqueBy key duplicate collected values = .ok map := by
  induction values generalizing collected history with
  | nil => exact ⟨collected, rfl⟩
  | cons value rest ih =>
    have fresh : key value ∉ collected := by
      rw [indexed.mem_iff]
      rw [List.map_append, List.map_cons, List.nodup_append] at distinct
      exact fun member => distinct.2.2 _ member _ List.mem_cons_self rfl
    rw [uniqueBy, if_neg fresh]
    refine ih (indexed.push fresh) ?_
    rw [List.append_assoc]
    exact distinct

/-- **Values are collected exactly when their identifiers are distinct**, into their index. -/
theorem uniqueBy_iff {map : BTreeMap Id α} {values : List α} :
    uniqueBy key duplicate ∅ values = .ok map ↔ Indexes key values map := by
  refine ⟨uniqueBy_ok .empty, fun indexed => ?_⟩
  obtain ⟨other, collects⟩ : ∃ other, uniqueBy key duplicate ∅ values = .ok other :=
    exists_uniqueBy .empty indexed.unique
  rw [collects, (uniqueBy_ok .empty collects).eq_of_same_history indexed]

end Unique

/-! ### Declarations on their own -/

theorem validateIdentity_iff {identity : DefinitionIdentity} :
    validateIdentity identity = .ok () ↔ blank identity.text = false := by
  unfold validateIdentity
  cases blank identity.text <;> simp

theorem validateDependencies_iff {tasks : BTreeMap Id TaskDefinition} {taskId : Id}
    {seen : BTreeSet Id} {dependencies : List Id} :
    validateDependencies tasks taskId seen dependencies = .ok () ↔
      Unseen seen dependencies ∧ ∀ dependency ∈ dependencies, dependency ∈ tasks := by
  induction dependencies generalizing seen with
  | nil => simp [validateDependencies, Unseen]
  | cons dependency rest ih =>
    rw [validateDependencies, unseen_cons, List.forall_mem_cons]
    by_cases old : dependency ∈ seen
    · simp [old]
    · by_cases known : dependency ∈ tasks
      · simp only [old, known, not_true_eq_false, if_false, not_false_eq_true, true_and]
        exact ih
      · simp [old, known]

/-- Requirements with valid identities. -/
def Identified (requirements : List CapabilityRequirement) : Prop :=
  ∀ requirement ∈ requirements, blank requirement.definitionIdentity.text = false

theorem validateRequirements_iff {duplicate : Id → DefinitionError} {seen : BTreeSet Id}
    {requirements : List CapabilityRequirement} :
    validateRequirements duplicate seen requirements = .ok () ↔
      Unseen seen (requirements.map CapabilityRequirement.capabilityId) ∧
        Identified requirements := by
  induction requirements generalizing seen with
  | nil => simp [validateRequirements, Unseen, Identified]
  | cons requirement rest ih =>
    rw [validateRequirements, except_then_ok, validateIdentity_iff, List.map_cons, unseen_cons,
      Identified, List.forall_mem_cons]
    by_cases old : requirement.capabilityId ∈ seen
    · simp [old]
    · simp only [old, if_false, not_false_eq_true, true_and, ih]
      unfold Identified
      tauto

/-- A task that stands on its own among the tasks of its definition. -/
structure ValidTask (tasks : BTreeMap Id TaskDefinition) (task : TaskDefinition) : Prop where
  distinct : task.dependencies.Nodup
  known : ∀ dependency ∈ task.dependencies, dependency ∈ tasks
  slots : (task.requiredCapabilities.map CapabilityRequirement.capabilityId).Nodup
  identified : Identified task.requiredCapabilities

/-- The operation of a task. -/
def TaskDefinition.operation (task : TaskDefinition) : Option OperationId :=
  task.effect.map EffectSpec.operationId

theorem validateTaskList_iff {tasks : BTreeMap Id TaskDefinition} {operations : BTreeSet OperationId}
    {list : List TaskDefinition} :
    validateTaskList tasks operations list = .ok () ↔
      (∀ task ∈ list, ValidTask tasks task) ∧
        Unseen operations (list.filterMap TaskDefinition.operation) := by
  induction list generalizing operations with
  | nil => simp [validateTaskList, Unseen]
  | cons task rest ih =>
    have valid : ValidTask tasks task ↔
        (Unseen ∅ task.dependencies ∧ ∀ dependency ∈ task.dependencies, dependency ∈ tasks) ∧
          Unseen ∅ (task.requiredCapabilities.map CapabilityRequirement.capabilityId) ∧
            Identified task.requiredCapabilities := by
      rw [unseen_empty, unseen_empty]
      exact ⟨fun valid => ⟨⟨valid.distinct, valid.known⟩, valid.slots, valid.identified⟩,
        fun parts => ⟨parts.1.1, parts.1.2, parts.2.1, parts.2.2⟩⟩
    rw [validateTaskList, except_then_ok, except_then_ok, validateDependencies_iff,
      validateRequirements_iff, List.forall_mem_cons, valid, List.filterMap_cons]
    cases found : task.effect with
    | none =>
      simp only [TaskDefinition.operation, found, Option.map_none, ih]
      tauto
    | some effect =>
      simp only [TaskDefinition.operation, found, Option.map_some, unseen_cons]
      by_cases old : effect.operationId ∈ operations
      · simp [old]
      · simp only [old, if_false, ih, not_false_eq_true, true_and, TaskDefinition.operation]
        tauto

/-- A capability that stands on its own. -/
structure ValidCapability (capability : CapabilityDeclaration) : Prop where
  identity : blank capability.definitionIdentity.text = false
  slots : (capability.dependencies.map CapabilityRequirement.capabilityId).Nodup
  identified : Identified capability.dependencies

theorem validateCapabilities_iff {capabilities : BTreeMap Id CapabilityDeclaration} :
    validateCapabilities capabilities = .ok () ↔
      ∀ capability ∈ valuesOf capabilities, ValidCapability capability := by
  rw [validateCapabilities, forM_ok]
  refine forall₂_congr fun capability _ => ?_
  rw [except_then_ok, validateIdentity_iff, validateRequirements_iff, unseen_empty]
  exact ⟨fun ⟨identity, slots, identified⟩ => ⟨identity, slots, identified⟩,
    fun ⟨identity, slots, identified⟩ => ⟨identity, slots, identified⟩⟩

/-! ### Implicit declarations -/

/-- The declaration of a slot, explicit or by the first requirement of it. -/
def declarationOf (capabilities : BTreeMap Id CapabilityDeclaration)
    (requirements : List CapabilityRequirement) (capabilityId : Id) : Option CapabilityDeclaration :=
  (capabilities[capabilityId]?).or ((requirements.find? fun requirement =>
    requirement.capabilityId = capabilityId).map CapabilityDeclaration.implicit)

/-- A requirement whose slot is declared under the identity it is required with. -/
def Declares (declared : Id → Option CapabilityDeclaration) (requirement : CapabilityRequirement) :
    Prop := ∃ capability, declared requirement.capabilityId = some capability ∧
  capability.definitionIdentity = requirement.definitionIdentity

/-- The declarations with one requirement declared. -/
def declare (capabilities : BTreeMap Id CapabilityDeclaration)
    (requirement : CapabilityRequirement) : BTreeMap Id CapabilityDeclaration :=
  if requirement.capabilityId ∈ capabilities then capabilities
  else capabilities.insert requirement.capabilityId (.implicit requirement)

theorem declarationOf_cons (capabilities : BTreeMap Id CapabilityDeclaration)
    (requirement : CapabilityRequirement) (rest : List CapabilityRequirement) (capabilityId : Id) :
    declarationOf capabilities (requirement :: rest) capabilityId =
      declarationOf (declare capabilities requirement) rest capabilityId := by
  unfold declarationOf declare
  rw [List.find?_cons]
  by_cases known : requirement.capabilityId ∈ capabilities
  · rw [if_pos known]
    by_cases same : requirement.capabilityId = capabilityId
    · subst same
      obtain ⟨capability, found⟩ := exists_lookup_of_mem known
      simp [found]
    · simp [same]
  · rw [if_neg known, lookup_insert]
    by_cases same : requirement.capabilityId = capabilityId
    · subst same
      simp [lookup_none_of_not_mem known]
    · simp [same]

/-- A declared slot, before and after the rest is declared. -/
theorem declares_declare (capabilities : BTreeMap Id CapabilityDeclaration)
    (requirement : CapabilityRequirement) (rest : List CapabilityRequirement) :
    Declares (declarationOf capabilities (requirement :: rest)) requirement ↔
      ∀ capability, capabilities[requirement.capabilityId]? = some capability →
        capability.definitionIdentity = requirement.definitionIdentity := by
  unfold Declares declarationOf
  cases found : capabilities[requirement.capabilityId]? with
  | none => simp [CapabilityDeclaration.implicit]
  | some capability => simp

theorem materializeRequirements_cons (capabilities : BTreeMap Id CapabilityDeclaration)
    (requirement : CapabilityRequirement) (rest : List CapabilityRequirement)
    (result : BTreeMap Id CapabilityDeclaration) :
    materializeRequirements capabilities (requirement :: rest) = .ok result ↔
      Declares (declarationOf capabilities (requirement :: rest)) requirement ∧
        materializeRequirements (declare capabilities requirement) rest = .ok result := by
  rw [declares_declare, materializeRequirements, declare]
  cases found : capabilities[requirement.capabilityId]? with
  | none => simp [not_mem_of_lookup_none found]
  | some capability =>
    simp only [if_pos (mem_of_lookup found), Option.some.injEq, forall_eq']
    by_cases agrees : capability.definitionIdentity = requirement.definitionIdentity
    · simp [agrees]
    · simp [agrees]

/-- **When requirements can be materialized**: every slot is declared under the identity it is
required with. -/
theorem materialize_iff {capabilities : BTreeMap Id CapabilityDeclaration}
    {requirements : List CapabilityRequirement} :
    (∃ result, materializeRequirements capabilities requirements = .ok result) ↔
      ∀ requirement ∈ requirements,
        Declares (declarationOf capabilities requirements) requirement := by
  induction requirements generalizing capabilities with
  | nil => simp [materializeRequirements]
  | cons requirement rest ih =>
    have same : declarationOf capabilities (requirement :: rest) =
        declarationOf (declare capabilities requirement) rest :=
      funext (declarationOf_cons capabilities requirement rest)
    simp only [materializeRequirements_cons, exists_and_left, List.forall_mem_cons]
    rw [ih, same]

/-- **The declarations with the implicit ones.** -/
theorem materialize_ok {capabilities result : BTreeMap Id CapabilityDeclaration}
    {requirements : List CapabilityRequirement}
    (materializes : materializeRequirements capabilities requirements = .ok result)
    (capabilityId : Id) :
    result[capabilityId]? = declarationOf capabilities requirements capabilityId := by
  induction requirements generalizing capabilities with
  | nil =>
    cases materializes
    simp [declarationOf]
  | cons requirement rest ih =>
    rw [declarationOf_cons]
    exact ih ((materializeRequirements_cons _ _ _ _).mp materializes).2

/-! ### The whole validation -/

/-- The requirements of a definition, in the order of materialization. -/
def requirementsOf (tasks : BTreeMap Id TaskDefinition)
    (declared : BTreeMap Id CapabilityDeclaration) : List CapabilityRequirement :=
  (valuesOf tasks).flatMap TaskDefinition.requiredCapabilities ++
    (valuesOf declared).flatMap CapabilityDeclaration.dependencies

/-- **What a validated definition is.** -/
structure Validates (definition : RunDefinition) (declared : BTreeMap Id CapabilityDeclaration)
    (validated : ValidatedRunDefinition) : Prop where
  tasks : Indexes TaskDefinition.id definition.tasks validated.tasks
  explicit : Indexes CapabilityDeclaration.id definition.capabilities declared
  validTasks : ∀ task ∈ valuesOf validated.tasks, ValidTask validated.tasks task
  operations : ((valuesOf validated.tasks).filterMap TaskDefinition.operation).Nodup
  validDeclared : ∀ capability ∈ valuesOf declared, ValidCapability capability
  materialized : materializeRequirements declared (requirementsOf validated.tasks declared) =
    .ok validated.capabilities
  validCapabilities : ∀ capability ∈ valuesOf validated.capabilities, ValidCapability capability
  graph : validateCapabilityGraph validated.capabilities = .ok ()
  workflow : validateWorkflow validated.tasks = .ok ()
  identity : validated.identity.text.val = canonicalText validated.tasks validated.capabilities

theorem canonicalIdentity_ok {tasks : BTreeMap Id TaskDefinition}
    {capabilities : BTreeMap Id CapabilityDeclaration} {identity : WorkflowReplayIdentity} :
    canonicalIdentity tasks capabilities = .ok identity ↔
      identity.text.val = canonicalText tasks capabilities := by
  have visible : blank (canonicalText tasks capabilities) = false := by
    rw [canonicalText_eq]
    exact blank_append_of_left (by decide) _
  have made : WorkflowReplayIdentity.new (canonicalText tasks capabilities) =
      .ok ⟨⟨_, visible⟩⟩ := dif_pos visible
  rw [canonicalIdentity, made]
  obtain ⟨⟨text, _⟩⟩ := identity
  simp only [Except.ok.injEq, WorkflowReplayIdentity.mk.injEq, Subtype.mk.injEq]
  exact eq_comm

/-- **Validation succeeds exactly with what it checks.** -/
theorem validated_iff {definition : RunDefinition} {validated : ValidatedRunDefinition} :
    definition.validated = .ok validated ↔ ∃ declared, Validates definition declared validated := by
  rw [RunDefinition.validated]
  constructor
  · simp only [except_bind_ok]
    rintro ⟨tasks, collected, declared, explicit, _, valid, _, validDeclared, capabilities,
      materialized, _, validCapabilities, _, graph, _, workflow, identity, text, same⟩
    cases same
    obtain ⟨valid, operations⟩ := validateTaskList_iff.mp valid
    exact ⟨declared, uniqueBy_iff.mp collected, uniqueBy_iff.mp explicit, valid,
      unseen_empty.mp operations, validateCapabilities_iff.mp validDeclared, materialized,
      validateCapabilities_iff.mp validCapabilities, graph, workflow, canonicalIdentity_ok.mp text⟩
  · rintro ⟨declared, checks⟩
    rw [uniqueTasks, uniqueBy_iff.mpr checks.tasks, uniqueCapabilities,
      uniqueBy_iff.mpr checks.explicit]
    refine except_bind_ok.mpr ⟨_, rfl, except_bind_ok.mpr ⟨_, rfl, except_then_ok.mpr ⟨?_, ?_⟩⟩⟩
    · exact validateTaskList_iff.mpr ⟨checks.validTasks, unseen_empty.mpr checks.operations⟩
    · refine except_then_ok.mpr ⟨validateCapabilities_iff.mpr checks.validDeclared, ?_⟩
      refine except_bind_ok.mpr ⟨_, checks.materialized, ?_⟩
      refine except_then_ok.mpr ⟨validateCapabilities_iff.mpr checks.validCapabilities, ?_⟩
      refine except_then_ok.mpr ⟨checks.graph, except_then_ok.mpr ⟨checks.workflow, ?_⟩⟩
      exact except_bind_ok.mpr ⟨_, canonicalIdentity_ok.mpr checks.identity, rfl⟩

/-- After validation every requirement is declared under the identity it is required with. -/
theorem Validates.required_declared {definition : RunDefinition}
    {declared : BTreeMap Id CapabilityDeclaration} {validated : ValidatedRunDefinition}
    (checks : Validates definition declared validated) {requirement : CapabilityRequirement}
    (required : requirement ∈ requirementsOf validated.tasks declared) :
    ∃ capability, validated.capabilities[requirement.capabilityId]? = some capability ∧
      capability.definitionIdentity = requirement.definitionIdentity := by
  obtain ⟨capability, found, same⟩ :=
    materialize_iff.mp ⟨_, checks.materialized⟩ requirement required
  exact ⟨capability, (materialize_ok checks.materialized _).trans found, same⟩

end Kernis
