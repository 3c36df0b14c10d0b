/-
**Definitions with their lists in another order.**

* `RunDefinition.Reordered` — tasks, capabilities, dependencies and requirements in another order.
* `materialize_of_reordered`, `validateWorkflow_of_reordered` — the two checks that scan lists in
  order do not depend on it.
* `canonical_identity` — the identity is the normal form, and neither it nor the success of validation
  depends on the order.
-/

import Mathlib.Data.List.Perm.Basic
import Mathlib.Data.List.Forall2
import Kernis.Workflow.Edges
import Kernis.Runtime.Identity

namespace Kernis

open Std Fallible

/-- A task with its lists in another order. -/
structure TaskDefinition.Reordered (task other : TaskDefinition) : Prop where
  id : task.id = other.id
  label : task.label = other.label
  dependencies : task.dependencies.Perm other.dependencies
  requiredCapabilities : task.requiredCapabilities.Perm other.requiredCapabilities
  effect : task.effect = other.effect

/-- A capability with its dependencies in another order. -/
structure CapabilityDeclaration.Reordered (capability other : CapabilityDeclaration) : Prop where
  id : capability.id = other.id
  kind : capability.kind = other.kind
  definitionIdentity : capability.definitionIdentity = other.definitionIdentity
  dependencies : capability.dependencies.Perm other.dependencies

/-- **A definition with all its lists in another order.** -/
structure RunDefinition.Reordered (definition other : RunDefinition) : Prop where
  tasks : ∃ middle, definition.tasks.Perm middle ∧
    List.Forall₂ TaskDefinition.Reordered middle other.tasks
  capabilities : ∃ middle, definition.capabilities.Perm middle ∧
    List.Forall₂ CapabilityDeclaration.Reordered middle other.capabilities

theorem CapabilityDeclaration.Reordered.refl (capability : CapabilityDeclaration) :
    capability.Reordered capability := ⟨rfl, rfl, rfl, .refl _⟩

theorem requirement_ext {requirement other : CapabilityRequirement}
    (slot : requirement.capabilityId = other.capabilityId)
    (identity : requirement.definitionIdentity = other.definitionIdentity) : requirement = other := by
  cases requirement
  cases other
  cases slot
  cases identity
  rfl

theorem TaskDefinition.Reordered.symm {task other : TaskDefinition} (same : task.Reordered other) :
    other.Reordered task :=
  ⟨same.id.symm, same.label.symm, same.dependencies.symm, same.requiredCapabilities.symm,
    same.effect.symm⟩

theorem CapabilityDeclaration.Reordered.symm {capability other : CapabilityDeclaration}
    (same : capability.Reordered other) : other.Reordered capability :=
  ⟨same.id.symm, same.kind.symm, same.definitionIdentity.symm, same.dependencies.symm⟩

theorem reordered_symm {α : Type} {Related : α → α → Prop} (symm : ∀ one two, Related one two →
      Related two one) {first second : List α}
    (same : ∃ middle, first.Perm middle ∧ List.Forall₂ Related middle second) :
    ∃ middle, second.Perm middle ∧ List.Forall₂ Related middle first := by
  obtain ⟨middle, moved, related⟩ := same
  obtain ⟨other, swapped, back⟩ := List.perm_comp_forall₂ moved related
  exact ⟨other, back.symm, (swapped.imp fun one two => symm one two).flip⟩

theorem RunDefinition.Reordered.symm {definition other : RunDefinition}
    (same : definition.Reordered other) : other.Reordered definition :=
  ⟨reordered_symm (fun _ _ => TaskDefinition.Reordered.symm) same.tasks,
    reordered_symm (fun _ _ => CapabilityDeclaration.Reordered.symm) same.capabilities⟩

/-- The index of a list in another order, of related values. -/
theorem exists_alike {α : Type} {key : α → Id} {Related : α → α → Prop}
    (keys : ∀ one two, Related one two → key one = key two) {first second : List α}
    {map : BTreeMap Id α} (indexed : Indexes key first map)
    (same : ∃ middle, first.Perm middle ∧ List.Forall₂ Related middle second) :
    ∃ other, Indexes key second other ∧ Alike Related map other := by
  obtain ⟨middle, moved, related⟩ := same
  have again : Indexes key middle map :=
    ⟨(moved.map key).nodup_iff.mp indexed.unique, fun at_ value => by
      rw [indexed.agrees, moved.mem_iff]⟩
  have listed : middle.map key = second.map key := map_eq_of_forall₂ (related.imp keys)
  obtain ⟨other, collects⟩ : ∃ other, uniqueBy key .duplicateTask ∅ second = .ok other :=
    exists_uniqueBy .empty (by rw [List.nil_append, ← listed]; exact again.unique)
  have found := uniqueBy_iff.mp collects
  exact ⟨other, found, .of_indexes again found keys related⟩

/-- Related lists, joined. -/
theorem flatMap_perm {α β : Type} {project projectOther : α → List β} {first second : List α}
    (same : List.Forall₂ (fun one two => (project one).Perm (projectOther two)) first second) :
    (first.flatMap project).Perm (second.flatMap projectOther) := by
  induction same with
  | nil => exact .nil
  | cons one _ ih =>
    rw [List.flatMap_cons, List.flatMap_cons]
    exact one.append ih

section Reordered

variable {definition other : RunDefinition} {declared declaredOther : BTreeMap Id CapabilityDeclaration}
  {validated validatedOther : ValidatedRunDefinition}

theorem validTask_of_reordered {tasks others : BTreeMap Id TaskDefinition}
    (alike : Alike TaskDefinition.Reordered tasks others) {task held : TaskDefinition}
    (same : task.Reordered held) (valid : ValidTask tasks task) : ValidTask others held where
  distinct := same.dependencies.nodup_iff.mp valid.distinct
  known dependency member := (alike.mem_iff dependency).mp
    (valid.known dependency (same.dependencies.mem_iff.mpr member))
  slots := (same.requiredCapabilities.map _).nodup_iff.mp valid.slots
  identified requirement member :=
    valid.identified requirement (same.requiredCapabilities.mem_iff.mpr member)

theorem validCapability_of_reordered {capability held : CapabilityDeclaration}
    (same : capability.Reordered held) (valid : ValidCapability capability) :
    ValidCapability held where
  identity := by
    rw [← same.definitionIdentity]
    exact valid.identity
  slots := (same.dependencies.map _).nodup_iff.mp valid.slots
  identified requirement member :=
    valid.identified requirement (same.dependencies.mem_iff.mpr member)

theorem canonical_of_reordered {tasks : BTreeMap Id TaskDefinition} {task held : TaskDefinition}
    (same : task.Reordered held) (valid : ValidTask tasks task) : task.canonical = held.canonical := by
  have distinct : (task.dependencies.map fun dependency => dependency).Nodup := by
    rw [List.map_id']
    exact valid.distinct
  simp only [TaskDefinition.canonical, same.id, same.effect,
    sorted_eq_of_perm same.dependencies distinct,
    sorted_eq_of_perm same.requiredCapabilities valid.slots]

theorem canonicalCapability_of_reordered {capability held : CapabilityDeclaration}
    (same : capability.Reordered held) (valid : ValidCapability capability) :
    capability.canonical = held.canonical := by
  simp only [CapabilityDeclaration.canonical, same.id, same.kind, same.definitionIdentity,
    sorted_eq_of_perm same.dependencies valid.slots]

/-- Related values in step, the first ones valid. -/
theorem forall₂_valid {α : Type} {Related Wanted : α → α → Prop} {Valid : α → Prop}
    (keeps : ∀ one two, Related one two → Valid one → Wanted one two) {first second : List α}
    (same : List.Forall₂ Related first second) (valid : ∀ value ∈ first, Valid value) :
    List.Forall₂ Wanted first second := by
  induction same with
  | nil => exact .nil
  | cons one _ ih =>
    obtain ⟨head, tail⟩ := List.forall_mem_cons.mp valid
    exact .cons (keeps _ _ one head) (ih tail)

theorem forall_of_forall₂ {α : Type} {Related : α → α → Prop} {Valid ValidOther : α → Prop}
    (keeps : ∀ one two, Related one two → Valid one → ValidOther two) {first second : List α}
    (same : List.Forall₂ Related first second) (valid : ∀ value ∈ first, Valid value) :
    ∀ value ∈ second, ValidOther value := by
  induction same with
  | nil => simp
  | cons one _ ih =>
    obtain ⟨head, tail⟩ := List.forall_mem_cons.mp valid
    exact List.forall_mem_cons.mpr ⟨keeps _ _ one head, ih tail⟩

/-- The requirements of a definition in another order. -/
theorem requirementsOf_perm {tasks others : BTreeMap Id TaskDefinition}
    (alike : Alike TaskDefinition.Reordered tasks others)
    (declares : Alike CapabilityDeclaration.Reordered declared declaredOther) :
    (requirementsOf tasks declared).Perm (requirementsOf others declaredOther) :=
  (flatMap_perm (alike.values.imp fun _ _ same => same.requiredCapabilities)).append
    (flatMap_perm (declares.values.imp fun _ _ same => same.dependencies))

/-- **Materialization does not depend on the order.** -/
theorem materialize_of_reordered {capabilities : BTreeMap Id CapabilityDeclaration}
    {requirements others : List CapabilityRequirement}
    (declares : Alike CapabilityDeclaration.Reordered declared declaredOther)
    (moved : requirements.Perm others)
    (materialized : materializeRequirements declared requirements = .ok capabilities) :
    ∃ result, materializeRequirements declaredOther others = .ok result ∧
      Alike CapabilityDeclaration.Reordered capabilities result := by
  have consistent := materialize_iff.mp ⟨_, materialized⟩
  have alike : ∀ capabilityId, Option.Rel CapabilityDeclaration.Reordered
      (declarationOf declared requirements capabilityId)
      (declarationOf declaredOther others capabilityId) := by
    intro capabilityId
    have explicit := declares capabilityId
    unfold declarationOf
    cases found : declared[capabilityId]? with
    | some capability =>
      rw [found] at explicit
      cases held : declaredOther[capabilityId]? with
      | none =>
        rw [held] at explicit
        cases explicit
      | some other =>
        rw [held] at explicit
        exact explicit
    | none =>
      rw [found] at explicit
      cases held : declaredOther[capabilityId]? with
      | some other =>
        rw [held] at explicit
        cases explicit
      | none =>
        show Option.Rel _ ((requirements.find? _).map _) ((others.find? _).map _)
        cases first : requirements.find? fun requirement =>
            requirement.capabilityId = capabilityId with
        | none =>
          have nowhere : (others.find? fun requirement =>
              requirement.capabilityId = capabilityId) = none := by
            rw [List.find?_eq_none] at first ⊢
            exact fun requirement member => first requirement (moved.mem_iff.mpr member)
          rw [nowhere]
          exact .none
        | some requirement =>
          have slot : requirement.capabilityId = capabilityId := by
            have chosen := List.find?_some first
            exact of_decide_eq_true chosen
          obtain ⟨other, second⟩ : ∃ other, (others.find? fun requirement =>
              requirement.capabilityId = capabilityId) = some other := by
            refine Option.isSome_iff_exists.mp (List.find?_isSome.mpr ⟨requirement, ?_, ?_⟩)
            · exact moved.mem_iff.mp (List.mem_of_find?_eq_some first)
            · exact decide_eq_true slot
          have slotOther : other.capabilityId = capabilityId := by
            have chosen := List.find?_some second
            exact of_decide_eq_true chosen
          -- Both requirements of the slot agree with its one declaration, so they are the same.
          obtain ⟨capability, implicit, same⟩ := consistent other
            (moved.mem_iff.mpr (List.mem_of_find?_eq_some second))
          rw [declarationOf, slotOther, found, first] at implicit
          cases implicit
          have equal : requirement = other := requirement_ext (slot.trans slotOther.symm) same
          rw [second, equal]
          exact .some (.refl _)
  have declared : ∀ requirement ∈ others, Declares (declarationOf declaredOther others) requirement := by
    intro requirement member
    obtain ⟨capability, found, same⟩ := consistent requirement (moved.mem_iff.mpr member)
    have related := alike requirement.capabilityId
    rw [found] at related
    cases held : declarationOf declaredOther others requirement.capabilityId with
    | none =>
      rw [held] at related
      cases related
    | some other =>
      rw [held] at related
      cases related with
      | some one => exact ⟨other, held, one.definitionIdentity.symm.trans same⟩
  obtain ⟨result, again⟩ := materialize_iff.mpr declared
  refine ⟨result, again, fun capabilityId => ?_⟩
  rw [materialize_ok materialized, materialize_ok again]
  exact alike capabilityId

theorem definition_of_reordered {capability held : CapabilityDeclaration}
    (same : capability.Reordered held) : capability.definition = held.definition := by
  unfold CapabilityDeclaration.definition
  rw [same.id, same.kind, same.definitionIdentity]
  refine same.dependencies.foldl_eq' (fun one _ two _ definition => ?_) _
  have swapped : (definition.dependencies.insert one.capabilityId).insert two.capabilityId =
      (definition.dependencies.insert two.capabilityId).insert one.capabilityId := by
    refine ExtTreeSet.ext_mem fun dependency => ?_
    simp only [ExtTreeSet.mem_insert]
    tauto
  simp only [CapabilityDefinition.addDependency, swapped]

theorem validateCapabilityGraph_of_reordered {capabilities others : BTreeMap Id CapabilityDeclaration}
    (alike : Alike CapabilityDeclaration.Reordered capabilities others) :
    validateCapabilityGraph capabilities = validateCapabilityGraph others := by
  have same : (valuesOf capabilities).map CapabilityDeclaration.definition =
      (valuesOf others).map CapabilityDeclaration.definition :=
    map_eq_of_forall₂ (alike.values.imp fun _ _ => definition_of_reordered)
  rw [validateCapabilityGraph, validateCapabilityGraph, capabilityGraph, capabilityGraph, same]

/-- The workflow task of a declaration. -/
def taskOf (task : TaskDefinition) : WorkflowMutation := .addTask ⟨task.id, task.label⟩

/-- The edges of a definition. -/
def edgesOf (tasks : BTreeMap Id TaskDefinition) : List (Id × Id) :=
  (valuesOf tasks).flatMap fun task => task.dependencies.map fun dependency => (task.id, dependency)

/-- **When the workflow accepts the topology**: the tasks can be added, and then the edges fit. -/
theorem validateWorkflow_iff {tasks : BTreeMap Id TaskDefinition} :
    validateWorkflow tasks = .ok () ↔ ∃ middle,
      WorkflowGraph.empty.applyMutations ((valuesOf tasks).map taskOf) = .ok middle ∧
        middle.Fits (edgesOf tasks) := by
  have batch : workflowMutations tasks =
      (valuesOf tasks).map taskOf ++ WorkflowGraph.addEdges (edgesOf tasks) := by
    rw [WorkflowGraph.addEdges, edgesOf, List.map_flatMap]
    simp only [List.map_map]
    rfl
  rw [validateWorkflow]
  by_cases nothing : workflowMutations tasks = []
  · rw [if_pos nothing]
    obtain ⟨none, noEdges⟩ := List.append_eq_nil_iff.mp (batch.symm.trans nothing)
    rw [none, List.map_eq_nil_iff.mp noEdges]
    refine ⟨fun _ => ⟨_, rfl, by simp, by simp, by simp, List.nodup_nil, fun taskId cycle => ?_⟩,
      fun _ => rfl⟩
    exact WorkflowGraph.invariant_empty.acyclic taskId (cycle.lift id fun _ _ required =>
      required.resolve_right List.not_mem_nil)
  · rw [if_neg nothing]
    rw [batch] at nothing ⊢
    rw [← WorkflowGraph.applyBatch_edges_iff nothing (by decide)
      WorkflowGraph.invariant_empty.joined]
    rw [show WorkflowGraph.empty.topologyRevision = 0 from rfl]
    cases WorkflowGraph.empty.applyBatch 0
        ((valuesOf tasks).map taskOf ++ WorkflowGraph.addEdges (edgesOf tasks)) with
    | error error => simp
    | ok answer => simp

theorem validateWorkflow_of_reordered {tasks others : BTreeMap Id TaskDefinition}
    (alike : Alike TaskDefinition.Reordered tasks others)
    (valid : validateWorkflow tasks = .ok ()) : validateWorkflow others = .ok () := by
  rw [validateWorkflow_iff] at valid ⊢
  have labels : (valuesOf tasks).map taskOf = (valuesOf others).map taskOf :=
    map_eq_of_forall₂ (alike.values.imp fun _ _ same => by rw [taskOf, taskOf, same.id, same.label])
  have edges : (edgesOf tasks).Perm (edgesOf others) := by
    refine flatMap_perm (alike.values.imp fun _ _ same => ?_)
    rw [same.id]
    exact same.dependencies.map _
  rw [labels] at valid
  obtain ⟨middle, added, fits⟩ := valid
  exact ⟨middle, added, fits.perm edges⟩

/-- **A definition in another order validates to the same identity.** -/
theorem Validates.reordered (checks : Validates definition declared validated)
    (same : definition.Reordered other) :
    ∃ declaredOther validatedOther, Validates other declaredOther validatedOther ∧
      validatedOther.identity = validated.identity := by
  obtain ⟨tasks, indexed, alike⟩ := exists_alike (fun _ _ same => TaskDefinition.Reordered.id same)
    checks.tasks same.tasks
  obtain ⟨declaredOther, explicit, declares⟩ := exists_alike
    (fun _ _ same => CapabilityDeclaration.Reordered.id same) checks.explicit same.capabilities
  obtain ⟨capabilities, materialized, implicit⟩ := materialize_of_reordered declares
    (requirementsOf_perm alike declares) checks.materialized
  refine ⟨declaredOther, ⟨tasks, capabilities, validated.identity⟩, ⟨indexed, explicit, ?_, ?_, ?_,
    materialized, ?_, ?_, validateWorkflow_of_reordered alike checks.workflow, ?_⟩, rfl⟩
  · exact forall_of_forall₂ (fun _ _ same => validTask_of_reordered alike same) alike.values
      checks.validTasks
  · have operations : (valuesOf validated.tasks).map TaskDefinition.operation =
        (valuesOf tasks).map TaskDefinition.operation :=
      map_eq_of_forall₂ (alike.values.imp fun _ _ same => by
        rw [TaskDefinition.operation, TaskDefinition.operation, same.effect])
    have distinct := checks.operations
    rw [← Function.id_comp TaskDefinition.operation, ← List.filterMap_map, operations,
      List.filterMap_map, Function.id_comp] at distinct
    exact distinct
  · exact forall_of_forall₂ (fun _ _ same => validCapability_of_reordered same) declares.values
      checks.validDeclared
  · exact forall_of_forall₂ (fun _ _ same => validCapability_of_reordered same) implicit.values
      checks.validCapabilities
  · rw [← validateCapabilityGraph_of_reordered implicit]
    exact checks.graph
  · have sameTasks : (valuesOf validated.tasks).map TaskDefinition.canonical =
        (valuesOf tasks).map TaskDefinition.canonical :=
      map_eq_of_forall₂ (forall₂_valid (fun _ _ same => canonical_of_reordered same) alike.values
        checks.validTasks)
    have sameCapabilities : (valuesOf validated.capabilities).map CapabilityDeclaration.canonical =
        (valuesOf capabilities).map CapabilityDeclaration.canonical :=
      map_eq_of_forall₂ (forall₂_valid (fun _ _ same => canonicalCapability_of_reordered same)
        implicit.values checks.validCapabilities)
    rw [checks.identity, canonicalText_eq, canonicalText_eq, sameTasks, sameCapabilities]

end Reordered

/-- **The identity is canonical and injective.** Two validated definitions have the same identity
exactly when they have the same normal form, and putting all lists of a definition in another order
changes neither the success of its validation nor its identity. -/
theorem canonical_identity :
    (∀ (definition other : RunDefinition) (validated validatedOther : ValidatedRunDefinition),
        definition.validated = .ok validated → other.validated = .ok validatedOther →
        (validated.identity = validatedOther.identity ↔
          validated.normalForm = validatedOther.normalForm)) ∧
      ∀ definition other : RunDefinition, definition.Reordered other →
        definition.identity.toOption = other.identity.toOption := by
  refine ⟨fun definition other validated validatedOther first second => ?_,
    fun definition other same => ?_⟩
  · obtain ⟨declared, checks⟩ := validated_iff.mp first
    obtain ⟨declaredOther, checksOther⟩ := validated_iff.mp second
    exact checks.identity_iff checksOther
  · have moves : ∀ {definition other : RunDefinition}, definition.Reordered other →
        ∀ identity, definition.identity = .ok identity → other.identity = .ok identity := by
      intro definition other same identity found
      cases validates : definition.validated with
      | error error =>
        rw [RunDefinition.identity, validates] at found
        cases found
      | ok validated =>
        rw [RunDefinition.identity, validates] at found
        cases found
        obtain ⟨declared, checks⟩ := validated_iff.mp validates
        obtain ⟨declaredOther, validatedOther, checksOther, equal⟩ := checks.reordered same
        rw [RunDefinition.identity, validated_iff.mpr ⟨declaredOther, checksOther⟩]
        exact congrArg Except.ok equal
    cases found : definition.identity with
    | ok identity => rw [moves same identity found]
    | error error =>
      cases held : other.identity with
      | error error => rfl
      | ok identity =>
        rw [moves same.symm identity held] at found
        cases found

/-- A second task. -/
def sampleLater : Id := ⟨"later".toList, by decide⟩

/-- A capability slot. -/
def sampleCapability : Id := ⟨"capability".toList, by decide⟩

/-- Two tasks, one after the other, that need the same capability. -/
def sampleOrdered : RunDefinition :=
  ⟨[⟨sampleTask, [], [], [⟨sampleCapability, ⟨"provider".toList⟩⟩], none⟩,
    ⟨sampleLater, [], [sampleTask], [⟨sampleCapability, ⟨"provider".toList⟩⟩], none⟩], []⟩

/-- The same tasks in the other order. -/
def sampleSwapped : RunDefinition := ⟨sampleOrdered.tasks.reverse, []⟩

/-- The same tasks, the later one of which waits for nothing. -/
def sampleDetached : RunDefinition :=
  ⟨sampleOrdered.tasks.map fun task => { task with dependencies := [] }, []⟩

/-- The first two definitions validate to the same identity, and so to the same normal form. The third
one has another normal form, and so another identity. -/
theorem canonical_identity_sample : ∃ ordered swapped detached,
    sampleOrdered.validated = .ok ordered ∧ sampleSwapped.validated = .ok swapped ∧
      sampleDetached.validated = .ok detached ∧
      sampleOrdered.identity.toOption = sampleSwapped.identity.toOption ∧
      ordered.normalForm = swapped.normalForm ∧ ordered.identity ≠ detached.identity := by
  obtain ⟨ordered, first, waits⟩ := exists_ok_of_any
    (show (sampleOrdered.validated.toOption.any fun ordered =>
      (ordered.tasks[sampleLater]?).map TaskDefinition.dependencies = some [sampleTask]) = true by
      decide +kernel)
  obtain ⟨swapped, second, _⟩ := exists_ok_of_any
    (show (sampleSwapped.validated.toOption.any fun _ => true) = true by decide +kernel)
  obtain ⟨detached, third, free⟩ := exists_ok_of_any
    (show (sampleDetached.validated.toOption.any fun detached =>
      (detached.tasks[sampleLater]?).map TaskDefinition.dependencies = some []) = true by
      decide +kernel)
  obtain ⟨canonical, invariant⟩ := canonical_identity
  have reordered : sampleOrdered.identity.toOption = sampleSwapped.identity.toOption :=
    invariant _ _ ⟨⟨sampleSwapped.tasks, (List.reverse_perm _).symm,
      List.forall₂_same.mpr fun task _ => ⟨rfl, rfl, .refl _, .refl _, rfl⟩⟩, [], .nil, .nil⟩
  have same : ordered.identity = swapped.identity := by
    rw [RunDefinition.identity, RunDefinition.identity, first, second] at reordered
    exact Option.some.inj reordered
  refine ⟨ordered, swapped, detached, first, second, third, reordered,
    (canonical _ _ _ _ first second).mp same, fun equal => ?_⟩
  have forms := congrFun (congrArg NormalForm.tasks ((canonical _ _ _ _ first third).mp equal))
    sampleLater
  obtain ⟨task, held, dependencies⟩ := Option.map_eq_some_iff.mp (of_decide_eq_true waits)
  obtain ⟨other, there, none⟩ := Option.map_eq_some_iff.mp (of_decide_eq_true free)
  simp only [ValidatedRunDefinition.normalForm, held, there, Option.map_some, Option.some.injEq]
    at forms
  have sets := congrArg TaskForm.dependencies forms
  have member : sampleTask ∈ task.form.dependencies := by
    show sampleTask ∈ task.dependencies
    rw [dependencies]
    exact List.mem_singleton_self _
  rw [sets] at member
  have inside : sampleTask ∈ other.dependencies := member
  rw [none] at inside
  cases inside

end Kernis
