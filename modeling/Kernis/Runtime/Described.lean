/-
**What a durable identity says about the workflow.**

* `legacyText_eq` — the identity of live objects is a format tag and a list of measured parts; the
  parts are a closed list of tasks, and then edges.
* `Describes identity taskIds edges` — an identity, of live objects or of a definition, and the tasks
  and edges it names. `Describes.unique` — unambiguously, whichever format it has.
* `Identified runtime state` — the stored identity names the tasks and the prerequisites of the live
  workflow. Starts, actions and restores keep it; `Identified.same` connects incarnations.
-/

import Kernis.Runtime.Follows
import Kernis.Runtime.Validated

namespace Kernis

open Std Fallible

/-! ### The identity of live objects -/

/-- One measured part. -/
def partCode (value : Text) : Text := [':'] ++ (digits (utf8Length value) ++ ':' :: value)

theorem delimited_part : Delimited partCode := (delimited_measured (by decide)).after _

/-- A task as the identity sees it: its name, its label, its requirements and its effect. -/
structure LiveTask where
  id : Id
  label : Text
  requiredCapabilities : List (Id × Option Text)
  effect : Option EffectSpec

/-- A task with its configuration; a missing one is the empty one. -/
def liveTask (taskConfigs : BTreeMap Id TaskConfig) (task : Task) : LiveTask :=
  match taskConfigs[task.id]? with
  | none => ⟨task.id, task.label, [], none⟩
  | some config => ⟨task.id, task.label, config.requiredCapabilities.toList, config.effect⟩

/-- The parts of a task. -/
def liveTaskParts (task : LiveTask) : List Text :=
  ["task".toList] ++ ([task.id.asStr] ++ ([task.label] ++ (["config".toList] ++
    (task.requiredCapabilities.flatMap requirementParts ++ effectParts task.effect))))

theorem taskParts_eq (taskConfigs : BTreeMap Id TaskConfig) (task : Task) :
    taskParts taskConfigs task = liveTaskParts (liveTask taskConfigs task) := by
  unfold taskParts liveTask
  cases taskConfigs[task.id]? with
  | none => rfl
  | some config => rfl

/-- The parts of the edges. -/
def edgeParts (edges : List (Id × Id)) : List Text :=
  edges.flatMap fun edge => [edge.1.asStr, edge.2.asStr]

/-- The parts of live objects: a closed list of tasks, then the edges. -/
def liveParts (workflow : WorkflowGraph) (taskConfigs : BTreeMap Id TaskConfig) : List Text :=
  ["tasks".toList] ++ ((workflow.tasks.map (liveTask taskConfigs)).flatMap liveTaskParts ++
    ["edges".toList] ++ edgeParts workflow.topology.edges)

theorem appendIdentityPart_eq (canonical value : Text) :
    appendIdentityPart canonical value = canonical ++ partCode value := by
  simp [appendIdentityPart, partCode]

/-- **The text of the identity of live objects.** -/
theorem legacyText_eq {workflow : WorkflowGraph} {taskConfigs : BTreeMap Id TaskConfig}
    {identity : WorkflowReplayIdentity}
    (identified : legacyWorkflowReplayIdentity workflow taskConfigs = .ok identity) :
    identity.text.val = "kernis-workflow-replay-v1".toList ++
      (liveParts workflow taskConfigs).flatMap partCode := by
  have parts : ["tasks".toList] ++ workflow.tasks.flatMap (taskParts taskConfigs) ++
      ["edges".toList] ++ (workflow.topology.edges.flatMap fun edge =>
        [edge.1.asStr, edge.2.asStr]) = liveParts workflow taskConfigs := by
    have tasks : taskParts taskConfigs = fun task => liveTaskParts (liveTask taskConfigs task) :=
      funext (taskParts_eq taskConfigs)
    rw [liveParts, List.flatMap_map, tasks, List.append_assoc, List.append_assoc, List.append_assoc]
    rfl
  unfold legacyWorkflowReplayIdentity at identified
  rw [parts, appendIdentityParts, foldl_push appendIdentityPart_eq] at identified
  unfold WorkflowReplayIdentity.new at identified
  split at identified
  · cases identified
    rfl
  · cases identified

/-- Lists that begin with different texts. -/
theorem cons_append_ne {first second : Text} (differ : first ≠ second) (rest other : List Text) :
    [first] ++ rest ≠ [second] ++ other := fun same => differ (List.cons.inj same).1

theorem delimited_idPart : Delimited fun taskId : Id => [taskId.asStr] :=
  Delimited.single.through Id.asStr_injective

theorem delimited_requirementParts : Delimited requirementParts := by
  have parts : requirementParts = fun requirement => ["capability".toList] ++
      ([requirement.1.asStr] ++ requirement.2.elim ["unspecified".toList] fun identity =>
        ["specified".toList] ++ [identity]) := by
    funext ⟨capabilityId, identity⟩
    cases identity <;> rfl
  rw [parts]
  exact (delimited_idPart.both (Delimited.single.optional (cons_append_ne (by decide)))).after _

/-- The text of an effect's semantics. -/
def semanticsText : EffectSemantics → Text
  | .idempotent => "idempotent".toList
  | .nonIdempotent => "non-idempotent".toList

theorem delimited_effectParts : Delimited effectParts := by
  have parts : effectParts = fun effect => effect.elim ["no-effect".toList] fun effect =>
      ["effect".toList] ++ ([effect.operationId.id.asStr] ++ [semanticsText effect.semantics]) := by
    funext effect
    rcases effect with _ | ⟨operationId, _ | _⟩ <;> rfl
  have semantics : Function.Injective semanticsText := by
    rintro (_ | _) (_ | _) same
    · rfl
    · exact absurd same (by decide)
    · exact absurd same (by decide)
    · rfl
  have injective : Function.Injective fun effect : EffectSpec =>
      (effect.operationId.id, effect.semantics) := by
    rintro ⟨⟨_⟩, _⟩ ⟨⟨_⟩, _⟩ same
    cases same
    rfl
  rw [parts]
  exact ((delimited_idPart.both (Delimited.single.through semantics)).through injective).optional
    (cons_append_ne (by decide))

/-- A requirement cannot be taken for an effect. -/
theorem requirementParts_ne_effectParts (requirement : Id × Option Text) (effect : Option EffectSpec)
    (rest other : List Text) : requirementParts requirement ++ rest ≠ effectParts effect ++ other := by
  obtain ⟨capabilityId, identity⟩ := requirement
  intro same
  have heads := congrArg List.head? same
  cases identity <;> cases effect <;> exact absurd (Option.some.inj heads) (by decide)

theorem delimited_liveTaskParts : Delimited liveTaskParts := by
  have injective : Function.Injective fun task : LiveTask =>
      (task.id, task.label, task.requiredCapabilities, task.effect) := by
    rintro ⟨_, _, _, _⟩ ⟨_, _, _, _⟩ same
    cases same
    rfl
  have inputs := delimited_requirementParts.closed delimited_effectParts
    requirementParts_ne_effectParts
  exact ((delimited_idPart.both (Delimited.single.both (inputs.after ["config".toList]))).through
    injective).after ["task".toList]

theorem delimited_edgeParts : Delimited fun edge : Id × Id => [edge.1.asStr, edge.2.asStr] :=
  delimited_idPart.both delimited_idPart

/-- **The parts determine the tasks, as the identity sees them, and the edges.** -/
theorem liveParts_injective {workflow other : WorkflowGraph}
    {taskConfigs otherConfigs : BTreeMap Id TaskConfig}
    (same : liveParts workflow taskConfigs = liveParts other otherConfigs) :
    workflow.tasks.map (liveTask taskConfigs) = other.tasks.map (liveTask otherConfigs) ∧
      workflow.topology.edges = other.topology.edges := by
  have ends : Delimited fun _ : Unit => ["edges".toList] :=
    fun _ _ _ _ same => ⟨rfl, List.append_cancel_left same⟩
  have apart : ∀ (task : LiveTask) (_ : Unit) rest other,
      liveTaskParts task ++ rest ≠ ["edges".toList] ++ other := by
    intro task _ rest other
    rw [liveTaskParts, List.append_assoc]
    exact cons_append_ne (by decide) _ _
  have closed := delimited_liveTaskParts.closed ends apart
  obtain ⟨tasks, edges⟩ := closed (workflow.tasks.map (liveTask taskConfigs), ())
    (other.tasks.map (liveTask otherConfigs), ()) _ _ (List.append_cancel_left same)
  refine ⟨(Prod.mk.inj tasks).1, ?_⟩
  exact delimited_edgeParts.flatMap_injective (fun edge => List.cons_ne_nil _ _) edges

/-- The identity of live objects determines their parts. -/
theorem liveParts_of_identity {workflow other : WorkflowGraph}
    {taskConfigs otherConfigs : BTreeMap Id TaskConfig} {identity : WorkflowReplayIdentity}
    (first : legacyWorkflowReplayIdentity workflow taskConfigs = .ok identity)
    (second : legacyWorkflowReplayIdentity other otherConfigs = .ok identity) :
    liveParts workflow taskConfigs = liveParts other otherConfigs := by
  have texts := (legacyText_eq first).symm.trans (legacyText_eq second)
  exact delimited_part.flatMap_injective (fun value => List.cons_ne_nil _ _)
    (List.append_cancel_left texts)

theorem liveTask_id (taskConfigs : BTreeMap Id TaskConfig) (task : Task) :
    (liveTask taskConfigs task).id = task.id := by
  unfold liveTask
  split <;> rfl

/-- **The identity of live objects names its tasks and edges.** -/
theorem legacyIdentity_topology {workflow other : WorkflowGraph}
    {taskConfigs otherConfigs : BTreeMap Id TaskConfig} {identity : WorkflowReplayIdentity}
    (first : legacyWorkflowReplayIdentity workflow taskConfigs = .ok identity)
    (second : legacyWorkflowReplayIdentity other otherConfigs = .ok identity) :
    workflow.tasks.map Task.id = other.tasks.map Task.id ∧
      workflow.topology.edges = other.topology.edges := by
  obtain ⟨same, edges⟩ := liveParts_injective (liveParts_of_identity first second)
  have ids := congrArg (List.map LiveTask.id) same
  rw [List.map_map, List.map_map] at ids
  exact ⟨by simpa only [Function.comp_def, liveTask_id] using ids, edges⟩

/-! ### What the identity of live objects says -/

/-- The configuration of a task; a missing one is the empty one. -/
def configured (taskConfigs : BTreeMap Id TaskConfig) (taskId : Id) : TaskConfig :=
  (taskConfigs[taskId]?).getD .new

/-- **The same tasks with the same labels, the same edges, and the same configurations.** -/
structure SameInputs (workflow other : WorkflowGraph)
    (taskConfigs otherConfigs : BTreeMap Id TaskConfig) : Prop where
  tasks : ∀ taskId : Id, workflow.topology.tasks[taskId]? = other.topology.tasks[taskId]?
  edges : ∀ taskId dependency, WorkflowGraph.Requires workflow.topology taskId dependency ↔
    WorkflowGraph.Requires other.topology taskId dependency
  configs : ∀ taskId ∈ workflow.topology.tasks,
    configured taskConfigs taskId = configured otherConfigs taskId

theorem liveTask_eq (taskConfigs : BTreeMap Id TaskConfig) (task : Task) :
    liveTask taskConfigs task = ⟨task.id, task.label,
      (configured taskConfigs task.id).requiredCapabilities.toList,
      (configured taskConfigs task.id).effect⟩ := by
  unfold liveTask configured
  cases taskConfigs[task.id]? with
  | none => simp [TaskConfig.new]
  | some config => rfl

/-- A task and its configuration are what the identity sees of them. -/
theorem liveTask_inj {taskConfigs otherConfigs : BTreeMap Id TaskConfig} {task other : Task} :
    liveTask taskConfigs task = liveTask otherConfigs other ↔
      task = other ∧ configured taskConfigs task.id = configured otherConfigs other.id := by
  rw [liveTask_eq, liveTask_eq]
  constructor
  · intro same
    obtain ⟨ids, labels, required, effects⟩ := LiveTask.mk.inj same
    refine ⟨?_, ?_⟩
    · obtain ⟨_, _⟩ := task
      obtain ⟨_, _⟩ := other
      cases ids
      cases labels
      rfl
    · generalize configured taskConfigs task.id = config at required effects ⊢
      generalize configured otherConfigs other.id = otherConfig at required effects ⊢
      obtain ⟨capabilities, effect⟩ := config
      obtain ⟨otherCapabilities, otherEffect⟩ := otherConfig
      cases effects
      obtain rfl := ExtTreeMap.ext_toList (.of_eq required)
      rfl
  · rintro ⟨rfl, same⟩
    rw [same]

/-- Two lists of tasks that the identity sees alike. -/
theorem map_liveTask_inj {taskConfigs otherConfigs : BTreeMap Id TaskConfig} {tasks others : List Task} :
    tasks.map (liveTask taskConfigs) = others.map (liveTask otherConfigs) ↔
      tasks = others ∧ ∀ task ∈ tasks,
        configured taskConfigs task.id = configured otherConfigs task.id := by
  induction tasks generalizing others with
  | nil => cases others <;> simp
  | cons task rest ih =>
    cases others with
    | nil => simp
    | cons other others =>
      rw [List.map_cons, List.map_cons, List.cons.injEq, List.cons.injEq, ih, liveTask_inj,
        List.forall_mem_cons]
      constructor
      · rintro ⟨⟨rfl, here⟩, rfl, there⟩
        exact ⟨⟨rfl, rfl⟩, here, there⟩
      · rintro ⟨⟨rfl, rfl⟩, here, there⟩
        exact ⟨⟨rfl, here⟩, rfl, there⟩

/-- The parts of live objects are the same exactly when the objects are. -/
theorem liveParts_eq_iff {workflow other : WorkflowGraph} (built : workflow.Built)
    (builtOther : other.Built) {taskConfigs otherConfigs : BTreeMap Id TaskConfig} :
    liveParts workflow taskConfigs = liveParts other otherConfigs ↔
      SameInputs workflow other taskConfigs otherConfigs := by
  have sameTasks := WorkflowGraph.tasks_eq_iff built builtOther
  have sameEdges := WorkflowGraph.edges_eq_iff (WorkflowGraph.invariant_of_built built).joined
    (WorkflowGraph.invariant_of_built builtOther).joined
  have listed : (∀ taskId ∈ workflow.topology.tasks,
      configured taskConfigs taskId = configured otherConfigs taskId) ↔
        ∀ task ∈ workflow.tasks, configured taskConfigs task.id = configured otherConfigs task.id := by
    simp only [WorkflowGraph.mem_tasks_iff built, List.mem_map, forall_exists_index, and_imp,
      forall_apply_eq_imp_iff₂]
  constructor
  · intro same
    obtain ⟨tasks, edges⟩ := liveParts_injective same
    obtain ⟨tasks, configs⟩ := map_liveTask_inj.mp tasks
    exact ⟨sameTasks.mp tasks, sameEdges.mp edges, listed.mpr configs⟩
  · rintro ⟨tasks, edges, configs⟩
    unfold liveParts
    rw [map_liveTask_inj.mpr ⟨sameTasks.mpr tasks, listed.mp configs⟩, sameEdges.mpr edges]

/-- Live objects have an identity. -/
theorem legacyIdentity_exists (workflow : WorkflowGraph) (taskConfigs : BTreeMap Id TaskConfig) :
    ∃ identity, legacyWorkflowReplayIdentity workflow taskConfigs = .ok identity := by
  unfold legacyWorkflowReplayIdentity WorkflowReplayIdentity.new
  rw [appendIdentityParts, foldl_push appendIdentityPart_eq,
    dif_pos (blank_append_of_left (by decide) _)]
  exact ⟨_, rfl⟩

/-- **The identity of live objects is injective.** -/
theorem legacy_identity_injective {workflow other : WorkflowGraph} (built : workflow.Built)
    (builtOther : other.Built) (taskConfigs otherConfigs : BTreeMap Id TaskConfig) :
    ∃ identity otherIdentity,
      legacyWorkflowReplayIdentity workflow taskConfigs = .ok identity ∧
      legacyWorkflowReplayIdentity other otherConfigs = .ok otherIdentity ∧
      (identity.text.val = otherIdentity.text.val ↔
        SameInputs workflow other taskConfigs otherConfigs) := by
  obtain ⟨identity, identified⟩ := legacyIdentity_exists workflow taskConfigs
  obtain ⟨otherIdentity, identifiedOther⟩ := legacyIdentity_exists other otherConfigs
  refine ⟨identity, otherIdentity, identified, identifiedOther, ?_⟩
  rw [← liveParts_eq_iff built builtOther, legacyText_eq identified, legacyText_eq identifiedOther]
  constructor
  · intro same
    exact delimited_part.flatMap_injective (fun value => List.cons_ne_nil _ _)
      (List.append_cancel_left same)
  · intro same
    rw [same]

/-- A task without a configuration is like one with the empty configuration. -/
theorem legacy_identity_injective_unconfigured : ∃ identity otherIdentity,
    legacyWorkflowReplayIdentity sampleWorkflow ∅ = .ok identity ∧
      legacyWorkflowReplayIdentity sampleWorkflow ((∅ : BTreeMap Id TaskConfig).insert sampleTask .new) =
        .ok otherIdentity ∧ identity.text.val = otherIdentity.text.val := by
  have built : sampleWorkflow.Built := .batch .empty sampleWorkflow_built
  obtain ⟨identity, otherIdentity, identified, other, same⟩ :=
    legacy_identity_injective built built ∅ ((∅ : BTreeMap Id TaskConfig).insert sampleTask .new)
  refine ⟨identity, otherIdentity, identified, other, same.mpr ⟨fun _ => rfl, fun _ _ => .rfl, ?_⟩⟩
  intro taskId _
  unfold configured
  rw [lookup_insert]
  split
  · simp
  · rfl

/-! ### The topology that an identity names -/

/-- The edges of a definition, by task and dependency. -/
def canonicalEdges (tasks : BTreeMap Id TaskDefinition) : List (Id × Id) :=
  ((valuesOf tasks).map TaskDefinition.canonical).flatMap fun task =>
    task.dependencies.map fun dependency => (task.id, dependency)

/-- **The tasks and edges that an identity names**, made from live objects or from a definition. -/
inductive Describes (identity : WorkflowReplayIdentity) : List Id → List (Id × Id) → Prop
  | live {workflow : WorkflowGraph} {taskConfigs : BTreeMap Id TaskConfig}
      (identified : legacyWorkflowReplayIdentity workflow taskConfigs = .ok identity) :
      Describes identity (workflow.tasks.map Task.id) workflow.topology.edges
  | declared {tasks : BTreeMap Id TaskDefinition} {capabilities : BTreeMap Id CapabilityDeclaration}
      (text : identity.text.val = canonicalText tasks capabilities) :
      Describes identity ((valuesOf tasks).map TaskDefinition.id) (canonicalEdges tasks)

/-- The two formats have no text in common. -/
theorem live_ne_declared {identity : WorkflowReplayIdentity} {workflow : WorkflowGraph}
    {taskConfigs : BTreeMap Id TaskConfig} {tasks : BTreeMap Id TaskDefinition}
    {capabilities : BTreeMap Id CapabilityDeclaration}
    (identified : legacyWorkflowReplayIdentity workflow taskConfigs = .ok identity) :
    identity.text.val ≠ canonicalText tasks capabilities := by
  rw [legacyText_eq identified, canonicalText_eq]
  exact append_ne_of_take 8 (by decide) (by decide) (by decide) _ _

/-- **An identity names its tasks and edges unambiguously.** -/
theorem Describes.unique {identity : WorkflowReplayIdentity} {taskIds others : List Id}
    {edges otherEdges : List (Id × Id)} (first : Describes identity taskIds edges)
    (second : Describes identity others otherEdges) : taskIds = others ∧ edges = otherEdges := by
  cases first with
  | live identified =>
    cases second with
    | live other => exact legacyIdentity_topology identified other
    | declared text => exact absurd text (live_ne_declared identified)
  | declared text =>
    cases second with
    | live identified => exact absurd text (live_ne_declared identified)
    | declared other =>
      obtain ⟨_, tasks⟩ := canonicalText_injective (text.symm.trans other)
      have ids := congrArg (List.map CanonicalTask.id) tasks
      rw [List.map_map, List.map_map] at ids
      refine ⟨ids, ?_⟩
      rw [canonicalEdges, canonicalEdges, tasks]

/-- The workflow of a definition has the declared tasks. -/
theorem mem_runtimeInputs {validated : ValidatedRunDefinition} {workflow : WorkflowGraph}
    {taskConfigs : BTreeMap Id TaskConfig}
    (inputs : runtimeInputs validated = .ok (workflow, taskConfigs)) (taskId : Id) :
    taskId ∈ workflow.topology.tasks ↔
      taskId ∈ (valuesOf validated.tasks).map TaskDefinition.id := by
  have added : (workflowMutations validated.tasks).filterMap WorkflowGraph.addedTask =
      (valuesOf validated.tasks).map fun task => ⟨task.id, task.label⟩ := by
    have edges : ((valuesOf validated.tasks).flatMap fun task =>
        task.dependencies.map (.addDependency task.id)).filterMap WorkflowGraph.addedTask = [] := by
      refine List.filterMap_eq_nil_iff.mpr fun mutation member => ?_
      obtain ⟨task, _, inside⟩ := List.mem_flatMap.mp member
      obtain ⟨dependency, _, rfl⟩ := List.mem_map.mp inside
      rfl
    rw [workflowMutations, List.filterMap_append, edges, List.append_nil, List.filterMap_map]
    exact congrFun List.filterMap_eq_map' _
  unfold runtimeInputs at inputs
  simp only at inputs
  split at inputs
  · rename_i nothing
    cases inputs
    rw [nothing] at added
    rw [List.map_eq_nil_iff.mp added.symm]
    simp [WorkflowGraph.empty]
  · split at inputs
    · cases inputs
    · rename_i record graph applied
      cases inputs
      rw [ExtTreeMap.mem_iff_isSome_getElem?, Option.isSome_iff_exists]
      simp only [WorkflowGraph.lookup_of_applyBatch applied, added, List.mem_map]
      constructor
      · rintro ⟨task, before | ⟨⟨declared, member, rfl⟩, rfl⟩⟩
        · simp [WorkflowGraph.empty] at before
        · exact ⟨declared, member, rfl⟩
      · rintro ⟨declared, member, rfl⟩
        exact ⟨_, .inr ⟨⟨declared, member, rfl⟩, rfl⟩⟩

/-- The prerequisites in the workflow of a definition are the declared ones. -/
theorem requires_runtimeInputs {validated : ValidatedRunDefinition} {workflow : WorkflowGraph}
    {taskConfigs : BTreeMap Id TaskConfig}
    (inputs : runtimeInputs validated = .ok (workflow, taskConfigs)) (taskId dependency : Id) :
    WorkflowGraph.Requires workflow.topology taskId dependency ↔
      (taskId, dependency) ∈ canonicalEdges validated.tasks := by
  have added : (taskId, dependency) ∈ (workflowMutations validated.tasks).filterMap
      WorkflowGraph.addedEdge ↔ (taskId, dependency) ∈ canonicalEdges validated.tasks := by
    simp only [workflowMutations, canonicalEdges, TaskDefinition.canonical, List.mem_filterMap,
      List.mem_append, List.mem_flatMap, List.mem_map, exists_exists_and_eq_and,
      (sortedBy_perm (fun dependency : Id => dependency) _).mem_iff]
    constructor
    · rintro ⟨_, ⟨task, _, rfl⟩ | ⟨task, member, other, inside, rfl⟩, same⟩
      · cases same
      · exact ⟨task, member, other, inside, Option.some.inj same⟩
    · rintro ⟨task, member, other, inside, same⟩
      exact ⟨_, .inr ⟨task, member, other, inside, rfl⟩, congrArg some same⟩
  rw [← added]
  unfold runtimeInputs at inputs
  simp only at inputs
  split at inputs
  · rename_i nothing
    cases inputs
    rw [nothing]
    simp [WorkflowGraph.Requires, WorkflowTopology.dependenciesOf, WorkflowGraph.empty]
  · split at inputs
    · cases inputs
    · rename_i record graph applied
      cases inputs
      rw [WorkflowGraph.requires_of_applyBatch applied]
      simp [WorkflowGraph.Requires, WorkflowTopology.dependenciesOf, WorkflowGraph.empty]

namespace Runtime

variable {σ ν : Type} [Postcard] [FaithfulStore σ]

omit [Postcard] [FaithfulStore σ] in
/-- **The stored identity names the tasks and the prerequisites of the live workflow.** -/
def Identified (runtime : Runtime σ ν) (state : DurableRunState) : Prop :=
  ∃ identity taskIds edges, state.workflowReplayIdentity = some identity ∧
    Describes identity taskIds edges ∧
    (∀ taskId, taskId ∈ runtime.workflow.topology.tasks ↔ taskId ∈ taskIds) ∧
    ∀ taskId dependency, WorkflowGraph.Requires runtime.workflow.topology taskId dependency ↔
      (taskId, dependency) ∈ edges

omit [Postcard] [FaithfulStore σ] in
/-- **The same identity, the same tasks and prerequisites.** -/
theorem Identified.same {runtime other : Runtime σ ν} {state : DurableRunState}
    (first : Identified runtime state) (second : Identified other state) :
    (∀ taskId, taskId ∈ runtime.workflow.topology.tasks ↔
        taskId ∈ other.workflow.topology.tasks) ∧
      ∀ taskId dependency, WorkflowGraph.Requires runtime.workflow.topology taskId dependency ↔
        WorkflowGraph.Requires other.workflow.topology taskId dependency := by
  obtain ⟨identity, taskIds, edges, stored, describes, tasks, requires⟩ := first
  obtain ⟨again, others, otherEdges, storedAgain, describesOther, tasksOther, requiresOther⟩ := second
  rw [stored] at storedAgain
  cases storedAgain
  obtain ⟨rfl, rfl⟩ := describes.unique describesOther
  exact ⟨fun taskId => (tasks taskId).trans (tasksOther taskId).symm,
    fun taskId dependency => (requires taskId dependency).trans (requiresOther taskId dependency).symm⟩

omit [Postcard] [FaithfulStore σ] in
/-- Nothing that an identity names changed. -/
theorem Identified.of_topology {runtime reached : Runtime σ ν} {state next : DurableRunState}
    (identified : Identified runtime state)
    (topology : reached.workflow.topology = runtime.workflow.topology)
    (stored : next.workflowReplayIdentity = state.workflowReplayIdentity) :
    Identified reached next := by
  unfold Identified
  rw [topology, stored]
  exact identified

omit [Postcard] [FaithfulStore σ] in
theorem identified_of_live {runtime : Runtime σ ν} {state : DurableRunState}
    {workflow : WorkflowGraph} {taskConfigs : BTreeMap Id TaskConfig}
    {identity : WorkflowReplayIdentity} (built : workflow.Built)
    (topology : runtime.workflow.topology = workflow.topology)
    (identified : legacyWorkflowReplayIdentity workflow taskConfigs = .ok identity)
    (stored : state.workflowReplayIdentity = some identity) : Identified runtime state := by
  refine ⟨identity, _, _, stored, .live identified, ?_⟩
  rw [topology]
  exact ⟨fun taskId => WorkflowGraph.mem_tasks_iff built,
    fun taskId dependency => WorkflowGraph.mem_edges_iff.symm⟩

omit [Postcard] [FaithfulStore σ] in
theorem identified_of_declared {runtime : Runtime σ ν} {state : DurableRunState}
    {definition : RunDefinition} {validated : ValidatedRunDefinition} {workflow : WorkflowGraph}
    {taskConfigs : BTreeMap Id TaskConfig} (valid : definition.validated = .ok validated)
    (inputs : runtimeInputs validated = .ok (workflow, taskConfigs))
    (topology : runtime.workflow.topology = workflow.topology)
    (stored : state.workflowReplayIdentity = some validated.identity) :
    Identified runtime state := by
  obtain ⟨_, checks⟩ := validated_iff.mp valid
  refine ⟨_, _, _, stored, .declared checks.identity, ?_⟩
  rw [topology]
  exact ⟨mem_runtimeInputs inputs, requires_runtimeInputs inputs⟩

omit [Postcard] [FaithfulStore σ] in
/-- **The gate for restoring a declarative run.** -/
theorem ensureRestorable_iff {computed : WorkflowReplayIdentity}
    {durable : Option WorkflowReplayIdentity} :
    ensureRestorableDefinitionIdentity computed durable = .ok () ↔
      durable = some computed ∧ isLegacyRunDefinitionIdentity computed.text.val = false := by
  unfold ensureRestorableDefinitionIdentity
  cases durable with
  | none => simp
  | some held =>
    simp only [Option.some.injEq]
    constructor
    · intro passed
      split at passed
      · cases passed
      · rename_i current
        split at passed
        · cases passed
        · rename_i same
          have same := not_not.mp same
          exact ⟨same, same ▸ Bool.eq_false_iff.mpr current⟩
    · rintro ⟨rfl, current⟩
      rw [current]
      simp

theorem Started.identified {store : σ} {runtime : Runtime σ ν} {state : DurableRunState}
    (clean : (FaithfulStore.content store).AllReachable) (started : Started store runtime)
    (synced : Synced runtime state) : Identified runtime state := by
  cases started with
  | fromDefinition started =>
    obtain ⟨validated, workflow, configs, scope, valid, _, inputs, _, inner⟩ :=
      startFromDefinition_ok.mp started
    obtain ⟨first, _, rfl⟩ := startWithIdentity_synced clean (built_of_runtimeInputs inputs) inner
    cases synced.unique first
    exact identified_of_declared valid inputs rfl rfl
  | run built started =>
    obtain ⟨configs, identity, _, identified, inner⟩ := startRun_ok started
    obtain ⟨first, _, rfl⟩ := startWithIdentity_synced clean built inner
    cases synced.unique first
    exact identified_of_live built rfl identified rfl

theorem Restored.identified {runId : RunId} {store : σ} {runtime : Runtime σ ν}
    {state : DurableRunState} (loaded : DurableStore.loadRun runId store = .ok state)
    (restored : Restored runId store runtime) : Identified runtime state := by
  have kept : ∀ {supplied replayed : WorkflowGraph}, supplied.Built →
      replayWorkflow supplied state.completionHistory = .ok replayed →
      replayed.topology = supplied.topology := fun built replay =>
    (WorkflowGraph.completeAll_eq_ok ((replayWorkflow_iff built).mp replay)).2
  cases restored with
  | fromDefinition restored =>
    obtain ⟨validated, found, workflow, configs, scope, valid, _, load, gate, inputs, _, inner⟩ :=
      restoreFromDefinition_ok.mp restored
    cases Except.ok.inj (load.symm.trans loaded)
    obtain ⟨replayed, _, _, replay, _, _, rfl⟩ := restoreLoaded_ok.mp inner
    exact identified_of_declared valid inputs (kept (built_of_runtimeInputs inputs) replay)
      (ensureRestorable_iff.mp gate).1
  | run built restored =>
    obtain ⟨_, configs, found, expected, _, load, identified, same, inner⟩ :=
      restoreRun_ok.mp restored
    cases Except.ok.inj (load.symm.trans loaded)
    obtain ⟨replayed, _, _, replay, _, _, rfl⟩ := restoreLoaded_ok.mp inner
    exact identified_of_live built (kept built replay) identified same

theorem Acted.identified {runtime reached : Runtime σ ν} {state next : DurableRunState}
    {action : Action} {result : Except RuntimeError Unit}
    (acted : Acted runtime state action result reached next) (allowed : runtime.Allowed action)
    (synced : Synced runtime state) (follows : Follows runtime state)
    (identified : Identified runtime state) : Identified reached next := by
  rcases acted.changes allowed synced with changed | same
  · have topology := changed.workflow
    have stored := changed.identity
    cases action with
    | configure configs identity =>
      exact identified_of_live follows.built (congrArg WorkflowGraph.topology topology) allowed.2.1
        stored
    | mutate workflow identity =>
      have after : reached.workflow = workflow := topology
      exact identified_of_live (after ▸ (acted.follows allowed synced follows).built) 
        (congrArg WorkflowGraph.topology after) allowed.2.1 stored
    | complete fact workflow =>
      refine identified.of_topology ?_ stored
      rw [topology]
      exact WorkflowGraph.topology_of_complete allowed.1
    | _ => exact identified.of_topology (congrArg WorkflowGraph.topology topology) stored
  · exact identified.of_topology (congrArg WorkflowGraph.topology same.workflow) same.identity

end Runtime

end Kernis
