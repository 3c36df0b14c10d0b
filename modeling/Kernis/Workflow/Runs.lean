/-
**Every workflow that can be built.**

A workflow is driven by batches and completions in any order; a call that fails leaves it as it was.

* `Built` — the workflows so reached. `built_of_calls` has it for every sequence of calls.
* `Grown` — what a batch does to a topology: tasks and edges are added, and the prerequisites of a
  completed task stay.
* `Invariant` — edges join tasks, nothing is cyclic, completions follow prerequisites, and the logs
  agree with the rest. `invariant_of_built` is the run lemma.
* `replay_reproduces` — replaying all batches first and then all completions gives the same workflow.
-/

import Kernis.Workflow.Graph

namespace Kernis

open Std

namespace WorkflowGraph

/-! ### Calls -/

/-- One call of the workflow aggregate. -/
inductive GraphCall
  | applyBatch (expectedRevision : Nat) (batch : List WorkflowMutation)
  | complete (taskId : Id)

/-- Performs a call; a failed one changes nothing. -/
def call (graph : WorkflowGraph) : GraphCall → WorkflowGraph
  | .applyBatch expectedRevision batch =>
    match graph.applyBatch expectedRevision batch with
    | .ok (_, next) => next
    | .error _ => graph
  | .complete taskId =>
    match graph.complete taskId with
    | .ok next => next
    | .error _ => graph

/-- Performs calls in order. -/
def calls (graph : WorkflowGraph) (sequence : List GraphCall) : WorkflowGraph :=
  sequence.foldl call graph

/-- **The workflows that can be built.** -/
inductive Built : WorkflowGraph → Prop
  | empty : Built empty
  | batch {graph next : WorkflowGraph} {revision : Nat} {batch : List WorkflowMutation}
      {record : WorkflowMutationRecord} (built : Built graph)
      (applied : graph.applyBatch revision batch = .ok (record, next)) : Built next
  | complete {graph next : WorkflowGraph} {taskId : Id} (built : Built graph)
      (completed : graph.complete taskId = .ok next) : Built next

theorem Built.call {graph : WorkflowGraph} (built : Built graph) (one : GraphCall) :
    Built (graph.call one) := by
  cases one with
  | applyBatch revision batch =>
    cases applied : graph.applyBatch revision batch with
    | error error =>
      simp only [WorkflowGraph.call, applied]
      exact built
    | ok outcome =>
      simp only [WorkflowGraph.call, applied]
      exact built.batch applied
  | complete taskId =>
    cases completed : graph.complete taskId with
    | error error =>
      simp only [WorkflowGraph.call, completed]
      exact built
    | ok next =>
      simp only [WorkflowGraph.call, completed]
      exact built.complete completed

theorem built_of_calls (sequence : List GraphCall) : Built (empty.calls sequence) := by
  induction sequence using List.reverseRecOn with
  | nil => exact .empty
  | append_singleton sequence one ih =>
    unfold calls at ih ⊢
    rw [List.foldl_append]
    exact ih.call one

/-! ### What a batch does to a topology -/

/-- A prerequisite of a task. -/
def Requires (topology : WorkflowTopology) (taskId dependency : Id) : Prop :=
  dependency ∈ topology.dependenciesOf taskId

/-- Every edge joins two tasks, and no task has an empty set of prerequisites. -/
structure Joined (topology : WorkflowTopology) : Prop where
  joins : ∀ taskId dependency, Requires topology taskId dependency →
    taskId ∈ topology.tasks ∧ dependency ∈ topology.tasks
  nonempty : ∀ (taskId : Id) (dependencies : BTreeSet Id),
    topology.dependencies[taskId]? = some dependencies → dependencies.toList ≠ []

/-- **Tasks are added, and the prerequisites of a completed task stay.** -/
structure Grown (completed : Id → Bool) (before after : WorkflowTopology) : Prop where
  tasks : ∀ taskId, taskId ∈ before.tasks → taskId ∈ after.tasks
  joined : Joined before → Joined after
  frozen : ∀ taskId, completed taskId = true →
    after.dependenciesOf taskId = before.dependenciesOf taskId

theorem Grown.refl (completed : Id → Bool) (topology : WorkflowTopology) :
    Grown completed topology topology := ⟨fun _ => id, id, fun _ _ => rfl⟩

theorem Grown.trans {completed : Id → Bool} {first second third : WorkflowTopology}
    (left : Grown completed first second) (right : Grown completed second third) :
    Grown completed first third :=
  ⟨fun taskId member => right.tasks taskId (left.tasks taskId member), right.joined ∘ left.joined,
    fun taskId done => (right.frozen taskId done).trans (left.frozen taskId done)⟩

/-- The prerequisites after one more edge. -/
theorem dependencies_addEdge (topology : WorkflowTopology) (taskId dependencyId other : Id) :
    (topology.addEdge taskId dependencyId).dependencies[other]? =
      if taskId = other then
        some (((topology.dependencies[taskId]?).getD ∅).insert dependencyId)
      else topology.dependencies[other]? :=
  lookup_insert _ _ _ _

theorem dependenciesOf_addEdge_ne (topology : WorkflowTopology) {taskId dependencyId other : Id}
    (different : taskId ≠ other) :
    (topology.addEdge taskId dependencyId).dependenciesOf other = topology.dependenciesOf other := by
  unfold WorkflowTopology.dependenciesOf
  rw [dependencies_addEdge, if_neg different]

theorem mem_dependenciesOf_addEdge (topology : WorkflowTopology)
    {taskId dependencyId other dependency : Id} :
    Requires (topology.addEdge taskId dependencyId) other dependency ↔
      Requires topology other dependency ∨ (other = taskId ∧ dependency = dependencyId) := by
  by_cases same : taskId = other
  · subst same
    unfold Requires WorkflowTopology.dependenciesOf
    rw [dependencies_addEdge, if_pos rfl]
    simp only [ExtTreeSet.mem_toList, ExtTreeSet.mem_insert, Std.compare_eq_iff_eq, true_and]
    cases topology.dependencies[taskId]? with
    | none => simp [eq_comm]
    | some dependencies => simp [eq_comm, or_comm]
  · unfold Requires
    rw [dependenciesOf_addEdge_ne topology same]
    have other : ¬ (other = taskId ∧ dependency = dependencyId) := fun both => same both.1.symm
    simp [other]

/-- One mutation that applies only adds. -/
theorem grown_of_applyMutation {graph next : WorkflowGraph} {mutation : WorkflowMutation}
    (applied : graph.applyMutation mutation = .ok next) :
    Grown graph.isCompleted graph.topology next.topology := by
  cases mutation with
  | addTask task =>
    rw [applyMutation] at applied
    split at applied
    · cases applied
    · cases applied
      refine ⟨fun taskId member => (mem_insert_iff _ _ _ _).mpr (.inr member), fun joined => ?_,
        fun _ _ => rfl⟩
      refine ⟨fun taskId dependency required => ?_, joined.nonempty⟩
      obtain ⟨here, there⟩ := joined.joins taskId dependency required
      exact ⟨(mem_insert_iff _ _ _ _).mpr (.inr here), (mem_insert_iff _ _ _ _).mpr (.inr there)⟩
  | addDependency taskId dependencyId =>
    rw [applyMutation] at applied
    split at applied
    · cases applied
    · rename_i known
      split at applied
      · cases applied
      · rename_i knownDependency
        split at applied
        · cases applied
        · rename_i unfinished
          split at applied
          · cases applied
          · split at applied
            · cases applied
            · cases applied
              refine ⟨fun _ => id, fun joined => ⟨?_, ?_⟩, ?_⟩
              · intro other dependency required
                rcases (mem_dependenciesOf_addEdge _).mp required with old | ⟨rfl, rfl⟩
                · exact joined.joins other dependency old
                · exact ⟨not_not.mp known, not_not.mp knownDependency⟩
              · intro other dependencies found
                rw [dependencies_addEdge] at found
                split at found
                · cases found
                  intro none
                  have member : dependencyId ∈ ((graph.topology.dependencies[taskId]?).getD
                      ∅).insert dependencyId := ExtTreeSet.mem_insert_self
                  rw [← ExtTreeSet.mem_toList, none] at member
                  cases member
                · exact joined.nonempty other dependencies found
              · intro other done
                refine dependenciesOf_addEdge_ne _ ?_
                rintro rfl
                exact unfinished done

theorem grown_of_applyMutations {graph next : WorkflowGraph} {batch : List WorkflowMutation}
    (applied : graph.applyMutations batch = .ok next) :
    Grown graph.isCompleted graph.topology next.topology := by
  induction batch generalizing graph with
  | nil =>
    cases applied
    exact .refl _ _
  | cons mutation rest ih =>
    unfold applyMutations at applied
    split at applied
    · cases applied
    · rename_i middle first
      have rest := ih applied
      obtain ⟨topology, rfl⟩ := applyMutation_eq_ok first
      exact (grown_of_applyMutation first).trans rest

/-- **A batch that applies only adds, and leaves no cycle.** -/
theorem grown_of_applyBatch {graph next : WorkflowGraph} {revision : Nat}
    {batch : List WorkflowMutation} {record : WorkflowMutationRecord}
    (applied : graph.applyBatch revision batch = .ok (record, next)) :
    Grown graph.isCompleted graph.topology next.topology ∧ next.topology.cyclePath = none ∧
      next.topologyRevision = graph.topologyRevision + 1 := by
  unfold applyBatch at applied
  split at applied
  · cases applied
  · split at applied
    · cases applied
    · split at applied
      · cases applied
      · rename_i resulting advanced
        obtain ⟨_, rfl⟩ := checkedNext_eq_some advanced
        split at applied
        · cases applied
        · rename_i candidate mutated
          split at applied
          · cases applied
          · have grown := grown_of_applyMutations mutated
            cases applied
            exact ⟨grown, ‹_›, rfl⟩

/-! ### The invariant -/

/-- The tasks of a completion log. -/
def completedIds (graph : WorkflowGraph) : List Id :=
  graph.completionLog.map WorkflowCompletionRecord.taskId

theorem completedIds_of_complete {graph next : WorkflowGraph} {taskId : Id}
    (completed : graph.complete taskId = .ok next) :
    next.completedIds = graph.completedIds ++ [taskId] := by
  obtain ⟨_, _, rfl⟩ := complete_eq_ok completed
  simp [completedIds, completionLog]

theorem isCompleted_of_applyBatch {graph next : WorkflowGraph} {revision : Nat}
    {batch : List WorkflowMutation} {record : WorkflowMutationRecord}
    (applied : graph.applyBatch revision batch = .ok (record, next)) (taskId : Id) :
    next.isCompleted taskId = graph.isCompleted taskId := by
  obtain ⟨_, _, _, _, facts⟩ := applyBatch_eq_ok applied
  unfold isCompleted
  rw [facts]

theorem completedIds_of_applyBatch {graph next : WorkflowGraph} {revision : Nat}
    {batch : List WorkflowMutation} {record : WorkflowMutationRecord}
    (applied : graph.applyBatch revision batch = .ok (record, next)) :
    next.completedIds = graph.completedIds := by
  obtain ⟨_, _, _, _, facts⟩ := applyBatch_eq_ok applied
  unfold completedIds completionLog
  rw [facts]

/-- **What holds of every workflow**: its edges join tasks and form no cycle, its completion log
lists the completed tasks once each, after their prerequisites, and its mutation log counts the
revisions. -/
structure Invariant (graph : WorkflowGraph) : Prop where
  joined : Joined graph.topology
  acyclic : ∀ taskId, ¬ Relation.TransGen (Requires graph.topology) taskId taskId
  prerequisites : ∀ taskId dependency, graph.isCompleted taskId = true →
    Requires graph.topology taskId dependency → graph.isCompleted dependency = true
  listed : ∀ taskId, taskId ∈ graph.completedIds ↔ graph.isCompleted taskId = true
  distinct : graph.completedIds.Nodup
  ordered : ∀ front taskId back, graph.completedIds = front ++ taskId :: back →
    ∀ dependency, Requires graph.topology taskId dependency → dependency ∈ front
  revision : graph.topologyRevision = graph.mutationLog.length
  records : ∀ (index : Nat) (record : WorkflowMutationRecord),
    graph.mutationLog[index]? = some record →
    record.baseRevision = index ∧ record.resultingRevision = index + 1

/-- A topology whose edges start at tasks and in which no cycle is found has none. -/
theorem acyclic_of_search {topology : WorkflowTopology}
    (starts : ∀ taskId dependency, Requires topology taskId dependency → taskId ∈ topology.tasks)
    (none : topology.cyclePath = none) (taskId : Id) :
    ¬ Relation.TransGen (Requires topology) taskId taskId := by
  intro cycle
  have known : taskId ∈ topology.tasks := by
    obtain ⟨next, edge, _⟩ := Relation.TransGen.head'_iff.mp cycle
    exact starts taskId next edge
  unfold WorkflowTopology.cyclePath at none
  split at none
  · cases none
  · rename_i order searched
    refine Exploration.search_acyclic searched ?_ (fun node member =>
      List.mem_append_left _ member) (ExtTreeMap.mem_keys.mpr known) cycle
    intro node _ next edge _
    refine List.mem_append_right _ (List.mem_map.mpr ⟨(node, next), ?_, rfl⟩)
    change next ∈ topology.dependenciesOf node at edge
    unfold WorkflowTopology.dependenciesOf at edge
    unfold WorkflowTopology.edges
    split at edge
    · cases edge
    · rename_i dependencies found
      refine List.mem_flatMap.mpr ⟨(node, dependencies), ?_, List.mem_map.mpr ⟨next, edge, rfl⟩⟩
      exact ExtTreeMap.mem_toList_iff_getElem?_eq_some.mpr found

/-- A topology that joins tasks and in which no cycle is found has none. -/
theorem acyclic_of_cyclePath {topology : WorkflowTopology} (joined : Joined topology)
    (none : topology.cyclePath = none) (taskId : Id) :
    ¬ Relation.TransGen (Requires topology) taskId taskId :=
  acyclic_of_search (fun source target edge => (joined.joins source target edge).1) none taskId

theorem invariant_empty : Invariant empty where
  joined := ⟨fun taskId dependency required => by simp [Requires, WorkflowTopology.dependenciesOf, empty] at required,
    fun taskId dependencies found => by simp [empty] at found⟩
  acyclic taskId cycle := by
    obtain ⟨next, edge, _⟩ := Relation.TransGen.head'_iff.mp cycle
    simp [Requires, WorkflowTopology.dependenciesOf, empty] at edge
  prerequisites taskId dependency done := by simp [isCompleted, empty] at done
  listed taskId := by simp [completedIds, completionLog, isCompleted, empty]
  distinct := List.nodup_nil
  ordered front taskId back same := by simp [completedIds, completionLog, empty] at same
  revision := rfl
  records index record found := by simp [empty] at found

/-- A batch keeps the invariant. -/
theorem Invariant.batch {graph next : WorkflowGraph} {revision : Nat}
    {batch : List WorkflowMutation} {record : WorkflowMutationRecord}
    (invariant : Invariant graph)
    (applied : graph.applyBatch revision batch = .ok (record, next)) : Invariant next := by
  obtain ⟨grown, none, advanced⟩ := grown_of_applyBatch applied
  obtain ⟨_, _, rfl, log, facts⟩ := applyBatch_eq_ok applied
  have same := isCompleted_of_applyBatch applied
  have ids := completedIds_of_applyBatch applied
  have joined := grown.joined invariant.joined
  have frozen : ∀ taskId dependency, graph.isCompleted taskId = true →
      Requires next.topology taskId dependency → Requires graph.topology taskId dependency := by
    intro taskId dependency done required
    unfold Requires at required ⊢
    rwa [grown.frozen taskId done] at required
  refine ⟨joined, acyclic_of_cyclePath joined none, ?_, ?_, ?_, ?_, ?_, ?_⟩
  · intro taskId dependency done required
    rw [same] at done ⊢
    exact invariant.prerequisites taskId dependency done (frozen taskId dependency done required)
  · intro taskId
    rw [ids, same]
    exact invariant.listed taskId
  · rw [ids]
    exact invariant.distinct
  · intro front taskId back split dependency required
    rw [ids] at split
    have done : graph.isCompleted taskId = true := by
      rw [← invariant.listed, split]
      exact List.mem_append_right _ List.mem_cons_self
    exact invariant.ordered front taskId back split dependency
      (frozen taskId dependency done required)
  · rw [advanced, log, List.length_append, List.length_singleton, invariant.revision]
  · intro index record found
    rw [log, List.getElem?_append] at found
    split at found
    · exact invariant.records index record found
    · rename_i last
      have first : index = graph.mutationLog.length := by
        have bound := (List.getElem?_eq_some_iff.mp found).1
        rw [List.length_singleton] at bound
        omega
      rw [first, Nat.sub_self] at found
      cases found
      rw [first, invariant.revision]
      exact ⟨rfl, rfl⟩

/-- A completion keeps the invariant. -/
theorem Invariant.complete {graph next : WorkflowGraph} {taskId : Id} (invariant : Invariant graph)
    (completed : graph.complete taskId = .ok next) : Invariant next := by
  have done : ∀ other, next.isCompleted other = true ↔
      other = taskId ∨ graph.isCompleted other = true :=
    fun other => isCompleted_of_complete completed
  have ready := prerequisites_of_complete completed
  have topology := topology_of_complete completed
  obtain ⟨_, unfinished, same⟩ := complete_eq_ok completed
  have ids := completedIds_of_complete completed
  have absent : taskId ∉ graph.completedIds := by
    rw [invariant.listed, unfinished]
    exact Bool.false_ne_true
  refine ⟨?_, ?_, ?_, ?_, ?_, ?_, ?_, ?_⟩
  · rw [topology]
    exact invariant.joined
  · rw [topology]
    exact invariant.acyclic
  · intro other dependency finished required
    rw [topology] at required
    rw [done] at finished ⊢
    rcases finished with rfl | finished
    · exact .inr (ready dependency required)
    · exact .inr (invariant.prerequisites other dependency finished required)
  · intro other
    rw [ids, done, ← invariant.listed, List.mem_append, List.mem_singleton, or_comm]
  · rw [ids, List.nodup_append]
    refine ⟨invariant.distinct, List.nodup_singleton _, ?_⟩
    intro other member last single
    rw [List.mem_singleton.mp single]
    rintro rfl
    exact absent member
  · intro front other back split dependency required
    rw [topology] at required
    rw [ids] at split
    -- The last entry is the new one; every other one was there before.
    rcases List.eq_nil_or_concat back with rfl | ⟨early, last, rfl⟩
    · obtain ⟨rfl, final⟩ := List.append_inj' split rfl
      cases final
      rw [invariant.listed]
      exact ready dependency required
    · rw [List.concat_eq_append, ← List.cons_append, ← List.append_assoc] at split
      obtain ⟨inner, _⟩ := List.append_inj' split rfl
      exact invariant.ordered front other early inner dependency required
  · rw [same]
    exact invariant.revision
  · rw [same]
    exact invariant.records

theorem invariant_of_built {graph : WorkflowGraph} (built : Built graph) : Invariant graph := by
  induction built with
  | empty => exact invariant_empty
  | batch _ applied ih => exact ih.batch applied
  | complete _ completed ih => exact ih.complete completed

/-- **Workflow graph invariant**, after any sequence of calls. -/
theorem graph_invariant (sequence : List GraphCall) : Invariant (empty.calls sequence) :=
  invariant_of_built (built_of_calls sequence)

/-! ### Replaying in another order -/

/-- A workflow without its completions. -/
def unfinished (graph : WorkflowGraph) : WorkflowGraph := { graph with facts := ⟨∅, []⟩ }

/-- A mutation that applies also applies when nothing is completed. -/
theorem applyMutation_unfinished {graph next : WorkflowGraph} {mutation : WorkflowMutation}
    (applied : graph.applyMutation mutation = .ok next) :
    graph.unfinished.applyMutation mutation = .ok next.unfinished := by
  cases mutation with
  | addTask task =>
    simp only [applyMutation] at applied ⊢
    split at applied
    · cases applied
    · rename_i new
      cases applied
      exact if_neg new
  | addDependency taskId dependencyId =>
    simp only [applyMutation] at applied ⊢
    have open_ : ¬ graph.unfinished.isCompleted taskId = true := by
      simp [unfinished, isCompleted]
    split at applied
    · cases applied
    · rename_i known
      split at applied
      · cases applied
      · rename_i knownDependency
        split at applied
        · cases applied
        · split at applied
          · cases applied
          · rename_i new
            rw [show graph.unfinished.topology = graph.topology from rfl, if_neg known,
              if_neg knownDependency, if_neg open_, if_neg new]
            split at applied
            · cases applied
            · cases applied
              rfl

theorem applyMutations_unfinished {graph next : WorkflowGraph} {batch : List WorkflowMutation}
    (applied : graph.applyMutations batch = .ok next) :
    graph.unfinished.applyMutations batch = .ok next.unfinished := by
  induction batch generalizing graph with
  | nil =>
    cases applied
    rfl
  | cons mutation rest ih =>
    unfold applyMutations at applied
    split at applied
    · cases applied
    · rename_i middle first
      rw [applyMutations, applyMutation_unfinished first]
      exact ih applied

/-- **A batch that applies also applies when nothing is completed**, with the same topology. -/
theorem applyBatch_unfinished {graph next : WorkflowGraph} {revision : Nat}
    {batch : List WorkflowMutation} {record : WorkflowMutationRecord}
    (applied : graph.applyBatch revision batch = .ok (record, next)) :
    graph.unfinished.applyBatch revision batch = .ok (record, next.unfinished) := by
  unfold applyBatch at applied ⊢
  split at applied
  · cases applied
  · rename_i atHead
    split at applied
    · cases applied
    · rename_i nonempty
      split at applied
      · cases applied
      · rename_i resulting advanced
        split at applied
        · cases applied
        · rename_i candidate mutated
          split at applied
          · cases applied
          · rename_i sound
            cases applied
            have bare : candidate.unfinished.topology.cyclePath = none := sound
            rw [show graph.unfinished.topologyRevision = graph.topologyRevision from rfl,
              if_neg atHead, if_neg nonempty, advanced]
            simp only [applyMutations_unfinished mutated, bare]
            rfl

theorem replayFrom_append {graph middle : WorkflowGraph} {records : List WorkflowMutationRecord}
    (first : graph.replayFrom records = .ok middle) (record : WorkflowMutationRecord) :
    graph.replayFrom (records ++ [record]) = middle.replayRecord record := by
  induction records generalizing graph with
  | nil =>
    cases first
    rw [List.nil_append, replayFrom]
    cases middle.replayRecord record <;> rfl
  | cons head rest ih =>
    rw [List.cons_append]
    unfold replayFrom at first ⊢
    split at first
    · cases first
    · exact ih first

/-- The mutation log replays to the workflow without its completions. -/
theorem replay_unfinished {graph : WorkflowGraph} (built : Built graph) :
    replay graph.mutationLog = .ok graph.unfinished := by
  induction built with
  | empty => rfl
  | @batch graph next revision batch record built applied ih =>
    obtain ⟨atHead, room, rfl, log, _⟩ := applyBatch_eq_ok applied
    rw [log, replay, replayFrom_append ih, replayRecord]
    rw [show graph.unfinished.topologyRevision = graph.topologyRevision from rfl,
      checkedNext_of_lt room]
    subst atHead
    simp only [ne_eq, not_true_eq_false, if_false, applyBatch_unfinished applied]
  | complete _ completed ih =>
    obtain ⟨_, _, rfl⟩ := complete_eq_ok completed
    exact ih

/-- A workflow over another topology. -/
def onTopology (graph other : WorkflowGraph) : WorkflowGraph := { other with facts := graph.facts }

/-- **A completion log replays over a larger topology** that keeps the prerequisites of its tasks. -/
theorem completeAll_onTopology (other : WorkflowGraph) {ids : List Id}
    {graph final : WorkflowGraph}
    (tasks : ∀ taskId ∈ ids, taskId ∈ graph.topology.tasks → taskId ∈ other.topology.tasks)
    (frozen : ∀ taskId ∈ ids, other.topology.dependenciesOf taskId =
      graph.topology.dependenciesOf taskId)
    (completed : graph.completeAll ids = .ok final) :
    (graph.onTopology other).completeAll ids = .ok (final.onTopology other) := by
  induction ids generalizing graph with
  | nil =>
    cases completed
    rfl
  | cons taskId rest ih =>
    unfold completeAll at completed ⊢
    split at completed
    · cases completed
    · rename_i next first
      obtain ⟨tasksFirst, tasksRest⟩ := List.forall_mem_cons.mp tasks
      obtain ⟨frozenFirst, frozenRest⟩ := List.forall_mem_cons.mp frozen
      have topology := topology_of_complete first
      have moved : (graph.onTopology other).complete taskId = .ok (next.onTopology other) := by
        have ready := prerequisites_of_complete first
        obtain ⟨known, unfinished, rfl⟩ := complete_eq_ok first
        have found : (graph.onTopology other).firstIncomplete taskId = none := by
          unfold firstIncomplete
          rw [List.find?_eq_none]
          intro dependency member
          have same : dependency ∈ graph.topology.dependenciesOf taskId := by
            rw [← frozenFirst]
            exact member
          have done : (graph.onTopology other).isCompleted dependency = true := ready dependency same
          rw [done]
          decide
        have there : taskId ∈ (graph.onTopology other).topology.tasks := tasksFirst known
        have open_ : ¬ (graph.onTopology other).isCompleted taskId = true := by
          rw [show (graph.onTopology other).isCompleted taskId = graph.isCompleted taskId from rfl,
            unfinished]
          exact Bool.false_ne_true
        unfold complete
        rw [if_neg (not_not.mpr there), if_neg open_, found]
        rfl
      rw [moved]
      refine ih ?_ ?_ completed
      · rw [topology]
        exact tasksRest
      · rw [topology]
        exact frozenRest

/-- The completion log replays over the final topology. -/
theorem completeAll_unfinished {graph : WorkflowGraph} (built : Built graph) :
    graph.unfinished.completeAll graph.completedIds = .ok graph := by
  induction built with
  | empty => rfl
  | @batch graph next revision batch record built applied ih =>
    have invariant := invariant_of_built built
    obtain ⟨grown, _, _⟩ := grown_of_applyBatch applied
    obtain ⟨_, _, _, _, facts⟩ := applyBatch_eq_ok applied
    have ids := completedIds_of_applyBatch applied
    have tasks : ∀ taskId ∈ graph.completedIds, taskId ∈ graph.unfinished.topology.tasks →
        taskId ∈ next.topology.tasks := fun taskId _ known => grown.tasks taskId known
    have frozen : ∀ taskId ∈ graph.completedIds, next.topology.dependenciesOf taskId =
        graph.unfinished.topology.dependenciesOf taskId := fun taskId member =>
      grown.frozen taskId ((invariant.listed taskId).mp member)
    have moved := completeAll_onTopology next tasks frozen ih
    have whole : graph.onTopology next = next := by
      rw [onTopology, ← facts]
    rw [whole] at moved
    rw [ids]
    exact moved
  | @complete graph next taskId _ completed ih =>
    have extended := completeAll_append ih completed
    rw [← completedIds_of_complete completed] at extended
    obtain ⟨_, _, rfl⟩ := complete_eq_ok completed
    exact extended

/-! ### What a replay completes -/

/-- Replaying topology records completes nothing. -/
theorem facts_of_replayFrom {graph next : WorkflowGraph} {records : List WorkflowMutationRecord}
    (replayed : graph.replayFrom records = .ok next) : next.facts = graph.facts := by
  induction records generalizing graph with
  | nil =>
    cases replayed
    rfl
  | cons record rest ih =>
    unfold replayFrom at replayed
    split at replayed
    · cases replayed
    · rename_i middle first
      rw [ih replayed]
      unfold replayRecord at first
      split at first
      · cases first
      · split at first
        · cases first
        · split at first
          · cases first
          · split at first
            · cases first
            · rename_i applied
              cases first
              exact (applyBatch_eq_ok applied).2.2.2.2

/-- **What a completion log changes**: the log, and not the topology. -/
theorem completeAll_eq_ok {graph next : WorkflowGraph} {ids : List Id}
    (completed : graph.completeAll ids = .ok next) :
    next.completedIds = graph.completedIds ++ ids ∧ next.topology = graph.topology := by
  induction ids generalizing graph with
  | nil =>
    cases completed
    exact ⟨(List.append_nil _).symm, rfl⟩
  | cons id rest ih =>
    rw [completeAll] at completed
    split at completed
    · cases completed
    · rename_i middle first
      obtain ⟨log, topology⟩ := ih completed
      refine ⟨?_, topology.trans (topology_of_complete first)⟩
      rw [log, completedIds_of_complete first, List.append_assoc]
      rfl

theorem isCompleted_of_completeAll {graph next : WorkflowGraph} {ids : List Id} {taskId : Id}
    (completed : graph.completeAll ids = .ok next) :
    next.isCompleted taskId = true ↔ taskId ∈ ids ∨ graph.isCompleted taskId = true := by
  induction ids generalizing graph with
  | nil =>
    cases completed
    simp
  | cons first rest ih =>
    unfold completeAll at completed
    split at completed
    · cases completed
    · rename_i middle one
      rw [ih completed, isCompleted_of_complete one, List.mem_cons]
      tauto

/-- **A replay completes exactly the tasks of its completion log.** -/
theorem isCompleted_of_replayWithFacts {records : List WorkflowMutationRecord}
    {completions : List WorkflowCompletionRecord} {graph : WorkflowGraph} {taskId : Id}
    (replayed : replayWithFacts records completions = .ok graph) :
    graph.isCompleted taskId = true ↔
      taskId ∈ completions.map WorkflowCompletionRecord.taskId := by
  unfold replayWithFacts at replayed
  split at replayed
  · cases replayed
  · rename_i base first
    have facts := facts_of_replayFrom first
    have nothing : base.isCompleted taskId = false := by
      unfold isCompleted
      rw [facts]
      simp [empty]
    rw [isCompleted_of_completeAll replayed, nothing]
    simp

/-- What a replay builds can be built. -/
theorem built_of_replayFrom {graph next : WorkflowGraph} {records : List WorkflowMutationRecord}
    (built : Built graph) (replayed : graph.replayFrom records = .ok next) : Built next := by
  induction records generalizing graph with
  | nil =>
    cases replayed
    exact built
  | cons record rest ih =>
    unfold replayFrom at replayed
    split at replayed
    · cases replayed
    · rename_i middle first
      refine ih ?_ replayed
      unfold replayRecord at first
      split at first
      · cases first
      · split at first
        · cases first
        · split at first
          · cases first
          · split at first
            · cases first
            · rename_i applied
              cases first
              exact built.batch applied

theorem Built.unfinished {graph : WorkflowGraph} (built : Built graph) :
    Built graph.unfinished :=
  built_of_replayFrom .empty (replay_unfinished built)

theorem built_of_completeAll {graph next : WorkflowGraph} {ids : List Id} (built : Built graph)
    (completed : graph.completeAll ids = .ok next) : Built next := by
  induction ids generalizing graph with
  | nil =>
    cases completed
    exact built
  | cons taskId rest ih =>
    unfold completeAll at completed
    split at completed
    · cases completed
    · exact ih (built.complete ‹_›) completed

/-- **Workflow replay reproduces the graph**, after any sequence of calls: all batches first, then all
completions. -/
theorem replay_reproduces (sequence : List GraphCall) :
    replayWithFacts (empty.calls sequence).mutationLog (empty.calls sequence).completionLog =
      .ok (empty.calls sequence) := by
  have built := built_of_calls sequence
  unfold replayWithFacts
  rw [replay_unfinished built]
  exact completeAll_unfinished built

/-! ### The tasks of a workflow -/

/-- The task that a mutation adds. -/
def addedTask : WorkflowMutation → Option Task
  | .addTask task => some task
  | .addDependency _ _ => none

theorem lookup_of_applyMutation {graph next : WorkflowGraph} {mutation : WorkflowMutation}
    (applied : graph.applyMutation mutation = .ok next) (taskId : Id) (task : Task) :
    next.topology.tasks[taskId]? = some task ↔ graph.topology.tasks[taskId]? = some task ∨
      (addedTask mutation = some task ∧ task.id = taskId) := by
  cases mutation with
  | addTask added =>
    rw [applyMutation] at applied
    split at applied
    · cases applied
    · rename_i new
      cases applied
      show (graph.topology.tasks.insert added.id added)[taskId]? = some task ↔ _
      rw [lookup_insert]
      by_cases same : added.id = taskId
      · subst same
        simp only [if_pos, addedTask, Option.some.injEq, lookup_none_of_not_mem new, reduceCtorEq,
          false_or]
        exact ⟨fun same => ⟨same, same ▸ rfl⟩, fun same => same.1⟩
      · rw [if_neg same]
        refine ⟨.inl, fun found => found.resolve_right ?_⟩
        rintro ⟨⟨⟩, own⟩
        exact same own
  | addDependency source target =>
    rw [applyMutation] at applied
    repeat' split at applied
    all_goals cases applied
    simp [addedTask, WorkflowTopology.addEdge]

/-- **The tasks after a batch**: those from before and those that it adds. -/
theorem lookup_of_applyMutations {graph next : WorkflowGraph} {batch : List WorkflowMutation}
    (applied : graph.applyMutations batch = .ok next) (taskId : Id) (task : Task) :
    next.topology.tasks[taskId]? = some task ↔ graph.topology.tasks[taskId]? = some task ∨
      (task ∈ batch.filterMap addedTask ∧ task.id = taskId) := by
  induction batch generalizing graph with
  | nil =>
    cases applied
    simp
  | cons mutation rest ih =>
    rw [applyMutations] at applied
    split at applied
    · cases applied
    · rename_i middle first
      rw [ih applied, lookup_of_applyMutation first]
      cases added : addedTask mutation with
      | none => simp [added]
      | some one =>
        simp only [List.filterMap_cons, added, Option.some.injEq, List.mem_cons, or_assoc,
          or_and_right, eq_comm]

/-- The topology after a batch is that of its candidate. -/
theorem topology_of_applyBatch {graph next : WorkflowGraph} {revision : Nat}
    {batch : List WorkflowMutation} {record : WorkflowMutationRecord}
    (applied : graph.applyBatch revision batch = .ok (record, next)) :
    ∃ candidate, graph.applyMutations batch = .ok candidate ∧
      next.topology = candidate.topology := by
  unfold applyBatch at applied
  split at applied
  · cases applied
  · split at applied
    · cases applied
    · split at applied
      · cases applied
      · split at applied
        · cases applied
        · rename_i candidate mutated
          split at applied
          · cases applied
          · cases applied
            exact ⟨candidate, mutated, rfl⟩

theorem lookup_of_applyBatch {graph next : WorkflowGraph} {revision : Nat}
    {batch : List WorkflowMutation} {record : WorkflowMutationRecord}
    (applied : graph.applyBatch revision batch = .ok (record, next)) (taskId : Id) (task : Task) :
    next.topology.tasks[taskId]? = some task ↔ graph.topology.tasks[taskId]? = some task ∨
      (task ∈ batch.filterMap addedTask ∧ task.id = taskId) := by
  obtain ⟨candidate, mutated, topology⟩ := topology_of_applyBatch applied
  rw [topology]
  exact lookup_of_applyMutations mutated taskId task

/-- The edge that a mutation adds. -/
def addedEdge : WorkflowMutation → Option (Id × Id)
  | .addTask _ => none
  | .addDependency taskId dependencyId => some (taskId, dependencyId)

theorem requires_of_applyMutation {graph next : WorkflowGraph} {mutation : WorkflowMutation}
    (applied : graph.applyMutation mutation = .ok next) (taskId dependency : Id) :
    Requires next.topology taskId dependency ↔ Requires graph.topology taskId dependency ∨
      addedEdge mutation = some (taskId, dependency) := by
  cases mutation with
  | addTask added =>
    rw [applyMutation] at applied
    split at applied
    · cases applied
    · cases applied
      simp [addedEdge, Requires, WorkflowTopology.dependenciesOf]
  | addDependency source target =>
    rw [applyMutation] at applied
    repeat' split at applied
    all_goals cases applied
    rw [mem_dependenciesOf_addEdge, addedEdge, Option.some.injEq, Prod.mk.injEq]
    simp only [eq_comm]

/-- **The prerequisites after a batch**: those from before and those that it adds. -/
theorem requires_of_applyMutations {graph next : WorkflowGraph} {batch : List WorkflowMutation}
    (applied : graph.applyMutations batch = .ok next) (taskId dependency : Id) :
    Requires next.topology taskId dependency ↔ Requires graph.topology taskId dependency ∨
      (taskId, dependency) ∈ batch.filterMap addedEdge := by
  induction batch generalizing graph with
  | nil =>
    cases applied
    simp
  | cons mutation rest ih =>
    rw [applyMutations] at applied
    split at applied
    · cases applied
    · rename_i middle first
      rw [ih applied, requires_of_applyMutation first]
      cases added : addedEdge mutation with
      | none => simp [added]
      | some one =>
        simp only [List.filterMap_cons, added, Option.some.injEq, List.mem_cons, or_assoc, eq_comm]

theorem requires_of_applyBatch {graph next : WorkflowGraph} {revision : Nat}
    {batch : List WorkflowMutation} {record : WorkflowMutationRecord}
    (applied : graph.applyBatch revision batch = .ok (record, next)) (taskId dependency : Id) :
    Requires next.topology taskId dependency ↔ Requires graph.topology taskId dependency ∨
      (taskId, dependency) ∈ batch.filterMap addedEdge := by
  obtain ⟨candidate, mutated, topology⟩ := topology_of_applyBatch applied
  rw [topology]
  exact requires_of_applyMutations mutated taskId dependency

/-- The edges of a topology are its prerequisites. -/
theorem mem_edges_iff {topology : WorkflowTopology} {taskId dependency : Id} :
    (taskId, dependency) ∈ topology.edges ↔ Requires topology taskId dependency := by
  unfold WorkflowTopology.edges Requires WorkflowTopology.dependenciesOf
  rw [List.mem_flatMap]
  constructor
  · rintro ⟨⟨source, dependencies⟩, listed, member⟩
    obtain ⟨target, inside, same⟩ := List.mem_map.mp member
    cases same
    rw [ExtTreeMap.mem_toList_iff_getElem?_eq_some.mp listed]
    exact inside
  · intro required
    split at required
    · cases required
    · rename_i dependencies found
      exact ⟨(taskId, dependencies), ExtTreeMap.mem_toList_iff_getElem?_eq_some.mpr found,
        List.mem_map.mpr ⟨dependency, required, rfl⟩⟩

/-- The prerequisites determine the sets of prerequisites that are stored. -/
theorem dependencies_grow {topology other : WorkflowTopology} (joined : Joined topology)
    (same : ∀ taskId dependency,
      Requires topology taskId dependency ↔ Requires other taskId dependency) :
    Grows topology.dependencies other.dependencies := by
  intro taskId dependencies found
  have listed : topology.dependenciesOf taskId = dependencies.toList := by
    unfold WorkflowTopology.dependenciesOf
    rw [found]
  obtain ⟨first, member⟩ := List.exists_mem_of_ne_nil _ (joined.nonempty taskId dependencies found)
  have required : Requires other taskId first := (same taskId first).mp (by
    unfold Requires
    rw [listed]
    exact member)
  unfold Requires WorkflowTopology.dependenciesOf at required
  split at required
  · cases required
  · rename_i others foundOther
    have listedOther : other.dependenciesOf taskId = others.toList := by
      unfold WorkflowTopology.dependenciesOf
      rw [foundOther]
    rw [foundOther]
    refine congrArg some (ExtTreeSet.ext_mem fun dependency => ?_)
    have alike := same taskId dependency
    unfold Requires at alike
    rw [listed, listedOther, ExtTreeSet.mem_toList, ExtTreeSet.mem_toList] at alike
    exact alike.symm

/-- Workflows list the same edges exactly when they have the same prerequisites. -/
theorem edges_eq_iff {topology other : WorkflowTopology} (joined : Joined topology)
    (joinedOther : Joined other) : topology.edges = other.edges ↔ ∀ taskId dependency,
      Requires topology taskId dependency ↔ Requires other taskId dependency := by
  constructor
  · intro same taskId dependency
    rw [← mem_edges_iff, same, mem_edges_iff]
  · intro same
    have dependencies : topology.dependencies = other.dependencies := by
      refine ExtTreeMap.ext_getElem? fun taskId => Option.ext fun set => ?_
      exact ⟨fun found => dependencies_grow joined same found,
        fun found => dependencies_grow joinedOther (fun _ _ => (same _ _).symm) found⟩
    unfold WorkflowTopology.edges
    rw [dependencies]

/-- A task is kept under its own identity. -/
theorem id_of_task {graph : WorkflowGraph} (built : Built graph) {taskId : Id} {task : Task}
    (found : graph.topology.tasks[taskId]? = some task) : task.id = taskId := by
  induction built with
  | empty => simp [empty] at found
  | batch _ applied ih =>
    rcases (lookup_of_applyBatch applied taskId task).mp found with before | ⟨_, own⟩
    · exact ih before
    · exact own
  | complete _ completed ih =>
    rw [topology_of_complete completed] at found
    exact ih found

/-- Workflows list the same tasks exactly when they look up the same tasks. -/
theorem tasks_eq_iff {graph other : WorkflowGraph} (built : Built graph) (builtOther : Built other) :
    graph.tasks = other.tasks ↔
      ∀ taskId : Id, graph.topology.tasks[taskId]? = other.topology.tasks[taskId]? := by
  unfold tasks
  constructor
  · intro same taskId
    rw [values_eq_valuesOf, values_eq_valuesOf] at same
    have indexed : Indexes Task.id (valuesOf graph.topology.tasks) graph.topology.tasks :=
      .of_values fun _ _ => id_of_task built
    have indexedOther : Indexes Task.id (valuesOf other.topology.tasks) other.topology.tasks :=
      .of_values fun _ _ => id_of_task builtOther
    rw [same] at indexed
    rw [indexed.eq_of_same_history indexedOther]
  · intro same
    rw [ExtTreeMap.ext_getElem? same]

/-- The tasks of a workflow, by identity. -/
theorem mem_tasks_iff {graph : WorkflowGraph} (built : Built graph) {taskId : Id} :
    taskId ∈ graph.topology.tasks ↔ taskId ∈ graph.tasks.map Task.id := by
  rw [tasks, values_eq_valuesOf]
  exact (Indexes.of_values fun _ _ => id_of_task built).mem_iff

end WorkflowGraph

end Kernis
