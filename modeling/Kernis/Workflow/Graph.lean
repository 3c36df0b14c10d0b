/-
**The workflow: a versioned topology and immutable completion facts.**

* `WorkflowTopology.cyclePath` — a depth-first search that returns the first cycle it closes.
* `WorkflowGraph.applyBatch` — an atomic batch of topology mutations at an expected revision.
* `WorkflowGraph.complete` — one completion fact; its prerequisites must be complete.
* `WorkflowGraph.replayWithFacts` — rebuilds a workflow from its mutation log and completion log.
-/

import Kernis.Core
import Kernis.Lib.DepthFirst

namespace Kernis

open Std

/-- Immutable task definition in the workflow topology. -/
structure Task where
  id : Id
  label : Text
deriving DecidableEq

/-- The mutable topology portion of a workflow. -/
structure WorkflowTopology where
  tasks : BTreeMap Id Task
  dependencies : BTreeMap Id (BTreeSet Id)
deriving DecidableEq

/-- A typed execution fact. -/
structure WorkflowCompletionRecord where
  taskId : Id
deriving DecidableEq

/-- Execution facts kept separately from the workflow topology. -/
structure ExecutionFacts where
  completed : BTreeSet Id
  completionLog : List WorkflowCompletionRecord
deriving DecidableEq

/-- A typed topology operation proposed by a planner. -/
inductive WorkflowMutation
  | addTask (task : Task)
  | addDependency (taskId dependencyId : Id)
deriving DecidableEq

/-- The record of one successful topology transition. -/
structure WorkflowMutationRecord where
  baseRevision : Nat
  resultingRevision : Nat
  mutations : List WorkflowMutation
deriving DecidableEq

/-- Structured reasons for rejecting a workflow mutation or fact. -/
inductive WorkflowGraphError
  | unknownTask (taskId : Id)
  | duplicateTask (taskId : Id)
  | duplicateDependency (task dependency : Id)
  | cycle (path : List Id)
  | completedTaskMutation (taskId : Id)
  | taskAlreadyCompleted (taskId : Id)
  | incompletePrerequisite (task dependency : Id)
  | revisionConflict (expected actual : Nat)
  | emptyMutationBatch
  | revisionExhausted (current : Nat)
  | replayRevisionMismatch (expected actual : Nat)
deriving DecidableEq

/-- The rendered error. -/
def WorkflowGraphError.render : WorkflowGraphError → Text
  | .unknownTask id => "unknown task: ".toList ++ id.asStr
  | .duplicateTask id => "duplicate task identity: ".toList ++ id.asStr
  | .duplicateDependency task dependency =>
    "duplicate dependency: ".toList ++ task.asStr ++ " already depends on ".toList ++
      dependency.asStr
  | .cycle path =>
    "workflow dependency cycle: ".toList ++ " -> ".toList.intercalate (path.map Id.asStr)
  | .completedTaskMutation id =>
    "completed task cannot have its definition or prerequisites changed: ".toList ++ id.asStr
  | .taskAlreadyCompleted id => "task is already completed: ".toList ++ id.asStr
  | .incompletePrerequisite task dependency =>
    "cannot complete ".toList ++ task.asStr ++ "; prerequisite is incomplete: ".toList ++
      dependency.asStr
  | .revisionConflict expected actual =>
    "workflow topology revision conflict: expected ".toList ++ digits expected ++
      ", actual ".toList ++ digits actual
  | .emptyMutationBatch => "workflow mutation batch is empty".toList
  | .revisionExhausted current =>
    "workflow topology revision exhausted at ".toList ++ digits current
  | .replayRevisionMismatch expected actual =>
    "workflow replay revision mismatch: expected ".toList ++ digits expected ++
      ", record has ".toList ++ digits actual

/-! ### Cycles -/

namespace WorkflowTopology

/-- The direct prerequisites of a task in deterministic order. -/
def dependenciesOf (topology : WorkflowTopology) (taskId : Id) : List Id :=
  match topology.dependencies[taskId]? with
  | none => []
  | some dependencies => dependencies.toList

/-- Every `(task, dependency)` edge in deterministic order. -/
def edges (topology : WorkflowTopology) : List (Id × Id) :=
  topology.dependencies.toList.flatMap fun (taskId, dependencies) =>
    dependencies.toList.map fun dependency => (taskId, dependency)

/-- Adds one edge. -/
def addEdge (topology : WorkflowTopology) (taskId dependencyId : Id) : WorkflowTopology :=
  let dependencies := (topology.dependencies[taskId]?).getD ∅
  { topology with
    dependencies := topology.dependencies.insert taskId (dependencies.insert dependencyId) }

/-- The search for a cycle: prerequisites in order, nothing refused, a cycle reported as its path. -/
def cyclePlan (topology : WorkflowTopology) : Exploration.Plan Id (List Id) where
  edges := topology.dependenciesOf
  refuse _ _ := none
  cycle := id

/-- The first dependency cycle found, including the repeated start. -/
def cyclePath (topology : WorkflowTopology) : Option (List Id) :=
  match Exploration.search topology.cyclePlan
      (topology.tasks.keys ++ topology.edges.map Prod.snd) topology.tasks.keys with
  | .error path => some path
  | .ok _ => none

end WorkflowTopology

/-! ### The workflow -/

/-- Versioned workflow state containing separate topology and execution facts. -/
structure WorkflowGraph where
  topology : WorkflowTopology
  facts : ExecutionFacts
  topologyRevision : Nat
  mutationLog : List WorkflowMutationRecord
deriving DecidableEq

namespace WorkflowGraph

/-- The empty workflow. -/
def empty : WorkflowGraph := ⟨⟨∅, ∅⟩, ⟨∅, []⟩, 0, []⟩

/-- The task with an identity, if it exists. -/
def task (graph : WorkflowGraph) (id : Id) : Option Task := graph.topology.tasks[id]?

/-- All tasks in deterministic identifier order. -/
def tasks (graph : WorkflowGraph) : List Task := graph.topology.tasks.values

/-- Whether a task has been recorded as completed. -/
def isCompleted (graph : WorkflowGraph) (id : Id) : Bool := graph.facts.completed.contains id

/-- The independent execution fact log. -/
def completionLog (graph : WorkflowGraph) : List WorkflowCompletionRecord :=
  graph.facts.completionLog

/-- The first direct prerequisite that is not completed. -/
def firstIncomplete (graph : WorkflowGraph) (taskId : Id) : Option Id :=
  (graph.topology.dependenciesOf taskId).find? fun dependency => !graph.isCompleted dependency

/-- Records a task completion without changing the topology revision. -/
def complete (graph : WorkflowGraph) (taskId : Id) : Except WorkflowGraphError WorkflowGraph :=
  if taskId ∉ graph.topology.tasks then .error (.unknownTask taskId)
  else if graph.isCompleted taskId then .error (.taskAlreadyCompleted taskId)
  else
    match graph.firstIncomplete taskId with
    | some dependency => .error (.incompletePrerequisite taskId dependency)
    | none => .ok { graph with facts :=
        ⟨graph.facts.completed.insert taskId, graph.facts.completionLog ++ [⟨taskId⟩]⟩ }

/-- Tasks that are not completed and whose prerequisites are all completed. -/
def readyTasks (graph : WorkflowGraph) : List Id :=
  graph.topology.tasks.keys.filter fun taskId =>
    !graph.isCompleted taskId && (graph.topology.dependenciesOf taskId).all graph.isCompleted

/-- Applies one topology mutation to a candidate. A rejected candidate is discarded by the batch,
so nothing is rolled back. -/
def applyMutation (graph : WorkflowGraph) : WorkflowMutation →
    Except WorkflowGraphError WorkflowGraph
  | .addTask task =>
    if task.id ∈ graph.topology.tasks then .error (.duplicateTask task.id)
    else .ok { graph with topology :=
        { graph.topology with tasks := graph.topology.tasks.insert task.id task } }
  | .addDependency taskId dependencyId =>
    if taskId ∉ graph.topology.tasks then .error (.unknownTask taskId)
    else if dependencyId ∉ graph.topology.tasks then .error (.unknownTask dependencyId)
    else if graph.isCompleted taskId then .error (.completedTaskMutation taskId)
    else if dependencyId ∈ graph.topology.dependenciesOf taskId then
      .error (.duplicateDependency taskId dependencyId)
    else
      match (graph.topology.addEdge taskId dependencyId).cyclePath with
      | some path => .error (.cycle path)
      | none => .ok { graph with topology := graph.topology.addEdge taskId dependencyId }

/-- Applies mutations in order; the first rejection rejects the candidate. -/
def applyMutations (graph : WorkflowGraph) : List WorkflowMutation →
    Except WorkflowGraphError WorkflowGraph
  | [] => .ok graph
  | mutation :: rest =>
    match graph.applyMutation mutation with
    | .error error => .error error
    | .ok next => next.applyMutations rest

/-- Applies a planner batch atomically at an expected revision. -/
def applyBatch (graph : WorkflowGraph) (expectedRevision : Nat) (batch : List WorkflowMutation) :
    Except WorkflowGraphError (WorkflowMutationRecord × WorkflowGraph) :=
  if expectedRevision ≠ graph.topologyRevision then
    .error (.revisionConflict expectedRevision graph.topologyRevision)
  else if batch = [] then .error .emptyMutationBatch
  else
    match checkedNext graph.topologyRevision with
    | none => .error (.revisionExhausted graph.topologyRevision)
    | some resultingRevision =>
      match graph.applyMutations batch with
      | .error error => .error error
      | .ok candidate =>
        match candidate.topology.cyclePath with
        | some path => .error (.cycle path)
        | none =>
          let record : WorkflowMutationRecord := ⟨graph.topologyRevision, resultingRevision, batch⟩
          .ok (record, { candidate with
            topologyRevision := resultingRevision
            mutationLog := candidate.mutationLog ++ [record] })

/-- Replays one record: its revisions must chain, and its batch must apply. -/
def replayRecord (graph : WorkflowGraph) (record : WorkflowMutationRecord) :
    Except WorkflowGraphError WorkflowGraph :=
  if record.baseRevision ≠ graph.topologyRevision then
    .error (.revisionConflict record.baseRevision graph.topologyRevision)
  else
    match checkedNext graph.topologyRevision with
    | none => .error (.revisionExhausted graph.topologyRevision)
    | some expectedResult =>
      if record.resultingRevision ≠ expectedResult then
        .error (.replayRevisionMismatch expectedResult record.resultingRevision)
      else
        match graph.applyBatch record.baseRevision record.mutations with
        | .error error => .error error
        | .ok (_, next) => .ok next

/-- Replays topology mutation records onto a workflow. -/
def replayFrom (graph : WorkflowGraph) : List WorkflowMutationRecord →
    Except WorkflowGraphError WorkflowGraph
  | [] => .ok graph
  | record :: rest =>
    match graph.replayRecord record with
    | .error error => .error error
    | .ok next => next.replayFrom rest

/-- Replays topology mutation records from an empty workflow. -/
def replay (records : List WorkflowMutationRecord) : Except WorkflowGraphError WorkflowGraph :=
  empty.replayFrom records

/-- Applies a completion log in order. -/
def completeAll (graph : WorkflowGraph) : List Id → Except WorkflowGraphError WorkflowGraph
  | [] => .ok graph
  | taskId :: rest =>
    match graph.complete taskId with
    | .error error => .error error
    | .ok next => next.completeAll rest

/-- Replays topology records and then applies an independent completion log. -/
def replayWithFacts (records : List WorkflowMutationRecord)
    (completions : List WorkflowCompletionRecord) : Except WorkflowGraphError WorkflowGraph :=
  match replay records with
  | .error error => .error error
  | .ok graph => graph.completeAll (completions.map WorkflowCompletionRecord.taskId)

/-! ### What completing does -/

section Complete

variable {graph next : WorkflowGraph} {taskId other : Id}

/-- **A completion adds one fact** about an unfinished task of the topology, and nothing else. -/
theorem complete_eq_ok (completed : graph.complete taskId = .ok next) :
    taskId ∈ graph.topology.tasks ∧ graph.isCompleted taskId = false ∧
      next = { graph with facts :=
        ⟨graph.facts.completed.insert taskId, graph.facts.completionLog ++ [⟨taskId⟩]⟩ } := by
  unfold complete at completed
  split at completed
  · cases completed
  · rename_i known
    split at completed
    · cases completed
    · rename_i unfinished
      split at completed
      · cases completed
      · cases completed
        exact ⟨not_not.mp known, Bool.eq_false_iff.mpr unfinished, rfl⟩

/-- A task that completes has no unfinished prerequisite. -/
theorem prerequisites_of_complete (completed : graph.complete taskId = .ok next) :
    ∀ dependency ∈ graph.topology.dependenciesOf taskId, graph.isCompleted dependency = true := by
  unfold complete at completed
  split at completed
  · cases completed
  · split at completed
    · cases completed
    · split at completed
      · cases completed
      · rename_i ready
        intro dependency member
        have done := List.find?_eq_none.mp ready dependency member
        simpa using done

theorem isCompleted_of_complete (completed : graph.complete taskId = .ok next) :
    next.isCompleted other = true ↔ other = taskId ∨ graph.isCompleted other = true := by
  obtain ⟨_, _, rfl⟩ := complete_eq_ok completed
  unfold isCompleted
  rw [← ExtTreeSet.mem_iff_contains, ← ExtTreeSet.mem_iff_contains, ExtTreeSet.mem_insert,
    Std.compare_eq_iff_eq, eq_comm]

theorem topology_of_complete (completed : graph.complete taskId = .ok next) :
    next.topology = graph.topology := by
  obtain ⟨_, _, rfl⟩ := complete_eq_ok completed
  rfl

/-- Completing one more task extends a completion log at its end. -/
theorem completeAll_append {ids : List Id} {middle : WorkflowGraph}
    (first : graph.completeAll ids = .ok middle) (last : middle.complete taskId = .ok next) :
    graph.completeAll (ids ++ [taskId]) = .ok next := by
  induction ids generalizing graph with
  | nil =>
    cases first
    rw [List.nil_append, completeAll, last]
    rfl
  | cons id rest ih =>
    rw [List.cons_append]
    unfold completeAll at first ⊢
    split at first
    · cases first
    · exact ih first

end Complete

/-! ### Replaying a workflow -/

/-- A topology mutation changes the topology only. -/
theorem applyMutation_eq_ok {graph next : WorkflowGraph} {mutation : WorkflowMutation}
    (applied : graph.applyMutation mutation = .ok next) :
    ∃ topology, next = { graph with topology := topology } := by
  cases mutation with
  | addTask task =>
    rw [applyMutation] at applied
    split at applied
    · cases applied
    · cases applied
      exact ⟨_, rfl⟩
  | addDependency taskId dependencyId =>
    rw [applyMutation] at applied
    split at applied
    · cases applied
    · split at applied
      · cases applied
      · split at applied
        · cases applied
        · split at applied
          · cases applied
          · split at applied
            · cases applied
            · cases applied
              exact ⟨_, rfl⟩

theorem applyMutations_eq_ok {graph next : WorkflowGraph} {batch : List WorkflowMutation}
    (applied : graph.applyMutations batch = .ok next) :
    ∃ topology, next = { graph with topology := topology } := by
  induction batch generalizing graph with
  | nil =>
    cases applied
    exact ⟨_, rfl⟩
  | cons mutation rest ih =>
    unfold applyMutations at applied
    split at applied
    · cases applied
    · rename_i middle first
      obtain ⟨_, rfl⟩ := applyMutation_eq_ok first
      obtain ⟨topology, rfl⟩ := ih applied
      exact ⟨topology, rfl⟩

/-- What a batch that applies leaves: one more record, at the next revision. -/
theorem applyBatch_eq_ok {graph next : WorkflowGraph} {revision : Nat}
    {batch : List WorkflowMutation} {record : WorkflowMutationRecord}
    (applied : graph.applyBatch revision batch = .ok (record, next)) :
    revision = graph.topologyRevision ∧ graph.topologyRevision < u64Max ∧
      record = ⟨graph.topologyRevision, graph.topologyRevision + 1, batch⟩ ∧
      next.mutationLog = graph.mutationLog ++ [record] ∧ next.facts = graph.facts := by
  unfold applyBatch at applied
  split at applied
  · cases applied
  · rename_i atHead
    split at applied
    · cases applied
    · split at applied
      · cases applied
      · rename_i resulting advanced
        obtain ⟨room, rfl⟩ := checkedNext_eq_some advanced
        split at applied
        · cases applied
        · rename_i candidate mutated
          obtain ⟨_, rfl⟩ := applyMutations_eq_ok mutated
          split at applied
          · cases applied
          · cases applied
            exact ⟨not_not.mp atHead, room, rfl, rfl, rfl⟩

end WorkflowGraph

end Kernis
