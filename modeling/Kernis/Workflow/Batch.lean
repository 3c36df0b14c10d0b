/-
**What a batch of mutations does, and when it is accepted.**

* `Proper` — what one mutation must meet at its position: what was there, and what stands before it
  in the batch. `Applicable` — every mutation is proper, and the edges at the end form no cycle.
* `applies_iff` — the search after each edge and the search at the end refuse nothing else.
* `topology_of_perm` — the order of a batch does not show in the topology that it leaves.
* `batch_exact` — the whole contract, on every workflow that calls can build.
-/

import Kernis.Workflow.Edges

namespace Kernis

open Std

namespace WorkflowGraph

/-- A task exists at a position: it was there, or a mutation before the position adds it. -/
def KnownAfter (topology : WorkflowTopology) (earlier : List WorkflowMutation) (taskId : Id) : Prop :=
  taskId ∈ topology.tasks ∨ ∃ task, .addTask task ∈ earlier ∧ task.id = taskId

/-- An edge exists at a position. -/
def RequiresAfter (topology : WorkflowTopology) (earlier : List WorkflowMutation)
    (taskId dependency : Id) : Prop :=
  Requires topology taskId dependency ∨ .addDependency taskId dependency ∈ earlier

/-- **What a mutation must meet at its position**: a task is new; an edge joins known tasks, is new,
and does not lead out of a completed task. -/
def Proper (graph : WorkflowGraph) (earlier : List WorkflowMutation) : WorkflowMutation → Prop
  | .addTask task => ¬ KnownAfter graph.topology earlier task.id
  | .addDependency taskId dependency =>
    KnownAfter graph.topology earlier taskId ∧ KnownAfter graph.topology earlier dependency ∧
      graph.isCompleted taskId = false ∧ ¬ RequiresAfter graph.topology earlier taskId dependency

/-- **What a batch must meet**: each mutation at its position, and no cycle at the end. -/
structure Applicable (graph : WorkflowGraph) (batch : List WorkflowMutation) : Prop where
  proper : ∀ earlier mutation later, batch = earlier ++ mutation :: later →
    Proper graph earlier mutation
  acyclic : ∀ taskId, ¬ Relation.TransGen (RequiresAfter graph.topology batch) taskId taskId

variable {graph middle next : WorkflowGraph} {batch : List WorkflowMutation}
  {mutation : WorkflowMutation}

/-! ### What stands before a position -/

theorem mem_addedTask {task : Task} : task ∈ batch.filterMap addedTask ↔ .addTask task ∈ batch := by
  rw [List.mem_filterMap]
  constructor
  · rintro ⟨one, member, added⟩
    cases one with
    | addTask found =>
      cases added
      exact member
    | addDependency source target => cases added
  · exact fun member => ⟨_, member, rfl⟩

theorem mem_addedEdge {taskId dependency : Id} :
    (taskId, dependency) ∈ batch.filterMap addedEdge ↔ .addDependency taskId dependency ∈ batch := by
  rw [List.mem_filterMap]
  constructor
  · rintro ⟨one, member, added⟩
    cases one with
    | addTask found => cases added
    | addDependency source target =>
      cases added
      exact member
  · exact fun member => ⟨_, member, rfl⟩

/-- The tasks after a batch are those known at its end. -/
theorem knownAfter_iff (applied : graph.applyMutations batch = .ok next) {taskId : Id} :
    KnownAfter graph.topology batch taskId ↔ taskId ∈ next.topology.tasks := by
  have lookup := lookup_of_applyMutations applied taskId
  constructor
  · rintro (before | ⟨task, member, own⟩)
    · exact (grown_of_applyMutations applied).tasks taskId before
    · exact mem_of_lookup ((lookup task).mpr (.inr ⟨mem_addedTask.mpr member, own⟩))
  · intro known
    obtain ⟨task, found⟩ := exists_lookup_of_mem known
    rcases (lookup task).mp found with before | ⟨added, own⟩
    · exact .inl (mem_of_lookup before)
    · exact .inr ⟨task, mem_addedTask.mp added, own⟩

/-- The edges after a batch are those that exist at its end. -/
theorem requiresAfter_eq (applied : graph.applyMutations batch = .ok next) :
    RequiresAfter graph.topology batch = Requires next.topology := by
  funext taskId dependency
  refine propext ?_
  rw [requires_of_applyMutations applied, mem_addedEdge]
  exact Iff.rfl

theorem isCompleted_of_applyMutations (applied : graph.applyMutations batch = .ok next)
    (taskId : Id) : next.isCompleted taskId = graph.isCompleted taskId := by
  obtain ⟨topology, rfl⟩ := applyMutations_eq_ok applied
  rfl

/-- A mutation more at the end. -/
theorem applyMutations_snoc :
    graph.applyMutations (batch ++ [mutation]) = .ok next ↔
      ∃ middle, graph.applyMutations batch = .ok middle ∧
        middle.applyMutation mutation = .ok next := by
  rw [applyMutations_append]
  refine exists_congr fun middle => and_congr_right fun _ => ?_
  rw [applyMutations]
  cases middle.applyMutation mutation with
  | error error => simp
  | ok last => simp [applyMutations]

/-! ### One mutation -/

/-- **A mutation applies exactly when it is proper and its edge closes no cycle.** -/
theorem applyMutation_iff (applied : graph.applyMutations batch = .ok middle)
    (joined : Joined middle.topology)
    (open_ : ∀ taskId, ¬ Relation.TransGen (Requires middle.topology) taskId taskId) :
    (∃ next, middle.applyMutation mutation = .ok next) ↔ Proper graph batch mutation ∧
      ∀ taskId, ¬ Relation.TransGen (RequiresAfter graph.topology (batch ++ [mutation]))
        taskId taskId := by
  cases mutation with
  | addTask task =>
    have same : RequiresAfter graph.topology (batch ++ [.addTask task]) = Requires middle.topology := by
      rw [← requiresAfter_eq applied]
      funext taskId dependency
      simp [RequiresAfter]
    rw [same]
    change _ ↔ ¬ KnownAfter graph.topology batch task.id ∧ _
    rw [knownAfter_iff applied, applyMutation]
    constructor
    · rintro ⟨next, added⟩
      split at added
      · cases added
      · rename_i new
        exact ⟨new, open_⟩
    · rintro ⟨new, _⟩
      rw [if_neg new]
      exact ⟨_, rfl⟩
  | addDependency source target =>
    have same : RequiresAfter graph.topology (batch ++ [.addDependency source target]) =
        Requires (middle.topology.addEdge source target) := by
      funext taskId dependency
      refine propext ?_
      rw [mem_dependenciesOf_addEdge, ← requiresAfter_eq applied]
      simp [RequiresAfter, or_assoc]
    rw [same]
    change _ ↔ (KnownAfter graph.topology batch source ∧ KnownAfter graph.topology batch target ∧
      graph.isCompleted source = false ∧ ¬ RequiresAfter graph.topology batch source target) ∧ _
    rw [knownAfter_iff applied, knownAfter_iff applied, requiresAfter_eq applied,
      ← isCompleted_of_applyMutations applied]
    constructor
    · rintro ⟨next, added⟩
      have wider := (grown_of_applyMutation added).joined joined
      obtain ⟨known, knownTarget, unfinished, new, searched, rfl⟩ := addDependency_iff.mp added
      exact ⟨⟨known, knownTarget, unfinished, new⟩, acyclic_of_cyclePath wider searched⟩
    · rintro ⟨⟨known, knownTarget, unfinished, new⟩, acyclic⟩
      exact ⟨_, addDependency_iff.mpr
        ⟨known, knownTarget, unfinished, new, cyclePath_of_acyclic acyclic, rfl⟩⟩

/-! ### A whole batch -/

/-- A batch without its last mutation. -/
theorem Applicable.front (applicable : Applicable graph (batch ++ [mutation])) :
    Applicable graph batch where
  proper earlier one later split :=
    applicable.proper earlier one (later ++ [mutation]) (by rw [split]; simp)
  acyclic taskId cycle := by
    refine applicable.acyclic taskId (cycle.lift id fun source target required => ?_)
    exact required.imp id fun member => List.mem_append_left _ member

/-- A batch with one more mutation at its end. -/
theorem Applicable.snoc (applicable : Applicable graph batch)
    (proper : Proper graph batch mutation)
    (acyclic : ∀ taskId, ¬ Relation.TransGen (RequiresAfter graph.topology (batch ++ [mutation]))
      taskId taskId) : Applicable graph (batch ++ [mutation]) := by
  refine ⟨fun earlier one later split => ?_, acyclic⟩
  rcases List.eq_nil_or_concat later with rfl | ⟨front, last, rfl⟩
  · obtain ⟨rfl, same⟩ := List.append_inj' split rfl
    cases same
    exact proper
  · have inner : batch ++ [mutation] = (earlier ++ one :: front) ++ [last] := by
      rw [split]
      simp
    obtain ⟨rfl, _⟩ := List.append_inj' inner rfl
    exact applicable.proper earlier one front rfl

/-- **The mutations of a batch apply exactly when the batch is applicable**: the search after each
edge finds what the search at the end would. -/
theorem applies_iff (joined : Joined graph.topology)
    (open_ : ∀ taskId, ¬ Relation.TransGen (Requires graph.topology) taskId taskId) :
    (∃ next, graph.applyMutations batch = .ok next) ↔ Applicable graph batch := by
  induction batch using List.reverseRecOn with
  | nil =>
    have same : RequiresAfter graph.topology [] = Requires graph.topology := by
      funext taskId dependency
      simp [RequiresAfter]
    refine ⟨fun _ => ⟨fun earlier mutation later split => ?_, ?_⟩, fun _ => ⟨graph, rfl⟩⟩
    · exact absurd split.symm (List.append_ne_nil_of_right_ne_nil _ (List.cons_ne_nil _ _))
    · rw [same]
      exact open_
  | append_singleton batch mutation ih =>
    constructor
    · rintro ⟨next, applied⟩
      obtain ⟨middle, first, last⟩ := applyMutations_snoc.mp applied
      have before := ih.mp ⟨middle, first⟩
      have wider := (grown_of_applyMutations first).joined joined
      have closed := before.acyclic
      rw [requiresAfter_eq first] at closed
      obtain ⟨proper, acyclic⟩ := (applyMutation_iff first wider closed).mp ⟨next, last⟩
      exact before.snoc proper acyclic
    · intro applicable
      obtain ⟨middle, first⟩ := ih.mpr applicable.front
      have wider := (grown_of_applyMutations first).joined joined
      have closed := applicable.front.acyclic
      rw [requiresAfter_eq first] at closed
      obtain ⟨next, last⟩ := (applyMutation_iff first wider closed).mpr
        ⟨applicable.proper batch mutation [] rfl, applicable.acyclic⟩
      exact ⟨next, applyMutations_snoc.mpr ⟨middle, first, last⟩⟩

/-- **When a batch is accepted.** -/
theorem accepted_iff (invariant : Invariant graph) {revision : Nat} :
    (∃ answer, graph.applyBatch revision batch = .ok answer) ↔
      revision = graph.topologyRevision ∧ revision < u64Max ∧ batch ≠ [] ∧
        Applicable graph batch := by
  have applies : (∃ next, graph.applyMutations batch = .ok next) ↔ Applicable graph batch :=
    applies_iff invariant.joined invariant.acyclic
  constructor
  · rintro ⟨⟨record, next⟩, applied⟩
    obtain ⟨rfl, room, _⟩ := applyBatch_eq_ok applied
    obtain ⟨candidate, mutated, _⟩ := topology_of_applyBatch applied
    refine ⟨rfl, room, ?_, applies.mp ⟨candidate, mutated⟩⟩
    rintro rfl
    unfold applyBatch at applied
    rw [if_neg (not_not.mpr rfl), if_pos rfl] at applied
    cases applied
  · rintro ⟨rfl, room, some_, applicable⟩
    obtain ⟨candidate, mutated⟩ := applies.mpr applicable
    refine (applyBatch_iff some_ room).mpr ⟨candidate, mutated, cyclePath_of_acyclic ?_⟩
    rw [← requiresAfter_eq mutated]
    exact applicable.acyclic

/-! ### The order of a batch -/

/-- Topologies that keep the same tasks and the same edges are equal. -/
theorem topology_ext {topology other : WorkflowTopology} (joined : Joined topology)
    (joinedOther : Joined other)
    (tasks : ∀ (taskId : Id) (task : Task),
      topology.tasks[taskId]? = some task ↔ other.tasks[taskId]? = some task)
    (edges : ∀ taskId dependency,
      Requires topology taskId dependency ↔ Requires other taskId dependency) :
    topology = other := by
  obtain ⟨mine, dependencies⟩ := topology
  obtain ⟨others, othersDependencies⟩ := other
  have sameTasks : mine = others :=
    ExtTreeMap.ext_getElem? fun taskId => Option.ext (tasks taskId)
  have sameDependencies : dependencies = othersDependencies := by
    refine ExtTreeMap.ext_getElem? fun taskId => Option.ext fun set => ?_
    exact ⟨fun found => dependencies_grow joined edges found,
      fun found => dependencies_grow joinedOther (fun _ _ => (edges _ _).symm) found⟩
  rw [sameTasks, sameDependencies]

/-- **Two orders of the same mutations that both apply leave the same topology.** -/
theorem topology_of_perm {nextOther : WorkflowGraph} {other : List WorkflowMutation}
    (joined : Joined graph.topology) (same : batch.Perm other)
    (applied : graph.applyMutations batch = .ok next)
    (appliedOther : graph.applyMutations other = .ok nextOther) :
    next.topology = nextOther.topology := by
  refine topology_ext ((grown_of_applyMutations applied).joined joined)
    ((grown_of_applyMutations appliedOther).joined joined) (fun taskId task => ?_)
    fun taskId dependency => ?_
  · rw [lookup_of_applyMutations applied, lookup_of_applyMutations appliedOther, mem_addedTask,
      mem_addedTask, same.mem_iff]
  · rw [requires_of_applyMutations applied, requires_of_applyMutations appliedOther, mem_addedEdge,
      mem_addedEdge, same.mem_iff]

/-- **The contract of a batch**: when it is accepted, that a rejected one changes nothing, and what
an accepted one leaves, whatever its order. -/
structure BatchExact (graph : WorkflowGraph) (revision : Nat) (batch : List WorkflowMutation) :
    Prop where
  accepted : (∃ answer, graph.applyBatch revision batch = .ok answer) ↔
    revision = graph.topologyRevision ∧ revision < u64Max ∧ batch ≠ [] ∧ Applicable graph batch
  rejected : ∀ error, graph.applyBatch revision batch = .error error →
    graph.call (.applyBatch revision batch) = graph
  facts : ∀ record next, graph.applyBatch revision batch = .ok (record, next) →
    graph.call (.applyBatch revision batch) = next ∧ next.facts = graph.facts
  tasks : ∀ record next, graph.applyBatch revision batch = .ok (record, next) →
    ∀ taskId task, next.task taskId = some task ↔
      graph.task taskId = some task ∨ (.addTask task ∈ batch ∧ task.id = taskId)
  edges : ∀ record next, graph.applyBatch revision batch = .ok (record, next) →
    ∀ taskId dependency, Requires next.topology taskId dependency ↔
      Requires graph.topology taskId dependency ∨ .addDependency taskId dependency ∈ batch
  confluent : ∀ other, batch.Perm other → ∀ record next recordOther nextOther,
    graph.applyBatch revision batch = .ok (record, next) →
    graph.applyBatch revision other = .ok (recordOther, nextOther) →
    next.topology = nextOther.topology

/-- **A batch is atomic, exact and confluent**, on every workflow that calls can build. -/
theorem batch_exact (sequence : List GraphCall) (revision : Nat) (batch : List WorkflowMutation) :
    BatchExact (empty.calls sequence) revision batch := by
  have invariant := graph_invariant sequence
  refine ⟨accepted_iff invariant, fun error failed => ?_, fun record next applied => ?_,
    fun record next applied taskId task => ?_, fun record next applied taskId dependency => ?_,
    fun other same record next recordOther nextOther applied appliedOther => ?_⟩
  · simp only [call, failed]
  · obtain ⟨_, _, _, _, facts⟩ := applyBatch_eq_ok applied
    exact ⟨by simp only [call, applied], facts⟩
  · rw [← mem_addedTask]
    exact lookup_of_applyBatch applied taskId task
  · rw [← mem_addedEdge]
    exact requires_of_applyBatch applied taskId dependency
  · obtain ⟨candidate, mutated, topology⟩ := topology_of_applyBatch applied
    obtain ⟨candidateOther, mutatedOther, topologyOther⟩ := topology_of_applyBatch appliedOther
    rw [topology, topologyOther]
    exact topology_of_perm invariant.joined same mutated mutatedOther

end WorkflowGraph

end Kernis
