/-
**The order in which a batch adds its edges.**

* `Fits graph edges` — what a list of edges must meet: known ends, open tasks, no repetition, and no
  cycle together with the edges that are there. It does not depend on the order.
* `Fits.of_applied`, `Fits.applies` — edges apply one after the other, with a search after each,
  exactly when they fit. `applyBatch_edges_iff` — the same for a batch that adds tasks first.
-/

import Kernis.Workflow.Runs

namespace Kernis

open Std

namespace WorkflowGraph

/-- The mutations that add edges. -/
def addEdges (edges : List (Id × Id)) : List WorkflowMutation :=
  edges.map fun edge => .addDependency edge.1 edge.2

/-- The prerequisites of a topology together with more edges. -/
def RequiresWith (topology : WorkflowTopology) (edges : List (Id × Id)) (taskId dependency : Id) :
    Prop := Requires topology taskId dependency ∨ (taskId, dependency) ∈ edges

/-- **What a list of edges must meet to be added.** -/
structure Fits (graph : WorkflowGraph) (edges : List (Id × Id)) : Prop where
  known : ∀ edge ∈ edges, edge.1 ∈ graph.topology.tasks ∧ edge.2 ∈ graph.topology.tasks
  unfinished : ∀ edge ∈ edges, graph.isCompleted edge.1 = false
  fresh : ∀ edge ∈ edges, ¬ Requires graph.topology edge.1 edge.2
  distinct : edges.Nodup
  acyclic : ∀ taskId, ¬ Relation.TransGen (RequiresWith graph.topology edges) taskId taskId

/-- The order of the edges does not matter. -/
theorem Fits.perm {graph : WorkflowGraph} {edges others : List (Id × Id)} (fits : Fits graph edges)
    (same : edges.Perm others) : Fits graph others where
  known edge member := fits.known edge (same.mem_iff.mpr member)
  unfinished edge member := fits.unfinished edge (same.mem_iff.mpr member)
  fresh edge member := fits.fresh edge (same.mem_iff.mpr member)
  distinct := same.nodup_iff.mp fits.distinct
  acyclic taskId cycle := by
    refine fits.acyclic taskId (cycle.lift id fun source target required => ?_)
    exact required.imp id same.mem_iff.mpr

/-- A topology without a cycle passes the search. -/
theorem cyclePath_of_acyclic {topology : WorkflowTopology}
    (acyclic : ∀ taskId, ¬ Relation.TransGen (Requires topology) taskId taskId) :
    topology.cyclePath = none := by
  unfold WorkflowTopology.cyclePath
  split
  · rename_i path failed
    obtain ⟨taskId, cycle⟩ := Exploration.cycle_of_search (fun _ _ _ => rfl) failed
    exact absurd cycle (acyclic taskId)
  · rfl

/-- One edge and the rest, before and after the edge is added. -/
theorem requiresWith_cons (topology : WorkflowTopology) (edge : Id × Id) (edges : List (Id × Id))
    (taskId dependency : Id) :
    RequiresWith topology (edge :: edges) taskId dependency ↔
      RequiresWith (topology.addEdge edge.1 edge.2) edges taskId dependency := by
  unfold RequiresWith
  rw [mem_dependenciesOf_addEdge, List.mem_cons, or_assoc, Prod.ext_iff]

theorem acyclic_cons {topology : WorkflowTopology} {edge : Id × Id} {edges : List (Id × Id)} :
    (∀ taskId, ¬ Relation.TransGen (RequiresWith topology (edge :: edges)) taskId taskId) ↔
      ∀ taskId, ¬ Relation.TransGen (RequiresWith (topology.addEdge edge.1 edge.2) edges)
        taskId taskId := by
  have same : RequiresWith topology (edge :: edges) =
      RequiresWith (topology.addEdge edge.1 edge.2) edges := by
    funext taskId dependency
    exact propext (requiresWith_cons topology edge edges taskId dependency)
  rw [same]

/-- **When an edge applies**: it is new, between known tasks, into an unfinished one, and closes no
cycle. -/
theorem addDependency_iff {graph next : WorkflowGraph} {taskId dependencyId : Id} :
    graph.applyMutation (.addDependency taskId dependencyId) = .ok next ↔
      taskId ∈ graph.topology.tasks ∧ dependencyId ∈ graph.topology.tasks ∧
        graph.isCompleted taskId = false ∧ ¬ Requires graph.topology taskId dependencyId ∧
        (graph.topology.addEdge taskId dependencyId).cyclePath = none ∧
        next = { graph with topology := graph.topology.addEdge taskId dependencyId } := by
  rw [applyMutation]
  constructor
  · intro applied
    split at applied
    · cases applied
    · split at applied
      · cases applied
      · split at applied
        · cases applied
        · split at applied
          · cases applied
          · split at applied
            · cases applied
            · cases applied
              exact ⟨not_not.mp ‹_›, not_not.mp ‹_›, Bool.eq_false_iff.mpr ‹_›, ‹_›, ‹_›, rfl⟩
  · rintro ⟨known, knownDependency, unfinished, new, searched, rfl⟩
    unfold Requires at new
    rw [if_neg (not_not.mpr known), if_neg (not_not.mpr knownDependency), unfinished]
    simp only [Bool.false_eq_true, if_false, if_neg new, searched]

/-- Edges that apply leave the tasks, and are there. -/
theorem applyEdges_eq_ok {graph next : WorkflowGraph} {edges : List (Id × Id)}
    (applied : graph.applyMutations (addEdges edges) = .ok next) :
    ∀ taskId dependency, Requires next.topology taskId dependency ↔
      RequiresWith graph.topology edges taskId dependency := by
  induction edges generalizing graph with
  | nil =>
    cases applied
    simp [RequiresWith]
  | cons edge rest ih =>
    rw [addEdges, List.map_cons, applyMutations] at applied
    split at applied
    · cases applied
    · rename_i middle first
      obtain ⟨_, _, _, _, _, rfl⟩ := addDependency_iff.mp first
      intro taskId dependency
      rw [requiresWith_cons]
      exact ih applied taskId dependency

/-- Edges that apply fit. -/
theorem Fits.of_applied {graph next : WorkflowGraph} {edges : List (Id × Id)}
    (joined : Joined graph.topology)
    (start : ∀ taskId, ¬ Relation.TransGen (Requires graph.topology) taskId taskId)
    (applied : graph.applyMutations (addEdges edges) = .ok next) : Fits graph edges := by
  induction edges generalizing graph with
  | nil =>
    refine ⟨by simp, by simp, by simp, List.nodup_nil, fun taskId cycle => ?_⟩
    exact start taskId (cycle.lift id fun _ _ required => required.resolve_right List.not_mem_nil)
  | cons edge rest ih =>
    rw [addEdges, List.map_cons, applyMutations] at applied
    split at applied
    · cases applied
    · rename_i middle first
      have wider := (grown_of_applyMutation first).joined joined
      obtain ⟨known, knownDependency, unfinished, new, searched, rfl⟩ := addDependency_iff.mp first
      have rests := ih wider (acyclic_of_cyclePath wider searched) applied
      refine ⟨?_, ?_, ?_, ?_, acyclic_cons.mpr rests.acyclic⟩
      · exact List.forall_mem_cons.mpr ⟨⟨known, knownDependency⟩, rests.known⟩
      · exact List.forall_mem_cons.mpr ⟨unfinished, rests.unfinished⟩
      · refine List.forall_mem_cons.mpr ⟨new, fun other member required => ?_⟩
        exact rests.fresh other member ((mem_dependenciesOf_addEdge _).mpr (.inl required))
      · refine List.nodup_cons.mpr ⟨fun member => ?_, rests.distinct⟩
        exact rests.fresh edge member ((mem_dependenciesOf_addEdge _).mpr (.inr ⟨rfl, rfl⟩))

/-- Edges that fit apply. -/
theorem Fits.applies {graph : WorkflowGraph} {edges : List (Id × Id)} (fits : Fits graph edges) :
    ∃ next, graph.applyMutations (addEdges edges) = .ok next := by
  induction edges generalizing graph with
  | nil => exact ⟨graph, rfl⟩
  | cons edge rest ih =>
    obtain ⟨⟨known, knownDependency⟩, knowns⟩ := List.forall_mem_cons.mp fits.known
    obtain ⟨unfinished, unfinisheds⟩ := List.forall_mem_cons.mp fits.unfinished
    obtain ⟨new, news⟩ := List.forall_mem_cons.mp fits.fresh
    obtain ⟨once, distinct⟩ := List.nodup_cons.mp fits.distinct
    have acyclic := acyclic_cons.mp fits.acyclic
    have searched : (graph.topology.addEdge edge.1 edge.2).cyclePath = none :=
      cyclePath_of_acyclic fun taskId cycle =>
        acyclic taskId (cycle.lift id fun _ _ required => .inl required)
    have first := addDependency_iff.mpr ⟨known, knownDependency, unfinished, new, searched, rfl⟩
    have rests : Fits { graph with topology := graph.topology.addEdge edge.1 edge.2 } rest := by
      refine ⟨knowns, unfinisheds, fun other member required => ?_, distinct, acyclic⟩
      rcases (mem_dependenciesOf_addEdge _).mp required with old | ⟨same, sameDependency⟩
      · exact news other member old
      · exact once (Prod.ext same sameDependency ▸ member)
    obtain ⟨next, applied⟩ := ih rests
    refine ⟨next, ?_⟩
    rw [addEdges, List.map_cons, applyMutations, first]
    exact applied

/-! ### Tasks, then edges -/

theorem applyMutations_append {graph next : WorkflowGraph} {first second : List WorkflowMutation} :
    graph.applyMutations (first ++ second) = .ok next ↔
      ∃ middle, graph.applyMutations first = .ok middle ∧
        middle.applyMutations second = .ok next := by
  induction first generalizing graph with
  | nil => simp [applyMutations]
  | cons mutation rest ih =>
    rw [List.cons_append, applyMutations, applyMutations]
    cases graph.applyMutation mutation with
    | error error => simp
    | ok middle => exact ih

/-- When a batch at the current revision applies. -/
theorem applyBatch_iff {graph : WorkflowGraph} {batch : List WorkflowMutation} (some_ : batch ≠ [])
    (room : graph.topologyRevision < u64Max) :
    (∃ answer, graph.applyBatch graph.topologyRevision batch = .ok answer) ↔
      ∃ candidate, graph.applyMutations batch = .ok candidate ∧
        candidate.topology.cyclePath = none := by
  rw [applyBatch, if_neg (not_not.mpr rfl), if_neg some_, checkedNext_of_lt room]
  cases graph.applyMutations batch with
  | error error => simp
  | ok candidate =>
    cases searched : candidate.topology.cyclePath with
    | none => simp [searched]
    | some path => simp [searched]

/-- **A batch of mutations and then edges applies exactly when the mutations do and the edges fit**,
on a workflow whose edges join tasks. -/
theorem applyBatch_edges_iff {graph : WorkflowGraph} {mutations : List WorkflowMutation}
    {edges : List (Id × Id)} (some_ : mutations ++ addEdges edges ≠ [])
    (room : graph.topologyRevision < u64Max) (joined : Joined graph.topology) :
    (∃ answer, graph.applyBatch graph.topologyRevision (mutations ++ addEdges edges) =
        .ok answer) ↔
      ∃ middle, graph.applyMutations mutations = .ok middle ∧ middle.Fits edges := by
  rw [applyBatch_iff some_ room]
  constructor
  · rintro ⟨candidate, applied, searched⟩
    obtain ⟨middle, first, second⟩ := applyMutations_append.mp applied
    have joinedMiddle := (grown_of_applyMutations first).joined joined
    have acyclic := acyclic_of_cyclePath ((grown_of_applyMutations second).joined joinedMiddle)
      searched
    refine ⟨middle, first, .of_applied joinedMiddle (fun taskId cycle => ?_) second⟩
    exact acyclic taskId (cycle.lift id fun source target required =>
      (applyEdges_eq_ok second source target).mpr (.inl required))
  · rintro ⟨middle, first, fits⟩
    obtain ⟨candidate, second⟩ := fits.applies
    refine ⟨candidate, applyMutations_append.mpr ⟨middle, first, second⟩,
      cyclePath_of_acyclic fun taskId cycle => ?_⟩
    exact fits.acyclic taskId (cycle.lift id fun source target required =>
      (applyEdges_eq_ok second source target).mp required)

end WorkflowGraph

end Kernis
