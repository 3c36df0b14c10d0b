/-
**A workflow never stalls.**

* `mem_readyTasks` — the ready tasks are those that complete.
* `readyTasks_ne_nil` — some task is ready while one is not completed: in the order of the search for a
  cycle, the first such task waits for nothing.
* `ready_exact` — so ready tasks, completed in any order, complete the workflow, one each.
-/

import Kernis.Workflow.Edges

namespace Kernis

open Std

namespace WorkflowGraph

variable {graph next : WorkflowGraph} {taskId : Id}

/-- The tasks that are not completed. -/
def incompleteTasks (graph : WorkflowGraph) : List Id :=
  graph.topology.tasks.keys.filter fun taskId => !graph.isCompleted taskId

theorem mem_incompleteTasks : taskId ∈ graph.incompleteTasks ↔
    taskId ∈ graph.topology.tasks ∧ graph.isCompleted taskId = false := by
  unfold incompleteTasks
  rw [List.mem_filter, ExtTreeMap.mem_keys, Bool.not_eq_true']

/-- A task is ready when it is not completed and waits for nothing. -/
theorem mem_readyTasks : taskId ∈ graph.readyTasks ↔ taskId ∈ graph.topology.tasks ∧
    graph.isCompleted taskId = false ∧
      ∀ dependency, Requires graph.topology taskId dependency → graph.isCompleted dependency = true := by
  unfold readyTasks
  rw [List.mem_filter, ExtTreeMap.mem_keys, Bool.and_eq_true, Bool.not_eq_true', List.all_eq_true]
  exact Iff.rfl

/-- **Exactly the ready tasks complete.** -/
theorem exists_complete_iff : (∃ next, graph.complete taskId = .ok next) ↔
    taskId ∈ graph.readyTasks := by
  rw [mem_readyTasks]
  constructor
  · rintro ⟨next, completed⟩
    obtain ⟨known, unfinished, _⟩ := complete_eq_ok completed
    exact ⟨known, unfinished, prerequisites_of_complete completed⟩
  · rintro ⟨known, unfinished, ready⟩
    have waits : graph.firstIncomplete taskId = none := by
      refine List.find?_eq_none.mpr fun dependency required => ?_
      rw [ready dependency required]
      exact Bool.false_ne_true
    unfold complete
    rw [if_neg (not_not.mpr known), if_neg (by rw [unfinished]; exact Bool.false_ne_true), waits]
    exact ⟨_, rfl⟩

/-- **Some task is ready** while one is not completed. -/
theorem readyTasks_ne_nil (invariant : Invariant graph) (waits : graph.incompleteTasks ≠ []) :
    graph.readyTasks ≠ [] := by
  have searched := cyclePath_of_acyclic invariant.acyclic
  unfold WorkflowTopology.cyclePath at searched
  split at searched
  · cases searched
  rename_i order found
  have inside : ∀ node ∈ graph.topology.tasks.keys,
      node ∈ graph.topology.tasks.keys ++ graph.topology.edges.map Prod.snd :=
    fun node member => List.mem_append_left _ member
  have closed : ∀ node ∈ graph.topology.tasks.keys ++ graph.topology.edges.map Prod.snd,
      ∀ next ∈ graph.topology.cyclePlan.edges node, graph.topology.cyclePlan.refuse node next = none →
        next ∈ graph.topology.tasks.keys ++ graph.topology.edges.map Prod.snd := by
    intro node _ next required _
    exact List.mem_append_left _ (ExtTreeMap.mem_keys.mpr (invariant.joined.joins node next required).2)
  have listed : ∀ node ∈ order, node ∈ graph.topology.tasks := by
    intro node member
    have within := (Exploration.search_once found closed inside).2 node member
    rcases List.mem_append.mp within with known | target
    · exact ExtTreeMap.mem_keys.mp known
    · obtain ⟨⟨source, _⟩, edge, rfl⟩ := List.mem_map.mp target
      exact (invariant.joined.joins source _ (mem_edges_iff.mp edge)).2
  -- The first task of the order that is not completed comes after all it waits for.
  obtain ⟨taskId, member⟩ := List.exists_mem_of_ne_nil _ waits
  obtain ⟨known, unfinished⟩ := mem_incompleteTasks.mp member
  have some_ : (order.find? fun taskId => !graph.isCompleted taskId).isSome := by
    rw [List.find?_isSome]
    exact ⟨taskId, Exploration.mem_search found closed inside (ExtTreeMap.mem_keys.mpr known),
      by rw [unfinished]; rfl⟩
  obtain ⟨first, here⟩ := Option.isSome_iff_exists.mp some_
  obtain ⟨open_, front, back, split, before⟩ := List.find?_eq_some_iff_append.mp here
  refine List.ne_nil_of_mem (mem_readyTasks.mpr ⟨?_, (Bool.not_eq_true' _).mp open_, ?_⟩)
  · exact listed first (by rw [split]; exact List.mem_append_right _ List.mem_cons_self)
  · intro dependency required
    have earlier := Exploration.search_ordered found front first back split dependency required
    have done := before dependency earlier
    rwa [Bool.not_not] at done

/-- A completion leaves one task less. -/
theorem incompleteTasks_of_complete (completed : graph.complete taskId = .ok next) :
    next.incompleteTasks.length + 1 = graph.incompleteTasks.length := by
  have done : ∀ other : Id, next.isCompleted other = true ↔
      other = taskId ∨ graph.isCompleted other = true :=
    fun other => isCompleted_of_complete completed
  obtain ⟨known, unfinished, _⟩ := complete_eq_ok completed
  have topology := topology_of_complete completed
  have nodup : graph.incompleteTasks.Nodup := ExtTreeMap.nodup_keys.filter _
  have same : next.incompleteTasks = graph.incompleteTasks.erase taskId := by
    rw [nodup.erase_eq_filter]
    unfold incompleteTasks
    rw [topology, List.filter_filter]
    refine List.filter_congr fun other _ => ?_
    rw [Bool.eq_iff_iff]
    simp only [Bool.not_eq_true', Bool.eq_false_iff, ne_eq, done, not_or, Bool.and_eq_true, bne_iff_ne]
  rw [same]
  exact List.length_erase_add_one (mem_incompleteTasks.mpr ⟨known, unfinished⟩)

/-- Every completion of a sequence leaves one task less. -/
theorem incompleteTasks_of_completeAll {order : List Id} (completed : graph.completeAll order = .ok next) :
    order.length + next.incompleteTasks.length = graph.incompleteTasks.length := by
  induction order generalizing graph with
  | nil =>
    cases completed
    exact Nat.zero_add _
  | cons taskId rest ih =>
    unfold completeAll at completed
    split at completed
    · cases completed
    · rename_i middle first
      have later := ih completed
      have one := incompleteTasks_of_complete first
      rw [List.length_cons]
      omega

/-- **A workflow can be completed from every state.** -/
theorem exists_completeAll (built : Built graph) :
    ∃ order last, graph.completeAll order = .ok last ∧ last.incompleteTasks = [] := by
  induction left : graph.incompleteTasks.length generalizing graph with
  | zero => exact ⟨[], graph, rfl, List.length_eq_zero_iff.mp left⟩
  | succ count ih =>
    have waits : graph.incompleteTasks ≠ [] := by
      rintro none_
      rw [none_] at left
      cases left
    obtain ⟨taskId, ready⟩ :=
      List.exists_mem_of_ne_nil _ (readyTasks_ne_nil (invariant_of_built built) waits)
    obtain ⟨middle, completed⟩ := exists_complete_iff.mpr ready
    have one := incompleteTasks_of_complete completed
    obtain ⟨order, last, rest, all⟩ := ih (built.complete completed) (by omega)
    refine ⟨taskId :: order, last, ?_, all⟩
    rw [completeAll, completed]
    exact rest

/-- **Ready tasks are exactly the completable ones, and no workflow stalls**: whatever order they are
completed in, they go on until every task is completed, which takes one completion for each. -/
theorem ready_exact (sequence : List GraphCall) :
    (∀ taskId, (∃ next, (empty.calls sequence).complete taskId = .ok next) ↔
      taskId ∈ (empty.calls sequence).readyTasks) ∧
    ((empty.calls sequence).incompleteTasks ≠ [] → (empty.calls sequence).readyTasks ≠ []) ∧
    (∀ order next, (empty.calls sequence).completeAll order = .ok next →
      order.length + next.incompleteTasks.length = (empty.calls sequence).incompleteTasks.length ∧
        (next.incompleteTasks ≠ [] → next.readyTasks ≠ []) ∧
        ∃ more last, next.completeAll more = .ok last ∧ last.incompleteTasks = []) := by
  have built := built_of_calls sequence
  refine ⟨fun taskId => exists_complete_iff, readyTasks_ne_nil (invariant_of_built built),
    fun order next completed => ?_⟩
  have later := built_of_completeAll built completed
  exact ⟨incompleteTasks_of_completeAll completed, readyTasks_ne_nil (invariant_of_built later),
    exists_completeAll later⟩

end WorkflowGraph

end Kernis
