/-
**The search for a cycle, as it runs.**

All visits share one map of marks and one stack. A visit pushes its task and pops it when it is complete;
when it finds a cycle it leaves the stack as it is, and every visit above it ends at once. An active
prerequisite is expected to be on the stack.

* `WorkflowTopology.visit`, `WorkflowTopology.searchWithin` — the recursion, within a depth.
* `visit_runs` — it runs as the exploration of the same topology: the expectation is met.
* `cycle_detection_exact` — the recursion ends, and it finds a closed path exactly when there is a cycle.
-/

import Kernis.Lib.ActivePath
import Kernis.Workflow.Edges

namespace Kernis

open Std

/-! ### The recursion -/

/-- What the visits share. -/
structure VisitTrail where
  marks : BTreeMap Id VisitState
  stack : List Id

/-- How a visit ends: it is complete, it found a path, or an active prerequisite was not on the stack. -/
inductive VisitOutcome
  | complete (trail : VisitTrail)
  | found (path : List Id)
  | panicked

namespace WorkflowTopology

/-- Visits the prerequisites of a task in order. -/
def visitDependencies (visit : Id → VisitTrail → Option VisitOutcome) :
    List Id → VisitTrail → Option VisitOutcome
  | [], trail => some (.complete trail)
  | dependency :: rest, trail =>
    match trail.marks[dependency]? with
    | none =>
      match visit dependency trail with
      | some (.complete reached) => visitDependencies visit rest reached
      | ended => ended
    | some .active =>
      match trail.stack.idxOf? dependency with
      | some start => some (.found (trail.stack.drop start ++ [dependency]))
      | none => some .panicked
    | some .done => visitDependencies visit rest trail

/-- Visits one task; `none` is an exhausted depth. -/
def visit (topology : WorkflowTopology) : Nat → Id → VisitTrail → Option VisitOutcome
  | 0, _, _ => none
  | depth + 1, taskId, trail =>
    match visitDependencies (visit topology depth) (topology.dependenciesOf taskId)
        ⟨trail.marks.insert taskId .active, trail.stack ++ [taskId]⟩ with
    | some (.complete reached) =>
      some (.complete ⟨reached.marks.insert taskId .done, reached.stack.dropLast⟩)
    | ended => ended

/-- Visits the given tasks in order, except those that are marked. -/
def visitTasks (topology : WorkflowTopology) (depth : Nat) :
    List Id → VisitTrail → Option VisitOutcome
  | [], trail => some (.complete trail)
  | taskId :: rest, trail =>
    if taskId ∈ trail.marks then topology.visitTasks depth rest trail
    else
      match topology.visit depth taskId trail with
      | some (.complete reached) => topology.visitTasks depth rest reached
      | ended => ended

/-- The search within a depth. -/
def searchWithin (topology : WorkflowTopology) (depth : Nat) : Option VisitOutcome :=
  topology.visitTasks depth topology.tasks.keys ⟨∅, []⟩

end WorkflowTopology

/-! ### The exploration -/

/-- The marks and the stack of an exploration. -/
def Exploration.trail (exploration : Exploration Id) : VisitTrail :=
  ⟨exploration.marks, exploration.activePath⟩

/-- How a visit ends that explores. -/
def VisitOutcome.of : Except (List Id) (Exploration Id) → VisitOutcome
  | .ok reached => .complete reached.trail
  | .error path => .found path

namespace WorkflowGraph

open Exploration

variable {topology : WorkflowTopology} {depth : Nat} {before : Exploration Id}
  {answer : Except (List Id) (Exploration Id)}

/-- An active task is on the stack, where the path begins. -/
theorem position_of_active {plan : Plan Id (List Id)} (stacked : Stacked plan before) {taskId : Id}
    (active : before.marks[taskId]? = some .active) :
    before.activePath.idxOf? taskId = some (before.activePath.idxOf taskId) := by
  have member := (stacked.active taskId).mp active
  cases found : before.activePath.idxOf? taskId with
  | none => exact absurd member (List.idxOf?_eq_none_iff.mp found)
  | some start => rw [List.idxOf_eq_getD_idxOf?, found, Option.getD_some]

/-- The prerequisites are visited as the edges are followed. -/
theorem visitDependencies_runs {taskId : Id} {path : List Id} {edges : List Id}
    (visits : ∀ (next : Id) (one : Exploration Id) (answer : Except (List Id) (Exploration Id)),
      Exploration.visit topology.cyclePlan depth next one = some answer →
        Stacked topology.cyclePlan one → Enters topology.cyclePlan one next →
          one.marks[next]? = none → topology.visit depth next one.trail = some (.of answer))
    (inside : ∀ next ∈ edges, next ∈ topology.dependenciesOf taskId)
    (followed : follow topology.cyclePlan (Exploration.visit topology.cyclePlan depth) taskId edges before =
      some answer) (stacked : Stacked topology.cyclePlan before)
    (top : before.activePath = path ++ [taskId]) :
    WorkflowTopology.visitDependencies (topology.visit depth) edges before.trail =
      some (.of answer) := by
  induction edges generalizing before with
  | nil =>
    cases followed
    rfl
  | cons next rest ih =>
    obtain ⟨edge, others⟩ := List.forall_mem_cons.mp inside
    have enters : Enters topology.cyclePlan before next := by
      intro last final
      rw [top, List.getLast?_concat, Option.mem_some_iff] at final
      exact final ▸ edge
    have visited (one : Except (List Id) (Exploration Id))
        (answers : Exploration.visit topology.cyclePlan depth next before = some one) :
        before.marks[next]? = none → topology.visit depth next before.trail = some (.of one) :=
      visits next before one answers stacked enters
    unfold follow at followed
    unfold WorkflowTopology.visitDependencies
    split at followed
    · rename_i refused
      cases refused
    · cases explored : Exploration.visit topology.cyclePlan depth next before with
      | none =>
        rw [explored] at followed
        cases followed
      | some one =>
        rw [explored] at followed
        have runs := visited one explored
        cases mark : before.marks[next]? with
        | none =>
          have same : before.trail.marks[next]? = none := mark
          rw [same, runs mark]
          cases one with
          | error path =>
            cases followed
            rfl
          | ok reached =>
            obtain ⟨kept, unchanged⟩ := visit_stacked explored stacked enters
            exact ih others followed kept (unchanged.trans top)
        | some state =>
          cases depth with
          | zero => cases explored
          | succ depth =>
            unfold Exploration.visit at explored
            rw [mark] at explored
            have same : before.trail.marks[next]? = some state := mark
            rw [same]
            cases state with
            | active =>
              cases explored
              cases followed
              have position : before.trail.stack.idxOf? next =
                some (before.activePath.idxOf next) := position_of_active stacked mark
              rw [position]
              rfl
            | done =>
              cases explored
              exact ih others followed stacked top

/-- **A visit runs as the exploration does.** -/
theorem visit_runs {taskId : Id}
    (visited : Exploration.visit topology.cyclePlan depth taskId before = some answer)
    (stacked : Stacked topology.cyclePlan before) (enters : Enters topology.cyclePlan before taskId)
    (unmarked : before.marks[taskId]? = none) :
    topology.visit depth taskId before.trail = some (.of answer) := by
  induction depth generalizing taskId before answer with
  | zero => cases visited
  | succ depth ih =>
    unfold Exploration.visit at visited
    rw [unmarked] at visited
    unfold WorkflowTopology.visit
    cases followed : follow topology.cyclePlan (Exploration.visit topology.cyclePlan depth) taskId
        (topology.cyclePlan.edges taskId) (before.enter taskId) with
    | none =>
      simp only at visited
      rw [followed] at visited
      cases visited
    | some one =>
      simp only at visited
      rw [followed] at visited
      have runs := visitDependencies_runs (fun _ _ _ => ih) (fun _ => id) followed
        (stacked.enter enters) rfl
      change WorkflowTopology.visitDependencies (topology.visit depth) (topology.dependenciesOf taskId)
        ⟨before.trail.marks.insert taskId .active, before.trail.stack ++ [taskId]⟩ = _ at runs
      rw [runs]
      cases one with
      | error path =>
        cases visited
        rfl
      | ok reached =>
        cases visited
        rfl

/-- **The tasks are visited as the exploration does.** -/
theorem visitTasks_runs {tasks : List Id}
    (visited : visitAll topology.cyclePlan depth tasks before = some answer)
    (stacked : Stacked topology.cyclePlan before) (bare : before.activePath = []) :
    topology.visitTasks depth tasks before.trail = some (.of answer) := by
  induction tasks generalizing before with
  | nil =>
    cases visited
    rfl
  | cons taskId rest ih =>
    have enters : Enters topology.cyclePlan before taskId := enters_of_empty bare
    unfold visitAll at visited
    unfold WorkflowTopology.visitTasks
    cases explored : Exploration.visit topology.cyclePlan depth taskId before with
    | none =>
      rw [explored] at visited
      cases visited
    | some one =>
      rw [explored] at visited
      cases mark : before.marks[taskId]? with
      | none =>
        have new : taskId ∉ before.trail.marks := not_mem_of_lookup_none mark
        rw [if_neg new, visit_runs explored stacked enters mark]
        cases one with
        | error path =>
          cases visited
          rfl
        | ok reached =>
          obtain ⟨kept, same⟩ := visit_stacked explored stacked enters
          exact ih visited kept (same.trans bare)
      | some state =>
        have old : taskId ∈ before.trail.marks := mem_of_lookup mark
        rw [if_pos old]
        cases depth with
        | zero => cases explored
        | succ depth =>
          unfold Exploration.visit at explored
          rw [mark] at explored
          cases state with
          | active =>
            -- Between two roots the stack is empty, so no task is active.
            have listed := (stacked.active taskId).mp mark
            rw [bare] at listed
            exact absurd listed List.not_mem_nil
          | done =>
            cases explored
            exact ih visited stacked bare

/-! ### What the search finds -/

/-- How the search ends when it is deep enough. -/
inductive Searched (topology : WorkflowTopology) : VisitOutcome → Prop
  | none (trail : VisitTrail) (nothing : topology.cyclePath = none) : Searched topology (.complete trail)
  | some {path : List Id} (found : topology.cyclePath = some path) : Searched topology (.found path)

/-- **The recursion ends**, and no expectation is missed. -/
theorem searchWithin_ends (topology : WorkflowTopology) : ∃ depth, ∀ more, depth ≤ more →
    ∃ outcome, topology.searchWithin more = some outcome ∧ Searched topology outcome := by
  let territory := topology.tasks.keys ++ topology.edges.map Prod.snd
  have inside : ∀ taskId ∈ topology.tasks.keys, taskId ∈ territory :=
    fun _ => List.mem_append_left _
  have closed : ∀ taskId ∈ territory, ∀ next ∈ topology.cyclePlan.edges taskId,
      topology.cyclePlan.refuse taskId next = none → next ∈ territory := by
    intro taskId _ next edge _
    exact List.mem_append_right _ (List.mem_map.mpr ⟨(taskId, next), mem_edges_iff.mpr edge, rfl⟩)
  cases visited : visitAll topology.cyclePlan (territory.length + 1) topology.tasks.keys start with
  | none => exact absurd visited (visitAll_ne_none closed inside)
  | some answer =>
    refine ⟨territory.length + 1, fun more deeper => ⟨.of answer, ?_, ?_⟩⟩
    · exact visitTasks_runs (visitAll_of_depth deeper visited) stacked_start rfl
    · cases answer with
      | ok explored =>
        refine .none explored.trail ?_
        unfold WorkflowTopology.cyclePath Exploration.search
        rw [visited]
      | error path =>
        refine .some ?_
        unfold WorkflowTopology.cyclePath Exploration.search
        rw [visited]

/-- **How a cycle is detected.** The recursion ends, with every active prerequisite on the stack; it finds
a path exactly when the prerequisites have a cycle; and a path it finds steps from a task to one of its
prerequisites and back to the first. -/
structure DetectsCycles (topology : WorkflowTopology) : Prop where
  ends : ∃ depth, ∀ more, depth ≤ more →
    ∃ outcome, topology.searchWithin more = some outcome ∧ Searched topology outcome
  found : topology.cyclePath.isSome = true ↔
    ∃ taskId, Relation.TransGen (Requires topology) taskId taskId
  closed : ∀ path, topology.cyclePath = some path →
    2 ≤ path.length ∧ path.head? = path.getLast? ∧ path.IsChain (Requires topology)

/-- A path that the search finds is a closed walk. -/
theorem closedWalk_of_cyclePath {topology : WorkflowTopology} {path : List Id}
    (found : topology.cyclePath = some path) : ClosedWalk (Requires topology) path := by
  unfold WorkflowTopology.cyclePath at found
  split at found
  · rename_i other failed
    cases found
    cases reports_of_search failed with
    | refused edge refused => cases refused
    | cycle walk => exact walk
  · cases found

/-- **Cycle detection is exact**, for every topology whose edges join tasks. -/
theorem cycle_detection_exact (topology : WorkflowTopology)
    (joins : ∀ taskId dependency, Requires topology taskId dependency →
      taskId ∈ topology.tasks ∧ dependency ∈ topology.tasks) : DetectsCycles topology where
  ends := searchWithin_ends topology
  found := by
    cases found : topology.cyclePath with
    | none =>
      refine ⟨(fun some_ => by cases some_), fun cycle => ?_⟩
      obtain ⟨taskId, cycle⟩ := cycle
      have starts (source target : Id) (edge : Requires topology source target) :
          source ∈ topology.tasks := (joins source target edge).1
      exact absurd cycle (acyclic_of_search starts found taskId)
    | some path =>
      obtain ⟨taskId, _, cycle⟩ := (closedWalk_of_cyclePath found).cycle
      exact ⟨fun _ => ⟨taskId, cycle⟩, fun _ => rfl⟩
  closed := by
    intro path found
    obtain ⟨steps, first, middle, rfl⟩ := closedWalk_of_cyclePath found
    refine ⟨?_, ?_, steps⟩
    · rw [List.length_append, List.length_cons, List.length_singleton]
      omega
    · rw [List.getLast?_concat]
      rfl

/-- Two tasks that require each other, and a third that requires one of them. -/
def entangledTasks : WorkflowTopology :=
  let outer : Id := ⟨"outer".toList, by decide⟩
  let left : Id := ⟨"left".toList, by decide⟩
  let right : Id := ⟨"right".toList, by decide⟩
  let tasks : BTreeMap Id Task := (∅ : BTreeMap Id Task).insert outer ⟨outer, []⟩
    |>.insert left ⟨left, []⟩ |>.insert right ⟨right, []⟩
  (WorkflowTopology.mk tasks ∅).addEdge outer left |>.addEdge left right |>.addEdge right left

/-- The cycle is entered from the third task. -/
theorem cycle_detection_exact_entangled :
    entangledTasks.cyclePath.map (List.map Id.asStr) =
        some ["left".toList, "right".toList, "left".toList] ∧ DetectsCycles entangledTasks := by
  refine ⟨by decide +kernel, cycle_detection_exact entangledTasks ?_⟩
  intro taskId dependency edge
  have joined : ∀ pair ∈ entangledTasks.edges,
      pair.1 ∈ entangledTasks.tasks ∧ pair.2 ∈ entangledTasks.tasks := by
    decide +kernel
  exact joined (taskId, dependency) (mem_edges_iff.mpr edge)

end WorkflowGraph

end Kernis
