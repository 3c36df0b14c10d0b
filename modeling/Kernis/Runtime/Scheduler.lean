/-
**The scheduler loop.**

* `loopWithin` — the loop as it is written, which nothing but its steps stops.
* `step_ok` — what a step that returned did: a step that goes on completed a ready task in the workflow.
* `loopWithin_eq` — so the loop stops within one step more than there are incomplete tasks.
* `runUntilBlocked_ordered` — and its results are completions in the order of the dependencies, then
  the reason why it stopped.
-/

import Kernis.Runtime.Choices
import Kernis.Workflow.Progress

namespace Kernis

open Std Fallible

namespace WorkflowGraph

variable {graph next : WorkflowGraph} {order : List Id}

/-- Only incomplete tasks are completed. -/
theorem unfinished_of_completeAll (completed : graph.completeAll order = .ok next) :
    ∀ taskId ∈ order, graph.isCompleted taskId = false := by
  induction order generalizing graph with
  | nil => exact fun _ member => by cases member
  | cons first rest ih =>
    unfold completeAll at completed
    split at completed
    · cases completed
    · rename_i middle accepted
      obtain ⟨_, unfinished, _⟩ := complete_eq_ok accepted
      intro taskId member
      rcases List.mem_cons.mp member with rfl | member
      · exact unfinished
      · have later := ih completed taskId member
        by_contra done
        rw [Bool.not_eq_false] at done
        rw [(isCompleted_of_complete accepted).mpr (.inr done)] at later
        cases later

/-- No task is completed twice. -/
theorem nodup_of_completeAll (completed : graph.completeAll order = .ok next) : order.Nodup := by
  induction order generalizing graph with
  | nil => exact List.nodup_nil
  | cons first rest ih =>
    unfold completeAll at completed
    split at completed
    · cases completed
    · rename_i middle accepted
      refine List.nodup_cons.mpr ⟨fun again => ?_, ih completed⟩
      have unfinished := unfinished_of_completeAll completed first again
      rw [(isCompleted_of_complete accepted).mpr (.inl rfl)] at unfinished
      cases unfinished

/-- **A task is completed after everything it waits for.** -/
theorem ordered_of_completeAll (completed : graph.completeAll order = .ok next) {front back : List Id}
    {taskId dependency : Id} (split_ : order = front ++ taskId :: back)
    (required : Requires graph.topology taskId dependency) :
    graph.isCompleted dependency = true ∨ dependency ∈ front := by
  induction front generalizing graph order with
  | nil =>
    rw [split_, List.nil_append, completeAll] at completed
    split at completed
    · cases completed
    · rename_i accepted
      exact .inl (prerequisites_of_complete accepted dependency required)
  | cons first front ih =>
    rw [split_, List.cons_append, completeAll] at completed
    split at completed
    · cases completed
    · rename_i middle accepted
      rw [← topology_of_complete accepted] at required
      rcases ih completed rfl required with done | before
      · rcases (isCompleted_of_complete accepted).mp done with rfl | done
        · exact .inr List.mem_cons_self
        · exact .inl done
      · exact .inr (List.mem_cons_of_mem _ before)

end WorkflowGraph

namespace Runtime

variable {σ ν : Type} [DurableStore σ]

/-! ### What a step keeps -/

/-- The workflow and the cancelled tasks are the same. -/
def SameWork (runtime reached : Runtime σ ν) : Prop :=
  reached.workflow = runtime.workflow ∧ reached.cancelled = runtime.cancelled

omit [DurableStore σ] in
theorem SameWork.trans {runtime middle reached : Runtime σ ν} (first : SameWork runtime middle)
    (second : SameWork middle reached) : SameWork runtime reached :=
  ⟨second.1.trans first.1, second.2.trans first.2⟩

variable {runtime reached : Runtime σ ν} {taskId : Id} {attemptId : AttemptId}

theorem attemptOrBegin_ok {found : Option AttemptId} {operationId : Option OperationId}
    (done : attemptOrBegin found taskId operationId runtime = (.ok attemptId, reached)) :
    SameWork runtime reached := by
  cases found with
  | some held =>
    cases done
    exact ⟨rfl, rfl⟩
  | none =>
    obtain ⟨_, _, _, _, _, _, rfl⟩ := beginAttempt_ok done
    exact ⟨rfl, rfl⟩

theorem recordEffectIntent_ok {operationId : OperationId} {semantics : EffectSemantics}
    (done : recordEffectIntent taskId operationId semantics runtime = (.ok (), reached)) :
    SameWork runtime reached ∧
      runtime.journal.persistIntent ⟨taskId, operationId, semantics⟩ = .ok reached.journal := by
  rw [recordEffectIntent_eq] at done
  split at done
  · cases done
  · split at done
    · cases done
    · split at done
      · cases done
      · rename_i journal persisted
        obtain ⟨store, revision, rfl⟩ := act_intent_ok done
        exact ⟨⟨rfl, rfl⟩, persisted⟩

/-- A completion goes through the workflow. -/
theorem completeTask_ok (done : completeTask taskId attemptId runtime = (.ok (), reached)) :
    runtime.workflow.complete taskId = .ok reached.workflow ∧
      reached.cancelled = runtime.cancelled := by
  rw [completeTask_eq] at done
  split at done
  · cases done
  · rename_i workflow accepted
    rw [act_eq] at done
    split at done
    · cases done
    · rw [settle_complete] at done
      split at done
      · cases done
      · split at done
        · cases done
          exact ⟨accepted, rfl⟩
        · cases done

/-- The operation of a task is prepared once it is ensured, and nothing else changed. -/
theorem ensureConfiguredEffect_ok {operation : Option (OperationId × EffectSemantics)}
    (done : ensureConfiguredEffect taskId runtime = (.ok operation, reached)) :
    SameWork runtime reached ∧
      ∀ one ∈ operation, reached.journal.state one.1 ≠ .notPrepared := by
  unfold ensureConfiguredEffect at done
  rw [run_bind, run_get] at done
  simp only at done
  cases recorded : runtime.journal.operationForTask taskId with
  | some operationId =>
    rw [recorded] at done
    obtain ⟨intent, between, found, answered⟩ := bind_ok.mp done
    cases answered
    rw [run_lift] at found
    obtain ⟨looked, rfl⟩ := Prod.mk.inj found
    refine ⟨⟨rfl, rfl⟩, fun one member => ?_⟩
    cases member
    exact DurableJournal.state_ne_notPrepared (except_mapError_ok.mp looked)
  | none =>
    rw [recorded] at done
    cases configured : (runtime.taskConfigs[taskId]?).bind TaskConfig.effect with
    | none =>
      rw [configured] at done
      cases done
      exact ⟨⟨rfl, rfl⟩, fun one member => by cases member⟩
    | some effect =>
      rw [configured] at done
      obtain ⟨_, between, persisted, answered⟩ := bind_ok.mp done
      cases answered
      obtain ⟨same, held⟩ := recordEffectIntent_ok persisted
      refine ⟨same, fun one member => ?_⟩
      cases member
      exact DurableJournal.state_ne_notPrepared (persistIntent_found held).2

/-! ### One step -/

/-- What a step that returned did. -/
inductive Stepped (runtime reached : Runtime σ ν) : StepResult → Prop
  | completed {taskId : Id} (attemptId : AttemptId)
      (accepted : runtime.workflow.complete taskId = .ok reached.workflow)
      (kept : reached.cancelled = runtime.cancelled) :
      Stepped runtime reached (.completed taskId attemptId)
  | waits {result : StepResult} (stops : result.goesOn = false) (working : result ≠ .idle)
      (same : SameWork runtime reached) : Stepped runtime reached result
  | idle (none_ : reached.nextReady = none) (same : SameWork runtime reached) :
      Stepped runtime reached .idle

omit [DurableStore σ] in
theorem Stepped.after {middle : Runtime σ ν} {result : StepResult} (same : SameWork runtime middle)
    (stepped : Stepped middle reached result) : Stepped runtime reached result := by
  cases stepped with
  | completed attemptId accepted kept =>
    rw [same.1] at accepted
    exact .completed attemptId accepted (kept.trans same.2)
  | waits stops working later => exact .waits stops working (same.trans later)
  | idle none_ later => exact .idle none_ (same.trans later)

theorem stepPlain_ok {result : StepResult}
    (done : stepPlain taskId runtime = (.ok result, reached)) : Stepped runtime reached result := by
  unfold stepPlain at done
  rw [run_bind, run_get] at done
  obtain ⟨attemptId, between, found, done⟩ := bind_ok.mp done
  obtain ⟨_, last, finished, answered⟩ := bind_ok.mp done
  cases answered
  obtain ⟨accepted, kept⟩ := completeTask_ok finished
  exact (Stepped.completed attemptId accepted kept).after (attemptOrBegin_ok found)

theorem stepEffect_ok {operationId : OperationId} {result : StepResult}
    (done : stepEffect taskId operationId runtime = (.ok result, reached)) :
    Stepped runtime reached result := by
  unfold stepEffect at done
  rw [run_bind, run_get] at done
  simp only at done
  cases known : runtime.journal.state operationId with
  | notPrepared =>
    rw [known] at done
    cases done
  | prepared =>
    rw [known] at done
    obtain ⟨attemptId, between, found, answered⟩ := bind_ok.mp done
    cases answered
    exact .waits rfl (fun same => by cases same) (attemptOrBegin_ok found)
  | outcomeUnknown =>
    rw [known] at done
    obtain ⟨decision, between, classified, answered⟩ := bind_ok.mp done
    cases answered
    rw [run_lift] at classified
    obtain ⟨_, rfl⟩ := Prod.mk.inj classified
    exact .waits rfl (fun same => by cases same) ⟨rfl, rfl⟩
  | outcomeKnown outcome =>
    rw [known] at done
    cases outcome with
    | failed =>
      cases done
      exact .waits rfl (fun same => by cases same) ⟨rfl, rfl⟩
    | succeeded =>
      cases held : runtime.journal.knownOutcome operationId with
      | none =>
        rw [held] at done
        cases done
      | some record =>
        rw [held] at done
        obtain ⟨_, between, finished, answered⟩ := bind_ok.mp done
        cases answered
        obtain ⟨accepted, kept⟩ := completeTask_ok finished
        exact .completed record.attemptId accepted kept

/-- **What a step that returned did**: it completed a task, or it changed neither the workflow nor
the cancelled tasks. -/
theorem step_ok {result : StepResult} (done : step runtime = (.ok result, reached)) :
    Stepped runtime reached result := by
  unfold step at done
  rw [run_bind, run_get] at done
  simp only at done
  cases parked : runtime.pendingStarted with
  | some held =>
    rw [parked] at done
    cases done
  | none =>
    rw [parked] at done
    cases ready : runtime.nextReady with
    | none =>
      rw [ready] at done
      cases done
      exact .idle ready ⟨rfl, rfl⟩
    | some taskId =>
      rw [ready] at done
      obtain ⟨operation, between, ensured, done⟩ := bind_ok.mp done
      obtain ⟨same, _⟩ := ensureConfiguredEffect_ok ensured
      refine Stepped.after same ?_
      cases operation with
      | none => exact stepPlain_ok done
      | some operation => exact stepEffect_ok done

/-! ### The loop -/

/-- The scheduler loop as it is written; `none` is an exhausted bound. -/
def loopWithin : Nat → List StepResult → Runtime σ ν →
    Option (Except RuntimeError (List StepResult) × Runtime σ ν)
  | 0, _, _ => none
  | bound + 1, results, runtime =>
    match step runtime with
    | (.error error, reached) => some (.error error, reached)
    | (.ok result, reached) =>
      if result.goesOn then loopWithin bound (results ++ [result]) reached
      else some (.ok (results ++ [result]), reached)

/-- A step that goes on leaves one task less. -/
theorem incompleteTasks_of_step {result : StepResult} (done : step runtime = (.ok result, reached))
    (goes : result.goesOn = true) :
    reached.workflow.incompleteTasks.length + 1 = runtime.workflow.incompleteTasks.length := by
  cases step_ok done with
  | completed attemptId accepted kept => exact WorkflowGraph.incompleteTasks_of_complete accepted
  | waits stops working same =>
    rw [stops] at goes
    cases goes
  | idle none_ same => cases goes

/-- **The loop stops** within one step more than there are incomplete tasks. -/
theorem loopWithin_eq {bound fuel : Nat} (results : List StepResult)
    (enough : runtime.workflow.incompleteTasks.length < bound)
    (fueled : runtime.workflow.incompleteTasks.length < fuel) :
    loopWithin bound results runtime = some (runSteps fuel results runtime) := by
  induction bound generalizing fuel results runtime with
  | zero => exact absurd enough (Nat.not_lt_zero _)
  | succ bound ih =>
    cases fuel with
    | zero => exact absurd fueled (Nat.not_lt_zero _)
    | succ fuel =>
      rw [loopWithin, runSteps, run_bind]
      rcases done : step runtime with ⟨error | result, reached⟩
      · rfl
      · simp only
        split
        · rename_i goes
          have less := incompleteTasks_of_step done goes
          exact ih _ (by omega) (by omega)
        · rfl

/-- What a loop that returned did: completions, accepted one after the other by the workflow, and then
a step that stops. -/
structure Scheduled (runtime reached : Runtime σ ν) (completed : List (Id × AttemptId))
    (last : StepResult) : Prop where
  accepted : runtime.workflow.completeAll (completed.map Prod.fst) = .ok reached.workflow
  stops : last.goesOn = false
  idle : last = .idle → reached.nextReady = none

/-- The result of a completion. -/
def completion (one : Id × AttemptId) : StepResult := .completed one.1 one.2

/-- **Every loop that returned was scheduled.** -/
theorem runSteps_scheduled {fuel : Nat} {results all : List StepResult}
    (fueled : runtime.workflow.incompleteTasks.length < fuel)
    (returned : runSteps fuel results runtime = (.ok all, reached)) :
    ∃ completed last, all = results ++ (completed.map completion ++ [last]) ∧
      Scheduled runtime reached completed last := by
  induction fuel generalizing results runtime with
  | zero => exact absurd fueled (Nat.not_lt_zero _)
  | succ fuel ih =>
    rw [runSteps] at returned
    obtain ⟨result, middle, done, returned⟩ := bind_ok.mp returned
    have stepped := step_ok done
    cases stepped with
    | completed attemptId accepted kept =>
      rename_i taskId
      have less := incompleteTasks_of_step done rfl
      rw [StepResult.goesOn, if_pos rfl] at returned
      obtain ⟨completed, last, rfl, scheduled⟩ := ih (by omega) returned
      refine ⟨(taskId, attemptId) :: completed, last, ?_, ?_, scheduled.stops, scheduled.idle⟩
      · rw [List.append_assoc, List.map_cons]
        rfl
      · rw [List.map_cons, WorkflowGraph.completeAll, accepted]
        exact scheduled.accepted
    | waits stops working same =>
      rw [if_neg (by rw [stops]; exact Bool.false_ne_true)] at returned
      cases returned
      exact ⟨[], result, rfl, by rw [same.1]; rfl, stops, fun isIdle => absurd isIdle working⟩
    | idle none_ same =>
      have stops : StepResult.idle.goesOn = false := rfl
      rw [if_neg (by rw [stops]; exact Bool.false_ne_true)] at returned
      cases returned
      exact ⟨[], .idle, rfl, by rw [same.1]; rfl, rfl, fun _ => none_⟩

omit [DurableStore σ] in
theorem tasks_enough (runtime : Runtime σ ν) :
    runtime.workflow.incompleteTasks.length < runtime.workflow.tasks.length + 1 := by
  have same : runtime.workflow.tasks.length = runtime.workflow.topology.tasks.keys.length := by
    unfold WorkflowGraph.tasks
    rw [values_eq_valuesOf, valuesOf, List.length_map, ExtTreeMap.length_toList,
      ExtTreeMap.length_keys]
  rw [same]
  exact Nat.lt_succ_of_le (List.length_filter_le _ _)

/-- **A run until blocked stops within one step more than there are incomplete tasks.** When it
returns, all its results but the last are completions of distinct tasks, each after everything it waits
for, and the last one is no completion; when that is idle, every ready task is cancelled. -/
theorem runUntilBlocked_ordered (runtime : Runtime σ ν) :
    (∀ bound, runtime.workflow.incompleteTasks.length < bound →
      loopWithin bound [] runtime = some (runUntilBlocked runtime)) ∧
    ∀ results reached, runUntilBlocked runtime = (.ok results, reached) →
      ∃ completed : List (Id × AttemptId), ∃ last : StepResult,
        results = completed.map completion ++ [last] ∧
        results.length ≤ runtime.workflow.incompleteTasks.length + 1 ∧
        (completed.map Prod.fst).Nodup ∧
        (∀ front taskId back dependency, completed.map Prod.fst = front ++ taskId :: back →
          WorkflowGraph.Requires runtime.workflow.topology taskId dependency →
          runtime.workflow.isCompleted dependency = true ∨ dependency ∈ front) ∧
        runtime.workflow.completeAll (completed.map Prod.fst) = .ok reached.workflow ∧
        (last = .idle ∨ (∃ taskId attemptId operationId,
            last = .effectPending taskId attemptId operationId) ∨
          ∃ taskId operationId action, last = .blocked taskId operationId action) ∧
        (last = .idle → ∀ taskId ∈ reached.workflow.readyTasks, taskId ∈ reached.cancelled) := by
  refine ⟨fun bound enough => loopWithin_eq [] enough runtime.tasks_enough,
    fun results reached returned => ?_⟩
  obtain ⟨completed, last, rfl, scheduled⟩ := runSteps_scheduled runtime.tasks_enough returned
  rw [List.nil_append]
  have left := WorkflowGraph.incompleteTasks_of_completeAll scheduled.accepted
  refine ⟨completed, last, rfl, ?_, WorkflowGraph.nodup_of_completeAll scheduled.accepted,
    fun front taskId back dependency split_ required =>
      WorkflowGraph.ordered_of_completeAll scheduled.accepted split_ required,
    scheduled.accepted, ?_, fun isIdle taskId ready => ?_⟩
  · rw [List.length_append, List.length_map, List.length_singleton]
    rw [List.length_map] at left
    omega
  · cases last with
    | completed taskId attemptId => cases scheduled.stops
    | effectPending taskId attemptId operationId => exact .inr (.inl ⟨_, _, _, rfl⟩)
    | blocked taskId operationId action => exact .inr (.inr ⟨_, _, _, rfl⟩)
    | idle => exact .inl rfl
  · have passed := List.find?_eq_none.mp (scheduled.idle isIdle) taskId ready
    rwa [decide_eq_true_eq, not_not] at passed

end Runtime

end Kernis
