/-
**Effects and the order of the workflow.**

The scheduler prepares effects of ready tasks only. An intent that is recorded directly, or a
prerequisite that is added later, may put an effect ahead of its task's prerequisites: dispatching
does not look at the workflow.

* `Orderly runtime operation` — an operation that puts no effect ahead: a direct intent is for a task
  whose prerequisites are completed, and no open prerequisite is added to a task with an operation.
* `InOrder runtime state` — the prerequisites of every task with an operation are completed.
* `effects_respect_order` — in every run of orderly operations.
* `effect_ahead_of_prerequisite` — not in every run.
-/

import Kernis.Runtime.Consistent
import Kernis.Runtime.Guarded
import Kernis.Runtime.Restart

namespace Kernis

open Std Fallible

namespace Runtime

variable {σ ν : Type}

/-- Every prerequisite of a task is completed. -/
def Unblocked (workflow : WorkflowGraph) (taskId : Id) : Prop :=
  ∀ dependency, WorkflowGraph.Requires workflow.topology taskId dependency →
    workflow.isCompleted dependency = true

/-- **A command that puts no effect ahead of the workflow.** -/
def OrderlyCommand (runtime : Runtime σ ν) : Command → Prop
  | .recordEffectIntent taskId _ _ => Unblocked runtime.workflow taskId
  | .applyWorkflowMutation _ batch => ∀ taskId dependency,
      .addDependency taskId dependency ∈ batch →
      runtime.journal.operationForTask taskId ≠ none →
      runtime.workflow.isCompleted dependency = true
  | _ => True

/-- **An operation that puts no effect ahead of the workflow.** -/
def Orderly (runtime : Runtime σ ν) : Operation ν → Prop
  | .command command => OrderlyCommand runtime command
  | _ => True

/-- **The prerequisites of every task with an operation are completed.** -/
def InOrder (runtime : Runtime σ ν) (state : DurableRunState) : Prop :=
  ∀ (operationId : OperationId) (intent : EffectIntent),
    state.intents[operationId]? = some intent → Unblocked runtime.workflow intent.taskId

/-- The scheduler takes a task with completed prerequisites. -/
theorem unblocked_of_nextReady {runtime : Runtime σ ν} {taskId : Id}
    (ready : runtime.nextReady = some taskId) : Unblocked runtime.workflow taskId := by
  have listed := List.mem_of_find?_eq_some ready
  unfold WorkflowGraph.readyTasks at listed
  obtain ⟨_, open_⟩ := List.mem_filter.mp listed
  obtain ⟨_, done⟩ := Bool.and_eq_true_iff.mp open_
  exact fun dependency required => List.all_eq_true.mp done dependency required

/-- An edge that a batch adds is one of its mutations. -/
theorem addDependency_of_addedEdge {batch : List WorkflowMutation} {taskId dependency : Id}
    (added : (taskId, dependency) ∈ batch.filterMap WorkflowGraph.addedEdge) :
    .addDependency taskId dependency ∈ batch := by
  obtain ⟨mutation, member, same⟩ := List.mem_filterMap.mp added
  cases mutation with
  | addTask task => cases same
  | addDependency source target =>
    cases same
    exact member

variable [Postcard] [FaithfulStore σ]

section Acted

variable {runtime reached : Runtime σ ν} {state next : DurableRunState} {action : Action}
  {result : Except RuntimeError Unit}

/-- What an action must meet to keep the order. -/
def KeepsOrder (runtime : Runtime σ ν) : Action → Prop
  | .intent fact _ => Unblocked runtime.workflow fact.taskId
  | .mutate workflow _ => ∀ taskId, runtime.journal.operationForTask taskId ≠ none →
      ∀ dependency, WorkflowGraph.Requires workflow.topology taskId dependency →
      WorkflowGraph.Requires runtime.workflow.topology taskId dependency ∨
        runtime.workflow.isCompleted dependency = true
  | _ => True

/-- Completions are kept, and prerequisites of a task with an operation are completed. -/
theorem Acted.unblocked (acted : Acted runtime state action result reached next)
    (allowed : runtime.Allowed action) (keeps : KeepsOrder runtime action)
    (synced : Synced runtime state) {taskId : Id}
    (owned : runtime.journal.operationForTask taskId ≠ none)
    (unblocked : Unblocked runtime.workflow taskId) : Unblocked reached.workflow taskId := by
  rcases acted.changes allowed synced with changed | same
  · rw [changed.workflow]
    cases action with
    | complete fact workflow =>
      have completed : runtime.workflow.complete fact.taskId = .ok workflow := allowed.1
      intro dependency required
      have required : WorkflowGraph.Requires workflow.topology taskId dependency := required
      rw [WorkflowGraph.topology_of_complete completed] at required
      exact (WorkflowGraph.isCompleted_of_complete completed).mpr
        (.inr (unblocked dependency required))
    | mutate workflow identity =>
      obtain ⟨_, _, _, _, _, applied⟩ := allowed
      intro dependency required
      show workflow.isCompleted dependency = true
      rw [WorkflowGraph.isCompleted_of_applyBatch applied]
      rcases keeps taskId owned dependency required with before | done
      · exact unblocked dependency before
      · exact done
    | _ => exact unblocked
  · rw [same.workflow]
    exact unblocked

/-- **An action that keeps the order.** -/
theorem Acted.inOrder (acted : Acted runtime state action result reached next)
    (allowed : runtime.Allowed action) (keeps : KeepsOrder runtime action)
    (synced : Synced runtime state) (inOrder : InOrder runtime state) : InOrder reached next := by
  have coherent := synced.coherent
  have before : ∀ (operationId : OperationId) (intent : EffectIntent),
      state.intents[operationId]? = some intent → Unblocked reached.workflow intent.taskId := by
    intro operationId intent found
    refine acted.unblocked allowed keeps synced ?_ (inOrder operationId intent found)
    rw [coherent.journal]
    have owner := (coherent.owned.lineage.inverse intent.taskId operationId).mpr ⟨intent, found, rfl⟩
    exact fun none => by cases owner.symm.trans none
  intro operationId intent found
  cases acted with
  | refused => exact before operationId intent found
  | replayed => exact before operationId intent found
  | fresh room own newKey accepted stored =>
    cases action with
    | intent fact journal =>
      cases accepted with
      | intentKnown => exact before operationId intent found
      | intent _ unknown free =>
        have found : (state.intents.insert fact.operationId fact)[operationId]? = some intent :=
          found
        rw [lookup_insert] at found
        split at found
        · cases found
          exact keeps
        · exact before operationId intent found
    | _ => cases accepted <;> exact before operationId intent found

omit [Postcard] [FaithfulStore σ] in
/-- What an orderly command chooses keeps the order. -/
theorem keepsOrder_of_chooses {command : Command} {after : After}
    (chosen : Chooses runtime command action after) (orderly : OrderlyCommand runtime command) :
    KeepsOrder runtime action := by
  cases chosen with
  | intent => exact orderly
  | stepIntent idle ready => exact unblocked_of_nextReady ready
  | mutate legacy applied identified =>
    intro taskId owned dependency required
    rcases (WorkflowGraph.requires_of_applyBatch applied taskId dependency).mp required with
      before | added
    · exact .inl before
    · exact .inr (orderly taskId dependency (addDependency_of_addedEdge added) owned)
  | _ => trivial

end Acted

/-! ### Runs -/

/-- **A runtime in a run of orderly operations**, with crashes and restores. -/
inductive OrderlyRun : Runtime σ ν → Prop
  | started {store : σ} {runtime : Runtime σ ν}
      (clean : (FaithfulStore.content store).AllReachable) (started : Started store runtime) :
      OrderlyRun runtime
  | performed {runtime : Runtime σ ν} {operation : Operation ν} (run : OrderlyRun runtime)
      (orderly : Orderly runtime operation) : OrderlyRun (operation.perform runtime).2
  | restored {runtime next : Runtime σ ν} {store : σ} (run : OrderlyRun runtime)
      (same : FaithfulStore.content store = FaithfulStore.content runtime.store)
      (restored : Restored runtime.runId store next) : OrderlyRun next

theorem OrderlyRun.driven {runtime : Runtime σ ν} (run : OrderlyRun runtime) :
    ∃ history, Driven history runtime := by
  induction run with
  | started clean started => exact ⟨_, .started clean started⟩
  | performed _ _ ih =>
    obtain ⟨history, driven⟩ := ih
    exact ⟨_, driven.performed _⟩
  | restored _ same restored ih =>
    obtain ⟨history, driven⟩ := ih
    exact ⟨_, driven.restored same restored⟩

omit [Postcard] [FaithfulStore σ] in
theorem Quiet.inOrder {runtime reached : Runtime σ ν} {state : DurableRunState}
    (quiet : Quiet runtime reached) (inOrder : InOrder runtime state) : InOrder reached state := by
  unfold InOrder
  rw [quiet.workflow]
  exact inOrder

/-- **An orderly operation keeps the order.** -/
theorem perform_inOrder {operation : Operation ν} {runtime : Runtime σ ν}
    {state : DurableRunState} (synced : Synced runtime state) (inOrder : InOrder runtime state)
    (orderly : Orderly runtime operation) :
    ∃ next, Synced (operation.perform runtime).2 next ∧
      InOrder (operation.perform runtime).2 next := by
  refine perform_guarded InOrder OrderlyCommand ?_ ?_ ?_ (fun _ => trivial)
    (fun _ quiet before => quiet.inOrder before) (fun command same => by subst same; exact orderly)
    synced inOrder
  · intro runtime reached state next command action after result orderly chosen synced acted before
    exact acted.inOrder (allowed_of_chooses chosen) (keepsOrder_of_chooses chosen orderly) synced
      before
  · intro runtime reached state next fact journal result allowed synced acted before
    exact acted.inOrder allowed trivial synced before
  · intro runtime middle command action chosen acted
    cases chosen <;> trivial

theorem OrderlyRun.inOrder {runtime : Runtime σ ν} (run : OrderlyRun runtime) :
    ∃ state, Synced runtime state ∧ InOrder runtime state := by
  induction run with
  | started clean started =>
    obtain ⟨_, _, _, _, identity, _, _, built, inner⟩ := started.inner
    obtain ⟨synced, _⟩ := startWithIdentity_synced clean built inner
    refine ⟨_, synced, fun operationId intent found => ?_⟩
    simp [DurableRunState.started, DurableRunState.recordCommit, DurableRunState.new] at found
  | performed _ orderly ih =>
    obtain ⟨state, synced, before⟩ := ih
    exact perform_inOrder synced before orderly
  | @restored runtime next store run same restored ih =>
    obtain ⟨state, synced, before⟩ := ih
    obtain ⟨_, driven⟩ := run.driven
    obtain ⟨other, live, consistent⟩ := driven.consistent
    cases synced.unique live
    have again := restored.synced same synced
    -- The stored identity names the prerequisites, and the store has the completions.
    have requires := (consistent.identified.same
      (restored.identified (restored.loaded again))).2
    refine ⟨state, again, fun operationId intent found dependency required => ?_⟩
    have done := before operationId intent found dependency ((requires _ _).mpr required)
    rw [synced.coherent.completed] at done
    exact (again.coherent.completed dependency).mpr done

omit [Postcard] [FaithfulStore σ] in
/-- A task with completed prerequisites is not refused for one. -/
theorem complete_of_unblocked {workflow : WorkflowGraph} {taskId : Id}
    (unblocked : Unblocked workflow taskId) (task dependency : Id) :
    workflow.complete taskId ≠ .error (.incompletePrerequisite task dependency) := by
  intro refused
  unfold WorkflowGraph.complete at refused
  split at refused
  · cases refused
  · split at refused
    · cases refused
    · split at refused
      · rename_i first found
        have listed := List.mem_of_find?_eq_some found
        have open_ := List.find?_some found
        rw [unblocked first listed] at open_
        cases open_
      · cases refused

omit [Postcard] [FaithfulStore σ] in
/-- An action never reports the workflow. -/
theorem act_ne_workflow [DurableStore σ] {action : Action} {runtime : Runtime σ ν}
    {error : WorkflowGraphError} : (act action runtime).1 ≠ .error (.workflow error) := by
  intro refused
  rw [act_eq] at refused
  split at refused
  · cases refused
  · rcases settle_refusal refused with same | ⟨_, same⟩ | ⟨_, same⟩ <;> cases same

omit [Postcard] [FaithfulStore σ] in
/-- **A recovery is not refused for a prerequisite when there is none open.** -/
theorem recover_of_unblocked [DurableStore σ] {operationId : OperationId} {runtime : Runtime σ ν}
    (unblocked : ∀ intent, runtime.journal.intent operationId = .ok intent →
      Unblocked runtime.workflow intent.taskId) (task dependency : Id) :
    (recover operationId runtime).1 ≠
      .error (.workflow (.incompletePrerequisite task dependency)) := by
  intro refused
  have known : (completeKnown operationId runtime).1 ≠
      .error (.workflow (.incompletePrerequisite task dependency)) := by
    intro refused
    rw [completeKnown_eq] at refused
    cases found : runtime.journal.intent operationId with
    | error error =>
      rw [found] at refused
      cases refused
    | ok intent =>
      rw [found] at refused
      simp only at refused
      split at refused
      · cases refused
      · split at refused
        · cases refused
        · rw [completeTask_eq] at refused
          split at refused
          · rename_i error incomplete
            cases refused
            exact complete_of_unblocked (unblocked intent found) _ _ incomplete
          · exact act_ne_workflow refused
  rw [recover_eq] at refused
  split at refused
  · cases refused
  · split at refused
    · rw [run_bind] at refused
      rcases completed : completeKnown operationId runtime with ⟨error | _, reached⟩
      · rw [completed] at refused known
        cases refused
        exact known rfl
      · rw [completed] at refused
        cases refused
    · cases refused

/-- **Effects respect the order of the workflow** in every run, declarative or not, with failures,
crashes and restores, whose direct intents are for tasks with completed prerequisites and whose
mutations add no open prerequisite to a task with an operation: whenever a dispatch succeeds, every
prerequisite of its task is completed, and no recovery of a known success fails for one that is
not. In every run at all, the prerequisites of every completed task are completed. -/
theorem effects_respect_order :
    (∀ (runtime : Runtime σ ν), OrderlyRun runtime → ∀ operationId,
        (∀ attemptId, (dispatchEffect operationId runtime).1 = .ok attemptId →
          ∃ intent, runtime.journal.intent operationId = .ok intent ∧
            Unblocked runtime.workflow intent.taskId) ∧
        ∀ task dependency, (recover operationId runtime).1 ≠
          .error (.workflow (.incompletePrerequisite task dependency))) ∧
      ∀ (history : History ν) (runtime : Runtime σ ν), Driven history runtime →
        ∀ taskId, runtime.workflow.isCompleted taskId = true →
          Unblocked runtime.workflow taskId := by
  refine ⟨fun runtime run operationId => ?_, fun history runtime driven taskId done => ?_⟩
  · obtain ⟨state, synced, inOrder⟩ := run.inOrder
    have unblocked : ∀ intent, runtime.journal.intent operationId = .ok intent →
        Unblocked runtime.workflow intent.taskId :=
      fun intent found => inOrder operationId intent (synced.coherent.intent found)
    refine ⟨fun attemptId dispatched => ?_, fun task dependency failed => ?_⟩
    · cases found : runtime.journal.intent operationId with
      | error error =>
        simp only [dispatchEffect, run_bind, run_get, run_lift, found, Except.mapError] at dispatched
        cases dispatched
      | ok intent => exact ⟨intent, rfl, unblocked intent found⟩
    · exact recover_of_unblocked unblocked task dependency failed
  · obtain ⟨state, synced, consistent⟩ := driven.consistent
    intro dependency required
    exact (WorkflowGraph.invariant_of_built consistent.follows.built).prerequisites taskId dependency
      done required

end Runtime

/-! ### A sample run -/

/-- The sample definition, started over a new store. -/
def sampleDeclared [Postcard] : Except RuntimeError (Runtime InMemoryDurableStore Unit) :=
  (Runtime.startFromDefinitionWithStore sampleRun sampleOrdered sampleFactories 1
    InMemoryDurableStore.new).1

theorem sampleDeclared_started [Postcard] {runtime : Runtime InMemoryDurableStore Unit}
    (started : sampleDeclared = .ok runtime) : Runtime.Started InMemoryDurableStore.new runtime :=
  .fromDefinition (Prod.ext started rfl)

/-- An intent for the second task. -/
def sampleAhead : Operation Unit :=
  .command (.recordEffectIntent sampleLater sampleOperation .nonIdempotent)

/-- **A dispatch ahead of a prerequisite.** The intent is recorded before the first task is completed;
the dispatch succeeds, and the known success cannot complete the task. -/
theorem effect_ahead_of_prerequisite :
    let _ := Persisted.postcard
    ∃ history, ∃ runtime : Runtime InMemoryDurableStore Unit, Runtime.Driven history runtime ∧
      (Runtime.dispatchEffect sampleOperation runtime).1 = .ok (generatedAttemptId sampleRun 1) ∧
      runtime.journal.intent sampleOperation =
        .ok ⟨sampleLater, sampleOperation, .nonIdempotent⟩ ∧
      ¬ Runtime.Unblocked runtime.workflow sampleLater ∧
      (Runtime.recover sampleOperation (runtime.performAll
        [.command (.dispatchEffect sampleOperation),
          .command (.recordEffectOutcome sampleOperation (generatedAttemptId sampleRun 1)
            .succeeded)])).1 =
        .error (.workflow (.incompletePrerequisite sampleLater sampleTask)) := by
  intro _
  obtain ⟨runtime, started, holds⟩ := exists_ok_of_any
    (show (sampleDeclared.toOption.any fun runtime =>
      (Runtime.dispatchEffect sampleOperation (sampleAhead.perform runtime).2).1 =
          .ok (generatedAttemptId sampleRun 1) ∧
        (sampleAhead.perform runtime).2.journal.intent sampleOperation =
          .ok ⟨sampleLater, sampleOperation, .nonIdempotent⟩ ∧
        sampleTask ∈ (sampleAhead.perform runtime).2.workflow.topology.dependenciesOf sampleLater ∧
        (sampleAhead.perform runtime).2.workflow.isCompleted sampleTask = false ∧
        (Runtime.recover sampleOperation ((sampleAhead.perform runtime).2.performAll
          [.command (.dispatchEffect sampleOperation),
            .command (.recordEffectOutcome sampleOperation (generatedAttemptId sampleRun 1)
              .succeeded)])).1 =
          .error (.workflow (.incompletePrerequisite sampleLater sampleTask))) = true by
      decide +kernel)
  obtain ⟨dispatched, found, required, open_, refused⟩ := of_decide_eq_true holds
  refine ⟨_, _, (Runtime.Driven.started InMemoryDurableStore.allReachable_new
    (sampleDeclared_started started)).performed sampleAhead, dispatched, found, ?_, refused⟩
  intro unblocked
  have done := unblocked sampleTask required
  rw [open_] at done
  cases done

/-- The same intent after the first task is completed: the dispatch is in order. -/
theorem effects_respect_order_sample :
    let _ := Persisted.postcard
    ∃ runtime : Runtime InMemoryDurableStore Unit,
      (Runtime.dispatchEffect sampleOperation runtime).1 = .ok (generatedAttemptId sampleRun 2) ∧
      ∃ intent, runtime.journal.intent sampleOperation = .ok intent ∧
        Runtime.Unblocked runtime.workflow intent.taskId := by
  intro _
  obtain ⟨runtime, started, holds⟩ := exists_ok_of_any
    (show (sampleDeclared.toOption.any fun runtime =>
      (((Operation.command .step : Operation Unit).perform runtime).2.workflow.topology.dependenciesOf
          sampleLater).all ((Operation.command .step : Operation Unit).perform
            runtime).2.workflow.isCompleted = true ∧
        (Runtime.dispatchEffect sampleOperation (sampleAhead.perform
          ((Operation.command .step : Operation Unit).perform runtime).2).2).1 =
            .ok (generatedAttemptId sampleRun 2)) = true by
      decide +kernel)
  obtain ⟨done, dispatched⟩ := of_decide_eq_true holds
  have stepped : Runtime.OrderlyRun ((Operation.command .step : Operation Unit).perform runtime).2 :=
    .performed (.started InMemoryDurableStore.allReachable_new (sampleDeclared_started started))
      trivial
  have run : Runtime.OrderlyRun (sampleAhead.perform
      ((Operation.command .step : Operation Unit).perform runtime).2).2 :=
    .performed stepped fun dependency required => List.all_eq_true.mp done dependency required
  exact ⟨_, dispatched, (Runtime.effects_respect_order.1 _ run sampleOperation).1 _ dispatched⟩

end Kernis
