/-
**The workflow's completions and the effect journal never contradict each other.**

Completions and effects are two authorities. A plain completion needs a task without an operation,
a completion of an effect needs its known success, and neither can be undone: an intent needs an
unfinished task, and a dispatch an operation without a known outcome.

* `Settled state` — every operation of a completed task is known to have succeeded. `Acted.settled`.
* `Prepared runtime state` — every intent is about a task of the workflow, in every incarnation.
* `recovery_consistent` — recovery never meets an inconsistent state.
-/

import Kernis.Runtime.Described

namespace Kernis

open Std Fallible

namespace DurableRunState

variable {state next : DurableRunState}

/-- A known outcome is the outcome of the latest dispatch of a prepared operation. -/
theorem effectState_known_iff {operationId : OperationId} {known : KnownEffectOutcome} :
    state.effectState operationId = .outcomeKnown known ↔
      operationId ∈ state.intents ∧ ∃ dispatch outcome,
        state.latestDispatch operationId = some dispatch ∧
        state.outcomes[dispatch.attemptId]? = some outcome ∧ outcome.outcome = known := by
  unfold effectState
  constructor
  · intro concluded
    split at concluded
    · cases concluded
    · rename_i prepared
      split at concluded
      · cases concluded
      · split at concluded
        · cases concluded
        · cases concluded
          exact ⟨not_not.mp prepared, _, _, ‹_›, ‹_›, rfl⟩
  · rintro ⟨prepared, dispatch, outcome, latest, concluded, rfl⟩
    rw [if_neg (not_not.mpr prepared), latest]
    simp only [concluded]

/-- **Every operation of a completed task is known to have succeeded.** -/
def Settled (state : DurableRunState) : Prop :=
  ∀ (operationId : OperationId) (intent : EffectIntent),
    state.intents[operationId]? = some intent → intent.taskId ∈ state.completions →
    state.effectState operationId = .outcomeKnown .succeeded

/-- A known outcome stays known unless the operation is dispatched again. -/
theorem Accepted.known {mutation : DurableMutation} (accepted : Accepted state mutation next)
    {operationId : OperationId} {known : KnownEffectOutcome}
    (concluded : state.effectState operationId = .outcomeKnown known)
    (elsewhere : ∀ dispatch, mutation = .recordDispatch dispatch →
      dispatch.operationId ≠ operationId) :
    next.effectState operationId = .outcomeKnown known := by
  obtain ⟨prepared, dispatch, outcome, latest, found, same⟩ := effectState_known_iff.mp concluded
  have more := accepted.extends
  obtain ⟨intent, held⟩ := exists_lookup_of_mem prepared
  refine effectState_known_iff.mpr ⟨mem_of_lookup (more.intents held), dispatch, outcome, ?_,
    more.outcomes found, same⟩
  cases accepted with
  | dispatch sent =>
    show ((state.dispatchHistory ++ [sent]).filter fun dispatch =>
      dispatch.operationId = operationId).getLast? = some dispatch
    rw [List.filter_append]
    have other : [sent].filter (fun dispatch => dispatch.operationId = operationId) = [] := by
      simp [elsewhere sent rfl]
    rw [other, List.append_nil]
    exact latest
  | _ => exact latest

end DurableRunState

namespace Runtime

variable {σ ν : Type} [Postcard] [FaithfulStore σ]

section Acted

variable {runtime reached : Runtime σ ν} {state next : DurableRunState} {action : Action}
  {result : Except RuntimeError Unit}

omit [FaithfulStore σ] in
/-- What a completion rests on: the task has no operation, or its operation succeeded. -/
theorem Coherent.completes (coherent : Coherent runtime state) {fact : CompletionRecord}
    {workflow : WorkflowGraph} (allowed : runtime.Allowed (.complete fact workflow))
    {operationId : OperationId} {intent : EffectIntent}
    (prepared : state.intents[operationId]? = some intent) (same : intent.taskId = fact.taskId) :
    state.effectState operationId = .outcomeKnown .succeeded := by
  have lineage := coherent.owned.lineage
  have owner := (lineage.inverse fact.taskId operationId).mpr ⟨intent, prepared, same⟩
  obtain ⟨_, ⟨free, _⟩ | ⟨other, outcome, success⟩⟩ := allowed
  · rw [coherent.journal] at free
    cases free.symm.trans owner
  · have mine : state.taskOperations[fact.taskId]? = some other := by
      rcases success.owned with own | ⟨held, found, task⟩
      · rw [coherent.journal] at own
        exact own
      · exact (lineage.inverse _ _).mpr ⟨held, coherent.intent found, task⟩
    cases owner.symm.trans mine
    have succeeded := success.succeeded
    rw [coherent.journal, DurableRunState.state_journal lineage] at succeeded
    exact succeeded

/-- **An allowed action leaves no operation of a completed task unsettled.** -/
theorem Acted.settled (acted : Acted runtime state action result reached next)
    (allowed : runtime.Allowed action) (synced : Synced runtime state) (settled : state.Settled) :
    next.Settled := by
  cases acted with
  | refused => exact settled
  | replayed => exact settled
  | @fresh store candidate key room own newKey accepted =>
    have coherent := synced.coherent
    show candidate.Settled
    intro operationId intent prepared finished
    cases action with
    | intent fact journal =>
      cases accepted with
      | intentKnown => exact settled operationId intent prepared finished
      | intent _ unknown free =>
        have prepared : (state.intents.insert fact.operationId fact)[operationId]? = some intent :=
          prepared
        have finished : intent.taskId ∈ state.completions := finished
        rw [lookup_insert] at prepared
        split at prepared
        · cases prepared
          -- A new intent needs an unfinished task.
          have done := (coherent.completed intent.taskId).mpr finished
          rw [allowed.2.1] at done
          cases done
        · exact DurableRunState.Accepted.known (.intent fact unknown free)
            (settled operationId intent prepared finished) fun _ same => by cases same
    | dispatch fact journal =>
      obtain ⟨_, _, _, _, guard, _⟩ := allowed
      rw [coherent.journal, DurableRunState.state_journal coherent.owned.lineage] at guard
      have known : state.effectState operationId = .outcomeKnown .succeeded := by
        cases accepted
        exact settled operationId intent prepared finished
      refine accepted.known known fun sent same => ?_
      cases same
      rintro rfl
      rw [known] at guard
      rcases guard with fresh | ⟨unknown, _⟩
      · cases fresh
      · cases unknown
    | complete fact workflow =>
      have known : state.effectState operationId = .outcomeKnown .succeeded := by
        cases accepted with
        | completionKnown => exact settled operationId intent prepared finished
        | completion =>
          rcases (mem_insert_iff _ _ _ _).mp finished with same | before
          · exact coherent.completes allowed prepared same
          · exact settled operationId intent prepared before
      exact accepted.known known fun _ same => by cases same
    | _ =>
      have known : state.effectState operationId = .outcomeKnown .succeeded := by
        cases accepted <;> exact settled operationId intent prepared finished
      exact accepted.known known fun _ same => by cases same

end Acted

/-- **Every intent is about a task of the workflow.** -/
def Prepared (runtime : Runtime σ ν) (state : DurableRunState) : Prop :=
  ∀ (operationId : OperationId) (intent : EffectIntent),
    state.intents[operationId]? = some intent → intent.taskId ∈ runtime.workflow.topology.tasks

/-- **What makes recovery safe.** -/
structure Consistent (runtime : Runtime σ ν) (state : DurableRunState) : Prop where
  follows : Follows runtime state
  identified : Identified runtime state
  prepared : Prepared runtime state
  settled : state.Settled

/-- No action takes a task out of the workflow. -/
theorem Acted.tasks {runtime reached : Runtime σ ν} {state next : DurableRunState}
    {action : Action} {result : Except RuntimeError Unit}
    (acted : Acted runtime state action result reached next) (allowed : runtime.Allowed action)
    (synced : Synced runtime state) {taskId : Id}
    (member : taskId ∈ runtime.workflow.topology.tasks) : taskId ∈ reached.workflow.topology.tasks := by
  rcases acted.changes allowed synced with changed | same
  · rw [changed.workflow]
    cases action with
    | complete fact workflow =>
      rw [Action.workflowAfter, WorkflowGraph.topology_of_complete allowed.1]
      exact member
    | mutate workflow identity =>
      obtain ⟨_, _, _, _, _, applied⟩ := allowed
      exact (WorkflowGraph.grown_of_applyBatch applied).1.tasks taskId member
    | _ => exact member
  · rw [same.workflow]
    exact member

theorem Acted.prepared {runtime reached : Runtime σ ν} {state next : DurableRunState}
    {action : Action} {result : Except RuntimeError Unit}
    (acted : Acted runtime state action result reached next) (allowed : runtime.Allowed action)
    (synced : Synced runtime state) (prepared : Prepared runtime state) : Prepared reached next := by
  have tasks : ∀ taskId, taskId ∈ runtime.workflow.topology.tasks →
      taskId ∈ reached.workflow.topology.tasks := fun _ member => acted.tasks allowed synced member
  intro operationId intent found
  cases acted with
  | refused => exact tasks _ (prepared operationId intent found)
  | replayed => exact tasks _ (prepared operationId intent found)
  | fresh room own newKey accepted =>
    cases action with
    | intent fact journal =>
      cases accepted with
      | intentKnown => exact tasks _ (prepared operationId intent found)
      | intent =>
        have found : (state.intents.insert fact.operationId fact)[operationId]? = some intent :=
          found
        rw [lookup_insert] at found
        split at found
        · cases found
          exact tasks _ allowed.1
        · exact tasks _ (prepared operationId intent found)
    | _ => cases accepted <;> exact tasks _ (prepared operationId intent found)

theorem Acted.consistent {runtime reached : Runtime σ ν} {state next : DurableRunState}
    {action : Action} {result : Except RuntimeError Unit}
    (acted : Acted runtime state action result reached next) (allowed : runtime.Allowed action)
    (synced : Synced runtime state) (before : Consistent runtime state) : Consistent reached next :=
  ⟨acted.follows allowed synced before.follows,
    acted.identified allowed synced before.follows before.identified,
    acted.prepared allowed synced before.prepared, acted.settled allowed synced before.settled⟩

omit [Postcard] [FaithfulStore σ] in
theorem Quiet.consistent {runtime reached : Runtime σ ν} {state : DurableRunState}
    (quiet : Quiet runtime reached) (before : Consistent runtime state) :
    Consistent reached state := by
  refine ⟨quiet.follows before.follows, before.identified.of_topology ?_ rfl, ?_, before.settled⟩
  · rw [quiet.workflow]
  · unfold Prepared
    rw [quiet.workflow]
    exact before.prepared

/-- The identity that lets a restore through names the same tasks. -/
theorem Restored.tasks {runtime next : Runtime σ ν} {state : DurableRunState} {runId : RunId}
    {store : σ} (restored : Restored runId store next) (again : Synced next state)
    (before : Consistent runtime state) (taskId : Id) :
    taskId ∈ runtime.workflow.topology.tasks ↔ taskId ∈ next.workflow.topology.tasks :=
  (before.identified.same (restored.identified (restored.loaded again))).1 taskId

theorem Restored.consistent {runtime next : Runtime σ ν} {state : DurableRunState} {runId : RunId}
    {store : σ} (restored : Restored runId store next) (again : Synced next state)
    (before : Consistent runtime state) : Consistent next state := by
  have loaded := restored.loaded again
  refine ⟨restored.follows loaded, restored.identified loaded, fun operationId intent found => ?_,
    before.settled⟩
  exact (restored.tasks again before _).mp (before.prepared operationId intent found)

/-- **Every run is consistent**, whatever its operations and restores. -/
theorem Driven.consistent {history : History ν} {runtime : Runtime σ ν}
    (driven : Driven history runtime) :
    ∃ state, Synced runtime state ∧ Consistent runtime state := by
  refine driven.invariant Consistent ?_
    (fun allowed synced acted before => acted.consistent allowed synced before)
    (fun quiet before => quiet.consistent before)
    (fun restored _ again before => restored.consistent again before)
  intro store runtime clean started state synced
  obtain ⟨_, _, _, _, identity, _, _, built, inner⟩ := started.inner
  obtain ⟨first, _⟩ := startWithIdentity_synced clean built inner
  have none : ∀ operationId : OperationId, state.intents[operationId]? = none := by
    rw [synced.unique first]
    simp [DurableRunState.started, DurableRunState.recordCommit, DurableRunState.new]
  refine ⟨started.follows clean synced, started.identified clean synced, ?_, ?_⟩
  · intro operationId intent found
    cases (none operationId).symm.trans found
  · intro operationId intent found
    cases (none operationId).symm.trans found

/-! ### Recovery -/

omit [Postcard] [FaithfulStore σ] in
/-- Recovery of an operation whose task exists and whose facts agree decides something sound. -/
theorem classifyRecovery_sound {workflow : WorkflowGraph} {journal : DurableJournal}
    {operationId : OperationId} {intent : EffectIntent}
    (found : journal.intent operationId = .ok intent)
    (exists_ : intent.taskId ∈ workflow.topology.tasks)
    (agrees : workflow.isCompleted intent.taskId = true →
      journal.state operationId = .outcomeKnown .succeeded) :
    ∃ decision, classifyRecovery workflow journal operationId = .ok decision ∧
      decision.action ≠ .invariantViolation := by
  obtain ⟨task, held⟩ := exists_lookup_of_mem exists_
  have known : (workflow.task intent.taskId).isNone = false := by
    rw [WorkflowGraph.task, held]
    rfl
  have unfinished : journal.state operationId ≠ .outcomeKnown .succeeded →
      workflow.isCompleted intent.taskId = false := fun differ =>
    Bool.eq_false_iff.mpr fun done => differ (agrees done)
  unfold classifyRecovery
  simp only [found, known, Bool.false_eq_true, if_false]
  cases state : journal.state operationId with
  | notPrepared =>
    exact absurd state (DurableJournal.state_ne_notPrepared found)
  | prepared =>
    have unfinished := unfinished (by rw [state]; exact fun same => by cases same)
    simp only [unfinished, Bool.false_eq_true, if_false]
    exact ⟨_, rfl, fun same => by cases same⟩
  | outcomeUnknown =>
    have unfinished := unfinished (by rw [state]; exact fun same => by cases same)
    obtain ⟨dispatch, latest⟩ := DurableJournal.latestDispatch_of_outcomeUnknown state
    simp only [latest, unfinished, Bool.false_eq_true, if_false]
    refine ⟨_, rfl, ?_⟩
    cases intent.semantics <;> exact fun same => by cases same
  | outcomeKnown outcome =>
    obtain ⟨record, concluded, _⟩ := DurableJournal.knownOutcome_of_outcomeKnown state
    simp only [concluded]
    refine ⟨_, rfl, ?_⟩
    cases outcome with
    | succeeded => cases workflow.isCompleted intent.taskId <;> exact fun same => by cases same
    | failed =>
      rw [unfinished (by rw [state]; exact fun same => by cases same)]
      exact fun same => by cases same

/-- **Recovery never meets an inconsistent state.** In every run, with any operations, failures,
crashes and restores, and for every operation with an intent: its task exists, it is known to have
succeeded if its task is completed, every lookup that recovery takes for granted succeeds, and
neither the classification nor a recovery reports a violated invariant. -/
theorem recovery_consistent (history : History ν) (runtime : Runtime σ ν)
    (driven : Driven history runtime) (operationId : OperationId) (intent : EffectIntent)
    (found : runtime.journal.intent operationId = .ok intent) :
    (runtime.workflow.task intent.taskId).isSome = true ∧
      (runtime.workflow.isCompleted intent.taskId = true →
        runtime.journal.state operationId = .outcomeKnown .succeeded) ∧
      (runtime.journal.state operationId = .outcomeUnknown →
        (runtime.journal.latestDispatch operationId).isSome = true) ∧
      (∀ outcome, runtime.journal.state operationId = .outcomeKnown outcome →
        (runtime.journal.knownOutcome operationId).isSome = true) ∧
      (∃ decision, classifyRecovery runtime.workflow runtime.journal operationId = .ok decision ∧
        decision.action ≠ .invariantViolation) ∧
      ∀ decision, (recover operationId runtime).1 = .ok decision →
        decision.action ≠ .invariantViolation := by
  obtain ⟨state, synced, consistent⟩ := driven.consistent
  have coherent := synced.coherent
  have stored := coherent.intent found
  have exists_ := consistent.prepared operationId intent stored
  have agrees : runtime.workflow.isCompleted intent.taskId = true →
      runtime.journal.state operationId = .outcomeKnown .succeeded := by
    intro done
    rw [coherent.journal, DurableRunState.state_journal coherent.owned.lineage]
    exact consistent.settled operationId intent stored ((coherent.completed _).mp done)
  obtain ⟨decision, classified, sound⟩ := classifyRecovery_sound found exists_ agrees
  refine ⟨?_, agrees, ?_, ?_, ⟨decision, classified, sound⟩, ?_⟩
  · exact ExtTreeMap.mem_iff_isSome_getElem?.mp exists_
  · intro unknown
    obtain ⟨dispatch, latest⟩ := DurableJournal.latestDispatch_of_outcomeUnknown unknown
    rw [latest]
    rfl
  · intro outcome known
    obtain ⟨record, concluded, _⟩ := DurableJournal.knownOutcome_of_outcomeKnown known
    rw [concluded]
    rfl
  · intro other recovered
    rw [recover_eq, classified] at recovered
    simp only at recovered
    split at recovered
    · rw [run_bind] at recovered
      split at recovered
      · cases recovered
        exact sound
      · cases recovered
    · cases recovered
      exact sound

end Runtime

/-- The sample effect succeeds and completes its task. -/
def sampleRecovered : List (Operation Unit) :=
  [.command (.recordEffectIntent sampleTask sampleOperation .nonIdempotent),
    .command (.dispatchEffect sampleOperation),
    .command (.recordEffectOutcome sampleOperation (generatedAttemptId sampleRun 1) .succeeded),
    .command (.recover sampleOperation)]

/-- The recovered task is completed, and a further recovery finds nothing to complain about. -/
theorem recovery_consistent_sample :
    let _ := Persisted.postcard
    ∃ runtime, sampleStarted = .ok runtime ∧
      (runtime.performAll sampleRecovered).workflow.isCompleted sampleTask = true ∧
      (runtime.performAll sampleRecovered).journal.state sampleOperation =
        .outcomeKnown .succeeded := by
  intro _
  obtain ⟨runtime, started, holds⟩ := exists_ok_of_any
    (show (sampleStarted.toOption.any fun runtime =>
      (runtime.performAll sampleRecovered).journal.intent sampleOperation =
          .ok ⟨sampleTask, sampleOperation, .nonIdempotent⟩ ∧
        (runtime.performAll sampleRecovered).workflow.isCompleted sampleTask = true) = true by
      decide +kernel)
  obtain ⟨found, completed⟩ := of_decide_eq_true holds
  have driven := (sampleStarted_driven started).performAll sampleRecovered
  exact ⟨runtime, started, completed,
    (Runtime.recovery_consistent _ _ driven _ _ found).2.1 completed⟩

end Kernis
