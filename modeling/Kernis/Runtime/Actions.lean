/-
**Actions: the commits of a runtime, each with what it changes in memory.**

Every operation that writes is a short sequence of actions. An action commits one mutation at the
runtime's revision and, once the store accepted, settles the in-memory views.

* `act` — commit, then settle. `act_eq` is its equation over any store.
* `settle_admission`, `settle_complete` — the two settlements that announce: they number an event, and
  enqueue it or leave it with the caller.
* `beginAttempt_eq`, `completeTask_eq`, … — the operations' steps are actions.
-/

import Kernis.Runtime.Start

namespace Kernis

open Std Fallible

/-- One commit of a runtime. A fact comes with the view that holds it. -/
inductive Action
  | intent (fact : EffectIntent) (journal : DurableJournal)
  | admission (attempt : TaskAttempt)
  | dispatch (fact : DispatchRecord) (journal : DurableJournal)
  | outcome (fact : OutcomeRecord) (journal : DurableJournal)
  | cancel (fact : CancellationRecord)
  | complete (fact : CompletionRecord) (workflow : WorkflowGraph)
  | configure (taskConfigs : BTreeMap Id TaskConfig) (identity : WorkflowReplayIdentity)
  | mutate (workflow : WorkflowGraph) (identity : WorkflowReplayIdentity)

namespace Action

/-- The idempotency key of an action at a revision. -/
def key (storeRevision : Nat) : Action → Text
  | .intent fact _ => "intent:".toList ++ fact.operationId.id.asStr
  | .admission attempt => "admit:".toList ++ attempt.attemptId.id.asStr
  | .dispatch fact _ => "dispatch:".toList ++ fact.attemptId.id.asStr
  | .outcome fact _ => "outcome:".toList ++ fact.attemptId.id.asStr
  | .cancel fact => "cancel:".toList ++ fact.taskId.asStr
  | .complete fact _ =>
    "completion:".toList ++ fact.taskId.asStr ++ ":".toList ++ fact.attemptId.id.asStr
  | .configure _ identity =>
    "workflow-identity:".toList ++ digits storeRevision ++ ":".toList ++ identity.text.val
  | .mutate _ identity =>
    "workflow-identity:".toList ++ digits storeRevision ++ ":".toList ++ identity.text.val

/-- The mutation of an action. -/
def mutation : Action → DurableMutation
  | .intent fact _ => .recordIntent fact
  | .admission attempt => .admitAttempt attempt.admission
  | .dispatch fact _ => .recordDispatch fact
  | .outcome fact _ => .recordOutcome fact
  | .cancel fact => .recordCancellation fact
  | .complete fact _ => .recordCompletion fact
  | .configure _ identity => .recordWorkflowReplayIdentity identity
  | .mutate _ identity => .recordWorkflowReplayIdentity identity

variable {σ ν : Type}

/-- What an accepted action changes in memory. -/
def settle : Action → Op σ ν Unit
  | .intent _ journal => modify fun runtime => { runtime with journal := journal }
  | .admission attempt => (Runtime.announceStarted attempt).map fun _ => ()
  | .dispatch _ journal => modify fun runtime => { runtime with journal := journal }
  | .outcome _ journal => modify fun runtime => { runtime with journal := journal }
  | .cancel fact => modify fun runtime =>
      { runtime with cancelled := runtime.cancelled.insert fact.taskId }
  | .complete fact workflow => do
    modify fun runtime => { runtime with workflow := workflow }
    Runtime.emitCompleted fact.taskId fact.attemptId
  | .configure taskConfigs _ => modify fun runtime => { runtime with taskConfigs := taskConfigs }
  | .mutate workflow _ => modify fun runtime => { runtime with workflow := workflow }

theorem blank_key (action : Action) (storeRevision : Nat) :
    blank (action.key storeRevision) = false := by
  cases action with
  | intent fact journal => exact blank_append_of_left (by decide) _
  | admission attempt => exact blank_append_of_left (by decide) _
  | dispatch fact journal => exact blank_append_of_left (by decide) _
  | outcome fact journal => exact blank_append_of_left (by decide) _
  | cancel fact => exact blank_append_of_left (by decide) _
  | complete fact workflow =>
    exact blank_append_of_left (blank_append_of_left (blank_append_of_left (by decide) _) _) _
  | configure taskConfigs identity =>
    exact blank_append_of_left (blank_append_of_left (blank_append_of_left (by decide) _) _) _
  | mutate workflow identity =>
    exact blank_append_of_left (blank_append_of_left (blank_append_of_left (by decide) _) _) _

/-- The key as an identity. -/
def idempotencyKey (action : Action) (storeRevision : Nat) : IdempotencyKey :=
  ⟨⟨action.key storeRevision, action.blank_key storeRevision⟩⟩

/-- The commit request of an action. -/
def request (action : Action) (runtime : Runtime σ ν) : CommitRequest :=
  ⟨runtime.runId, runtime.storeRevision, action.idempotencyKey runtime.storeRevision,
    [action.mutation]⟩

end Action

/-- A non-blank text is a valid key. -/
theorem IdempotencyKey.new_of_not_blank {text : Text} (valid : blank text = false) :
    IdempotencyKey.new text = .ok ⟨⟨text, valid⟩⟩ := dif_pos valid

namespace Runtime

variable {σ ν : Type}

/-! ### Settlements that announce -/

/-- A runtime whose store accepted and answered a revision. -/
def accepted {τ : Type} (runtime : Runtime σ ν) (store : τ) (storeRevision : Nat) : Runtime τ ν :=
  { runtime with store := store, storeRevision := storeRevision }

theorem settle_admission (attempt : TaskAttempt) (runtime : Runtime σ ν) :
    (Action.admission attempt).settle runtime =
      match checkedNext runtime.nextAttemptNumber with
      | none => (.error .attemptIdExhausted, runtime)
      | some next =>
        match runtime.executionSequencer.emit
            (.taskStarted attempt.runId attempt.taskId attempt.attemptId) with
        | (.error error, sequencer) => (.error (.stream error),
            { runtime with nextAttemptNumber := next, executionSequencer := sequencer })
        | (.ok item, sequencer) =>
          match runtime.executionEvents.tryPush item with
          | .ok events => (.ok (), { runtime with
              nextAttemptNumber := next
              executionSequencer := sequencer
              executionEvents := events
              attempts := runtime.attempts ++ [attempt] })
          | .error rejected => (.error (.executionBackpressure rejected), { runtime with
              nextAttemptNumber := next
              executionSequencer := sequencer
              pendingStarted := some (attempt, rejected) }) := by
  simp only [Action.settle, Fallible.map, announceStarted, advanceAttemptNumber, run_bind, run_get]
  cases checkedNext runtime.nextAttemptNumber with
  | none => rfl
  | some next =>
    simp only [run_modify, emitExecution]
    rcases runtime.executionSequencer.emit
      (RuntimeEvent.taskStarted attempt.runId attempt.taskId attempt.attemptId) with ⟨_ | item, seq⟩
    · rfl
    · simp only [enqueueStarted, enqueueExecution]
      cases runtime.executionEvents.tryPush item <;> rfl

theorem settle_complete (fact : CompletionRecord) (workflow : WorkflowGraph)
    (runtime : Runtime σ ν) :
    (Action.complete fact workflow).settle runtime =
      match runtime.executionSequencer.emit
          (.taskCompleted runtime.runId fact.taskId fact.attemptId) with
      | (.error error, sequencer) => (.error (.stream error),
          { runtime with workflow := workflow, executionSequencer := sequencer })
      | (.ok item, sequencer) =>
        match runtime.executionEvents.tryPush item with
        | .ok events => (.ok (), { runtime with
            workflow := workflow
            executionSequencer := sequencer
            executionEvents := events })
        | .error rejected => (.error (.executionBackpressure rejected),
            { runtime with workflow := workflow, executionSequencer := sequencer }) := by
  simp only [Action.settle, emitCompleted, run_bind, run_get, run_modify, emitExecution]
  rcases runtime.executionSequencer.emit
    (RuntimeEvent.taskCompleted runtime.runId fact.taskId fact.attemptId) with ⟨_ | item, seq⟩
  · rfl
  · simp only [enqueueExecution]
    cases runtime.executionEvents.tryPush item <;> rfl

theorem announceStarted_value {attempt : TaskAttempt} {runtime : Runtime σ ν} {result : AttemptId}
    (announced : (announceStarted attempt runtime).1 = .ok result) :
    result = attempt.attemptId := by
  simp only [announceStarted, run_bind] at announced
  split at announced
  · split at announced
    · unfold enqueueStarted at announced
      split at announced <;> cases announced
      rfl
    · cases announced
  · cases announced

/-! ### The next attempt -/

/-- The attempt that a runtime would admit next. -/
def nextAttempt (runtime : Runtime σ ν) (taskId : Id) (operationId : Option OperationId)
    (pins : List CapabilityPin) : TaskAttempt :=
  ⟨runtime.runId, taskId, generatedAttemptId runtime.runId runtime.nextAttemptNumber, operationId,
    pins⟩

theorem belongsTo_nextAttempt (runtime : Runtime σ ν) (taskId : Id)
    (operationId : Option OperationId) (pins : List CapabilityPin) :
    belongsTo taskId operationId (runtime.nextAttempt taskId operationId pins) = true := by
  simp [belongsTo, nextAttempt]

/-- The newest attempt of a task and operation is found when none was found before. -/
theorem attemptForTask_push {runtime reached : Runtime σ ν} {taskId : Id}
    {operationId : Option OperationId} {attempt : TaskAttempt}
    (missing : runtime.attemptForTask taskId operationId = none)
    (belongs : belongsTo taskId operationId attempt = true)
    (pending : reached.pendingStarted = runtime.pendingStarted)
    (attempts : reached.attempts = runtime.attempts ++ [attempt]) :
    reached.attemptForTask taskId operationId = some attempt.attemptId := by
  unfold attemptForTask at missing ⊢
  rw [pending, attempts]
  split at missing
  · cases missing
  · simp [belongs]

/-! ### Acting -/

variable [DurableStore σ]

/-- Commits an action and settles it. -/
def act (action : Action) : Op σ ν Unit := do
  let runtime ← get
  let _ ← commitDurable (action.key runtime.storeRevision) [action.mutation]
  action.settle

/-- **An action is one commit; a refusal changes the store only.** -/
theorem act_eq (action : Action) (runtime : Runtime σ ν) :
    act action runtime =
      match DurableStore.commit (action.request runtime) runtime.store with
      | (.error error, store) => (.error (.store error), runtime.onStore store)
      | (.ok result, store) => action.settle (runtime.accepted store result.revision) := by
  simp only [act, run_bind, run_get, commitDurable,
    IdempotencyKey.new_of_not_blank (action.blank_key runtime.storeRevision)]
  simp only [Action.request, Action.idempotencyKey]
  rcases DurableStore.commit (⟨runtime.runId, runtime.storeRevision,
    ⟨⟨action.key runtime.storeRevision, action.blank_key runtime.storeRevision⟩⟩,
    [action.mutation]⟩ : CommitRequest) runtime.store with ⟨_ | result, store⟩
  · rfl
  · rfl

/-- What a runtime is after it recorded an intent. -/
theorem act_intent_ok {fact : EffectIntent} {journal : DurableJournal}
    {runtime reached : Runtime σ ν} (done : act (.intent fact journal) runtime = (.ok (), reached)) :
    ∃ store revision, reached = { runtime.accepted store revision with journal := journal } := by
  rw [act_eq] at done
  split at done
  · cases done
  · cases done
    exact ⟨_, _, rfl⟩

/-- What a runtime is after it admitted an attempt. -/
theorem act_admit_ok {attempt : TaskAttempt} {runtime reached : Runtime σ ν}
    (done : act (.admission attempt) runtime = (.ok (), reached)) :
    ∃ store revision sequencer events, reached = { runtime.accepted store revision with
      nextAttemptNumber := runtime.nextAttemptNumber + 1
      executionSequencer := sequencer
      executionEvents := events
      attempts := runtime.attempts ++ [attempt] } := by
  rw [act_eq] at done
  split at done
  · cases done
  · rw [settle_admission] at done
    split at done
    · cases done
    · rename_i next advanced
      obtain ⟨_, rfl⟩ := checkedNext_eq_some advanced
      split at done
      · cases done
      · split at done
        · cases done
          exact ⟨_, _, _, _, rfl⟩
        · cases done

/-! ### The operations' steps are actions -/

theorem beginAttempt_eq (taskId : Id) (operationId : Option OperationId) (runtime : Runtime σ ν) :
    beginAttempt taskId operationId runtime =
      match captureCapabilityPins runtime.scope runtime.taskConfigs taskId none with
      | .error error => (.error error, runtime)
      | .ok pins =>
        (act (.admission (runtime.nextAttempt taskId operationId pins))).map
          (fun _ => generatedAttemptId runtime.runId runtime.nextAttemptNumber) runtime := by
  simp only [beginAttempt, run_bind, run_get, run_lift]
  cases captureCapabilityPins runtime.scope runtime.taskConfigs taskId none with
  | error error => rfl
  | ok pins => exact bind_returns announceStarted_value runtime

theorem completeTask_eq (taskId : Id) (attemptId : AttemptId) (runtime : Runtime σ ν) :
    completeTask taskId attemptId runtime =
      match runtime.workflow.complete taskId with
      | .error error => (.error (.workflow error), runtime)
      | .ok workflow => act (.complete ⟨taskId, attemptId⟩ workflow) runtime := by
  simp only [completeTask, run_bind, run_get, run_lift]
  cases runtime.workflow.complete taskId with
  | error error => rfl
  | ok workflow => rfl

/-- What a runtime is after it began an attempt. -/
theorem beginAttempt_ok {taskId : Id} {operationId : Option OperationId} {attemptId : AttemptId}
    {runtime reached : Runtime σ ν}
    (begun : beginAttempt taskId operationId runtime = (.ok attemptId, reached)) :
    ∃ pins store revision sequencer events,
      attemptId = generatedAttemptId runtime.runId runtime.nextAttemptNumber ∧
      reached = { runtime.accepted store revision with
        nextAttemptNumber := runtime.nextAttemptNumber + 1
        executionSequencer := sequencer
        executionEvents := events
        attempts := runtime.attempts ++ [runtime.nextAttempt taskId operationId pins] } := by
  rw [beginAttempt_eq] at begun
  split at begun
  · cases begun
  · rename_i pins _
    rw [run_map] at begun
    rcases outcome : act (.admission (runtime.nextAttempt taskId operationId pins)) runtime with
      ⟨_ | _, after⟩
    · rw [outcome] at begun
      cases begun
    · rw [outcome] at begun
      cases begun
      obtain ⟨store, revision, sequencer, events, rfl⟩ := act_admit_ok outcome
      exact ⟨pins, store, revision, sequencer, events, rfl, rfl⟩

theorem recordEffectIntent_eq (taskId : Id) (operationId : OperationId)
    (semantics : EffectSemantics) (runtime : Runtime σ ν) :
    recordEffectIntent taskId operationId semantics runtime =
      if (runtime.workflow.task taskId).isNone then (.error (.unknownTask taskId), runtime)
      else if runtime.workflow.isCompleted taskId then
        (.error (.workflow (.taskAlreadyCompleted taskId)), runtime)
      else
        match runtime.journal.persistIntent ⟨taskId, operationId, semantics⟩ with
        | .error error => (.error (.journal error), runtime)
        | .ok journal => act (.intent ⟨taskId, operationId, semantics⟩ journal) runtime := by
  simp only [recordEffectIntent, run_bind, run_get]
  split
  · rfl
  · split
    · rfl
    · simp only [run_bind, run_lift]
      cases runtime.journal.persistIntent ⟨taskId, operationId, semantics⟩ with
      | error error => rfl
      | ok journal => rfl

theorem recordDispatch_eq (operationId : OperationId) (attemptId : AttemptId)
    (runtime : Runtime σ ν) :
    recordDispatch operationId attemptId runtime =
      match runtime.journal.persistDispatch ⟨operationId, attemptId⟩ with
      | .error error => (.error (.journal error), runtime)
      | .ok journal => (act (.dispatch ⟨operationId, attemptId⟩ journal)).map
          (fun _ => attemptId) runtime := by
  simp only [recordDispatch, run_bind, run_get, run_lift]
  cases runtime.journal.persistDispatch ⟨operationId, attemptId⟩ with
  | error error => rfl
  | ok journal =>
    refine bind_returns (fun {_ result} returned => ?_) runtime
    cases returned
    rfl

theorem recordDispatch_value {operationId : OperationId} {attemptId answer : AttemptId}
    {runtime : Runtime σ ν}
    (recorded : (recordDispatch operationId attemptId runtime).1 = .ok answer) :
    answer = attemptId := by
  rw [recordDispatch_eq] at recorded
  split at recorded
  · cases recorded
  · rename_i journal _
    rw [run_map] at recorded
    cases outcome : (act (.dispatch ⟨operationId, attemptId⟩ journal) runtime).1 with
    | error error =>
      rw [outcome] at recorded
      cases recorded
    | ok _ =>
      rw [outcome] at recorded
      cases recorded
      rfl

theorem recordEffectOutcome_eq (operationId : OperationId) (attemptId : AttemptId)
    (outcome : KnownEffectOutcome) (runtime : Runtime σ ν) :
    recordEffectOutcome operationId attemptId outcome runtime =
      match runtime.journal.persistOutcome ⟨operationId, attemptId, outcome⟩ with
      | .error error => (.error (.journal error), runtime)
      | .ok journal => act (.outcome ⟨operationId, attemptId, outcome⟩ journal) runtime := by
  simp only [recordEffectOutcome, run_bind, run_get, run_lift]
  cases runtime.journal.persistOutcome ⟨operationId, attemptId, outcome⟩ with
  | error error => rfl
  | ok journal => rfl

theorem completeKnown_eq (operationId : OperationId) (runtime : Runtime σ ν) :
    completeKnown operationId runtime =
      match runtime.journal.intent operationId with
      | .error error => (.error (.journal error), runtime)
      | .ok intent =>
        match runtime.journal.knownOutcome operationId with
        | none => (.error (.journal (.unknownOperation operationId)), runtime)
        | some outcome =>
          if runtime.workflow.isCompleted intent.taskId then (.ok (), runtime)
          else completeTask intent.taskId outcome.attemptId runtime := by
  simp only [completeKnown, run_bind, run_get, run_lift]
  cases runtime.journal.intent operationId with
  | error error => rfl
  | ok intent =>
    simp only [Except.mapError]
    cases runtime.journal.knownOutcome operationId with
    | none => rfl
    | some outcome =>
      simp only
      split
      · rfl
      · rfl

theorem recover_eq (operationId : OperationId) (runtime : Runtime σ ν) :
    recover operationId runtime =
      match classifyRecovery runtime.workflow runtime.journal operationId with
      | .error error => (.error (.journal error), runtime)
      | .ok decision =>
        if decision.action = .completeWithoutReexecution then
          (completeKnown operationId >>= fun _ => pure decision) runtime
        else (.ok decision, runtime) := by
  simp only [recover, run_bind, run_get, run_lift]
  cases classifyRecovery runtime.workflow runtime.journal operationId with
  | error error => rfl
  | ok decision =>
    simp only [Except.mapError]
    split
    · rfl
    · rfl

theorem cancelTask_eq (taskId : Id) (runtime : Runtime σ ν) :
    cancelTask taskId runtime =
      if (runtime.workflow.task taskId).isNone then (.error (.unknownTask taskId), runtime)
      else (act (.cancel (runtime.cancellationOf taskId))).map
        (fun _ => runtime.cancellationReply taskId) runtime := by
  simp only [cancelTask, run_bind, run_get]
  split
  · rfl
  · refine bind_returns (fun {_ result} returned => ?_) runtime
    cases returned
    rfl

theorem configureTask_eq (taskId : Id) (config : TaskConfig) (runtime : Runtime σ ν) :
    configureTask taskId config runtime =
      if runtime.identityProvenance = .declarativeDefinition then
        (.error (.declarativeMutationUnsupported .configureTask), runtime)
      else if (runtime.workflow.task taskId).isNone then (.error (.unknownTask taskId), runtime)
      else
        match legacyWorkflowReplayIdentity runtime.workflow
            (runtime.taskConfigs.insert taskId config) with
        | .error error => (.error (.store error), runtime)
        | .ok identity =>
          act (.configure (runtime.taskConfigs.insert taskId config) identity) runtime := by
  simp only [configureTask, ensureLegacyMutationAllowed, run_bind, run_get]
  by_cases declarative : runtime.identityProvenance = .declarativeDefinition
  · rw [if_pos declarative, if_pos declarative]
    rfl
  · rw [if_neg declarative, if_neg declarative]
    simp only [run_pure]
    split
    · rfl
    · simp only [run_bind, run_lift]
      cases legacyWorkflowReplayIdentity runtime.workflow
          (runtime.taskConfigs.insert taskId config) with
      | error error => rfl
      | ok identity => rfl

theorem applyWorkflowMutation_eq (expectedRevision : Nat) (batch : List WorkflowMutation)
    (runtime : Runtime σ ν) :
    applyWorkflowMutation expectedRevision batch runtime =
      if runtime.identityProvenance = .declarativeDefinition then
        (.error (.declarativeMutationUnsupported .applyWorkflowMutation), runtime)
      else
        match runtime.workflow.applyBatch expectedRevision batch with
        | .error error => (.error (.workflow error), runtime)
        | .ok (record, candidate) =>
          match legacyWorkflowReplayIdentity candidate runtime.taskConfigs with
          | .error error => (.error (.store error), runtime)
          | .ok identity => (act (.mutate candidate identity)).map (fun _ => record) runtime := by
  simp only [applyWorkflowMutation, ensureLegacyMutationAllowed, run_bind, run_get]
  by_cases declarative : runtime.identityProvenance = .declarativeDefinition
  · rw [if_pos declarative, if_pos declarative]
    rfl
  · rw [if_neg declarative, if_neg declarative]
    simp only [run_pure, run_lift]
    rcases runtime.workflow.applyBatch expectedRevision batch with error | ⟨record, candidate⟩
    · rfl
    · simp only [Except.mapError]
      cases legacyWorkflowReplayIdentity candidate runtime.taskConfigs with
      | error error => rfl
      | ok identity =>
        refine bind_returns (fun {_ result} returned => ?_) runtime
        cases returned
        rfl

end Runtime

end Kernis
