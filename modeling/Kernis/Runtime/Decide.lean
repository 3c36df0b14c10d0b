/-
**Commands decide one action at a time.**

A `Command` is a public operation that commits. What it does next depends on the runtime without its
store: `Command.decide` halts with a result, or names an action and what follows it.

* `Command.perform_eq` — a command performs its decision. Most commands end after their action; a
  command that recorded an intent or admitted an attempt on the way starts over (`After.again`), with
  one exception: a safe retry of an unknown outcome goes on to dispatch the attempt it admitted.
* `Operation` — every public operation of a runtime.
-/

import Kernis.Runtime.Actions

namespace Kernis

open Std Fallible

/-- A public operation that commits. -/
inductive Command
  | configureTask (taskId : Id) (config : TaskConfig)
  | applyWorkflowMutation (expectedRevision : Nat) (batch : List WorkflowMutation)
  | recordEffectIntent (taskId : Id) (operationId : OperationId) (semantics : EffectSemantics)
  | dispatchEffect (operationId : OperationId)
  | recordEffectOutcome (operationId : OperationId) (attemptId : AttemptId)
      (outcome : KnownEffectOutcome)
  | recover (operationId : OperationId)
  | cancelTask (taskId : Id)
  | step

/-- A public operation. -/
inductive Operation (ν : Type)
  | command (command : Command)
  | runUntilBlocked
  | emitProgress (taskId : Id) (progress : UInt8)
  | emitTelemetry (message : Text)
  | drainExecutionEvents
  | drainProgressEvents
  | drainTelemetryEvents
  | retryExecutionEvent (item : StreamItem RuntimeEvent)
  | changeScope (scope : Scope ν)

/-- What an operation returns. -/
inductive Reply
  | done
  | recorded (record : WorkflowMutationRecord)
  | dispatched (attemptId : AttemptId)
  | decided (decision : RecoveryDecision)
  | cancelled (cancellation : Cancellation)
  | stepped (result : StepResult)
  | ran (results : List StepResult)
  | lifecycle (items : List (StreamItem RuntimeEvent))
  | progress (items : List (KeyedStreamItem Id RuntimeEvent))
deriving DecidableEq

/-- What follows an action that succeeded. -/
inductive After
  | reply (reply : Reply)
  | again
  | dispatch (operationId : OperationId) (attemptId : AttemptId)

/-- What a command does next. -/
inductive Decision
  | halt (result : Except RuntimeError Reply)
  | act (action : Action) (after : After)

namespace Runtime

variable {σ ν : Type} (runtime : Runtime σ ν)

/-! ### Decisions -/

/-- Record an intent, unless the task is unknown or completed or the journal refuses. -/
def decideIntent (intent : EffectIntent) (after : After) : Decision :=
  if (runtime.workflow.task intent.taskId).isNone then .halt (.error (.unknownTask intent.taskId))
  else if runtime.workflow.isCompleted intent.taskId then
    .halt (.error (.workflow (.taskAlreadyCompleted intent.taskId)))
  else
    match runtime.journal.persistIntent intent with
    | .error error => .halt (.error (.journal error))
    | .ok journal => .act (.intent intent journal) after

/-- Admit the next attempt, unless its capabilities cannot be pinned. -/
def decideAdmit (taskId : Id) (operationId : Option OperationId) (after : AttemptId → After) :
    Decision :=
  match captureCapabilityPins runtime.scope runtime.taskConfigs taskId none with
  | .error error => .halt (.error error)
  | .ok pins => .act (.admission (runtime.nextAttempt taskId operationId pins))
      (after (generatedAttemptId runtime.runId runtime.nextAttemptNumber))

/-- Record a dispatch, unless the journal refuses. -/
def decideDispatch (operationId : OperationId) (attemptId : AttemptId) : Decision :=
  match runtime.journal.persistDispatch ⟨operationId, attemptId⟩ with
  | .error error => .halt (.error (.journal error))
  | .ok journal => .act (.dispatch ⟨operationId, attemptId⟩ journal) (.reply (.dispatched attemptId))

/-- Complete a task, unless the workflow refuses. -/
def decideComplete (taskId : Id) (attemptId : AttemptId) (reply : Reply) : Decision :=
  match runtime.workflow.complete taskId with
  | .error error => .halt (.error (.workflow error))
  | .ok workflow => .act (.complete ⟨taskId, attemptId⟩ workflow) (.reply reply)

/-- `configure_task`. -/
def decideConfigure (taskId : Id) (config : TaskConfig) : Decision :=
  if runtime.identityProvenance = .declarativeDefinition then
    .halt (.error (.declarativeMutationUnsupported .configureTask))
  else if (runtime.workflow.task taskId).isNone then .halt (.error (.unknownTask taskId))
  else
    match legacyWorkflowReplayIdentity runtime.workflow
        (runtime.taskConfigs.insert taskId config) with
    | .error error => .halt (.error (.store error))
    | .ok identity =>
      .act (.configure (runtime.taskConfigs.insert taskId config) identity) (.reply .done)

/-- `apply_workflow_mutation`. -/
def decideMutate (expectedRevision : Nat) (batch : List WorkflowMutation) : Decision :=
  if runtime.identityProvenance = .declarativeDefinition then
    .halt (.error (.declarativeMutationUnsupported .applyWorkflowMutation))
  else
    match runtime.workflow.applyBatch expectedRevision batch with
    | .error error => .halt (.error (.workflow error))
    | .ok (record, candidate) =>
      match legacyWorkflowReplayIdentity candidate runtime.taskConfigs with
      | .error error => .halt (.error (.store error))
      | .ok identity => .act (.mutate candidate identity) (.reply (.recorded record))

/-- The dispatch of an operation whose task is not cancelled. -/
def decideAttempt (intent : EffectIntent) (operationId : OperationId) :
    RecoveredEffectState → Decision
  | .prepared =>
    match runtime.pendingAttempt intent.taskId operationId with
    | some attemptId => runtime.decideDispatch operationId attemptId
    | none => runtime.decideAdmit intent.taskId (some operationId) fun _ => .again
  | .outcomeUnknown =>
    if intent.semantics = .nonIdempotent then
      .halt (.error (.reconciliationRequired operationId))
    else runtime.decideAdmit intent.taskId (some operationId) (.dispatch operationId)
  | .outcomeKnown _ => .halt (.error (.outcomeAlreadyKnown operationId))
  | .notPrepared => .halt (.error (.journal (.unknownOperation operationId)))

/-- `dispatch_effect`. -/
def decideEffectDispatch (operationId : OperationId) : Decision :=
  match runtime.journal.intent operationId with
  | .error error => .halt (.error (.journal error))
  | .ok intent =>
    if intent.taskId ∈ runtime.cancelled then
      .halt (.error (refuseCancelled intent operationId (runtime.journal.state operationId)))
    else runtime.decideAttempt intent operationId (runtime.journal.state operationId)

/-- `record_effect_outcome`. -/
def decideOutcome (outcome : OutcomeRecord) : Decision :=
  match runtime.journal.persistOutcome outcome with
  | .error error => .halt (.error (.journal error))
  | .ok journal => .act (.outcome outcome journal) (.reply .done)

/-- The completion of a recovered success. -/
def decideKnown (operationId : OperationId) (decision : RecoveryDecision) : Decision :=
  match runtime.journal.intent operationId with
  | .error error => .halt (.error (.journal error))
  | .ok intent =>
    match runtime.journal.knownOutcome operationId with
    | none => .halt (.error (.journal (.unknownOperation operationId)))
    | some outcome =>
      if runtime.workflow.isCompleted intent.taskId then .halt (.ok (.decided decision))
      else runtime.decideComplete intent.taskId outcome.attemptId (.decided decision)

/-- `recover`. -/
def decideRecover (operationId : OperationId) : Decision :=
  match classifyRecovery runtime.workflow runtime.journal operationId with
  | .error error => .halt (.error (.journal error))
  | .ok decision =>
    if decision.action = .completeWithoutReexecution then runtime.decideKnown operationId decision
    else .halt (.ok (.decided decision))

/-- `cancel_task`. -/
def decideCancel (taskId : Id) : Decision :=
  if (runtime.workflow.task taskId).isNone then .halt (.error (.unknownTask taskId))
  else .act (.cancel (runtime.cancellationOf taskId))
    (.reply (.cancelled (runtime.cancellationReply taskId)))

/-- The step of a task without an effect. -/
def decidePlain (taskId : Id) : Decision :=
  match runtime.attemptForTask taskId none with
  | some attemptId =>
    runtime.decideComplete taskId attemptId (.stepped (.completed taskId attemptId))
  | none => runtime.decideAdmit taskId none fun _ => .again

/-- The step of a task with a recorded effect. -/
def decideEffect (taskId : Id) (operationId : OperationId) : RecoveredEffectState → Decision
  | .prepared =>
    match runtime.pendingAttempt taskId operationId with
    | some attemptId => .halt (.ok (.stepped (.effectPending taskId attemptId operationId)))
    | none => runtime.decideAdmit taskId (some operationId) fun attemptId =>
        .reply (.stepped (.effectPending taskId attemptId operationId))
  | .outcomeUnknown =>
    match classifyRecovery runtime.workflow runtime.journal operationId with
    | .error error => .halt (.error (.journal error))
    | .ok decision => .halt (.ok (.stepped (.blocked taskId (some operationId) decision.action)))
  | .outcomeKnown .succeeded =>
    match runtime.journal.knownOutcome operationId with
    | none => .halt (.error (.journal (.unknownOperation operationId)))
    | some outcome => runtime.decideComplete taskId outcome.attemptId
        (.stepped (.completed taskId outcome.attemptId))
  | .outcomeKnown .failed =>
    .halt (.ok (.stepped (.blocked taskId (some operationId) .observeFailure)))
  | .notPrepared => .halt (.error (.journal (.unknownOperation operationId)))

/-- The step of one ready task: its recorded operation, else its configured effect, else none. -/
def decideTask (taskId : Id) : Decision :=
  match runtime.journal.operationForTask taskId with
  | some operationId =>
    match runtime.journal.intent operationId with
    | .error error => .halt (.error (.journal error))
    | .ok _ => runtime.decideEffect taskId operationId (runtime.journal.state operationId)
  | none =>
    match (runtime.taskConfigs[taskId]?).bind TaskConfig.effect with
    | none => runtime.decidePlain taskId
    | some effect => runtime.decideIntent ⟨taskId, effect.operationId, effect.semantics⟩ .again

/-- `step`. -/
def decideStep : Decision :=
  match runtime.pendingStarted with
  | some (_, item) => .halt (.error (.executionBackpressure item))
  | none =>
    match runtime.nextReady with
    | none => .halt (.ok (.stepped .idle))
    | some taskId => runtime.decideTask taskId

end Runtime

namespace Command

variable {σ ν : Type}

/-- What a command does next. -/
def decide : Command → Runtime σ ν → Decision
  | .configureTask taskId config, runtime => runtime.decideConfigure taskId config
  | .applyWorkflowMutation expectedRevision batch, runtime =>
    runtime.decideMutate expectedRevision batch
  | .recordEffectIntent taskId operationId semantics, runtime =>
    runtime.decideIntent ⟨taskId, operationId, semantics⟩ (.reply .done)
  | .dispatchEffect operationId, runtime => runtime.decideEffectDispatch operationId
  | .recordEffectOutcome operationId attemptId outcome, runtime =>
    runtime.decideOutcome ⟨operationId, attemptId, outcome⟩
  | .recover operationId, runtime => runtime.decideRecover operationId
  | .cancelTask taskId, runtime => runtime.decideCancel taskId
  | .step, runtime => runtime.decideStep

variable [DurableStore σ]

/-- Performs a command. -/
def perform : Command → Op σ ν Reply
  | .configureTask taskId config => (Runtime.configureTask taskId config).map fun _ => .done
  | .applyWorkflowMutation expectedRevision batch =>
    (Runtime.applyWorkflowMutation expectedRevision batch).map .recorded
  | .recordEffectIntent taskId operationId semantics =>
    (Runtime.recordEffectIntent taskId operationId semantics).map fun _ => .done
  | .dispatchEffect operationId => (Runtime.dispatchEffect operationId).map .dispatched
  | .recordEffectOutcome operationId attemptId outcome =>
    (Runtime.recordEffectOutcome operationId attemptId outcome).map fun _ => .done
  | .recover operationId => (Runtime.recover operationId).map .decided
  | .cancelTask taskId => (Runtime.cancelTask taskId).map .cancelled
  | .step => Runtime.step.map .stepped

/-- Goes on after an action that succeeded. -/
def follow (command : Command) : After → Op σ ν Reply
  | .reply reply => pure reply
  | .again => command.perform
  | .dispatch operationId attemptId => (Runtime.recordDispatch operationId attemptId).map .dispatched

/-- Carries out a decision. -/
def execute (command : Command) : Decision → Op σ ν Reply
  | .halt result => lift result
  | .act action after => do
    Runtime.act action
    command.follow after

end Command

/-! ### Commands carry out their decisions -/

namespace Runtime

variable {σ ν : Type} [DurableStore σ]

/-- An action whose success is the answer. -/
theorem execute_reply (command : Command) (action : Action) (reply : Reply)
    (runtime : Runtime σ ν) :
    command.execute (.act action (.reply reply)) runtime =
      (act action).map (fun _ => reply) runtime := by
  simp only [Command.execute, run_bind, run_map, Command.follow, run_pure]
  rcases act action runtime with ⟨_ | _, reached⟩
  · rfl
  · rfl

theorem execute_decideIntent (command : Command) (intent : EffectIntent) (after : After)
    (runtime : Runtime σ ν) :
    command.execute (runtime.decideIntent intent after) runtime =
      (recordEffectIntent intent.taskId intent.operationId intent.semantics >>= fun _ =>
        command.follow after) runtime := by
  rw [run_bind, recordEffectIntent_eq]
  unfold decideIntent
  split
  · rfl
  · split
    · rfl
    · cases runtime.journal.persistIntent intent with
      | error error => rfl
      | ok journal => rfl

theorem execute_decideAdmit (command : Command) (taskId : Id) (operationId : Option OperationId)
    (after : AttemptId → After) (runtime : Runtime σ ν) :
    command.execute (runtime.decideAdmit taskId operationId after) runtime =
      (beginAttempt taskId operationId >>= fun attemptId => command.follow (after attemptId))
        runtime := by
  rw [run_bind, beginAttempt_eq]
  unfold decideAdmit
  cases captureCapabilityPins runtime.scope runtime.taskConfigs taskId none with
  | error error => rfl
  | ok pins =>
    simp only [Command.execute, run_bind, run_map]
    rcases act (.admission (runtime.nextAttempt taskId operationId pins)) runtime with ⟨_ | _, reached⟩
    · rfl
    · rfl

theorem execute_decideDispatch (command : Command) (operationId : OperationId)
    (attemptId : AttemptId) (runtime : Runtime σ ν) :
    command.execute (runtime.decideDispatch operationId attemptId) runtime =
      (recordDispatch operationId attemptId).map .dispatched runtime := by
  rw [run_map, recordDispatch_eq]
  unfold decideDispatch
  cases runtime.journal.persistDispatch ⟨operationId, attemptId⟩ with
  | error error => rfl
  | ok journal =>
    simp only [Command.execute, run_bind, run_map]
    rcases act (.dispatch ⟨operationId, attemptId⟩ journal) runtime with ⟨_ | _, reached⟩
    · rfl
    · rfl

theorem execute_decideComplete (command : Command) (taskId : Id) (attemptId : AttemptId)
    (reply : Reply) (runtime : Runtime σ ν) :
    command.execute (runtime.decideComplete taskId attemptId reply) runtime =
      (completeTask taskId attemptId >>= fun _ => pure reply) runtime := by
  rw [run_bind, completeTask_eq]
  unfold decideComplete
  cases runtime.workflow.complete taskId with
  | error error => rfl
  | ok workflow => rfl

theorem execute_decideKnown (command : Command) (operationId : OperationId)
    (decision : RecoveryDecision) (runtime : Runtime σ ν) :
    command.execute (runtime.decideKnown operationId decision) runtime =
      (completeKnown operationId >>= fun _ => pure (.decided decision)) runtime := by
  rw [run_bind, completeKnown_eq]
  unfold decideKnown
  cases runtime.journal.intent operationId with
  | error error => rfl
  | ok intent =>
    simp only
    cases runtime.journal.knownOutcome operationId with
    | none => rfl
    | some outcome =>
      simp only
      split
      · rfl
      · rw [execute_decideComplete]
        rfl

/-! #### Dispatching -/

/-- A dispatch for a live task chooses its attempt and records it. -/
theorem dispatchEffect_eq {operationId : OperationId} {intent : EffectIntent}
    {runtime : Runtime σ ν} (found : runtime.journal.intent operationId = .ok intent)
    (live : intent.taskId ∉ runtime.cancelled) :
    dispatchEffect operationId runtime =
      (attemptToDispatch intent operationId (runtime.journal.state operationId) >>=
        recordDispatch operationId) runtime := by
  simp only [dispatchEffect, run_bind, run_get, run_lift, found, Except.mapError, if_neg live]

/-- A first dispatch that admitted its attempt records it when it starts over. -/
theorem dispatchEffect_after_begin {operationId : OperationId} {intent : EffectIntent}
    {attemptId : AttemptId} {runtime reached : Runtime σ ν}
    (found : runtime.journal.intent operationId = .ok intent)
    (live : intent.taskId ∉ runtime.cancelled)
    (prepared : runtime.journal.state operationId = .prepared)
    (missing : runtime.pendingAttempt intent.taskId operationId = none)
    (begun : beginAttempt intent.taskId (some operationId) runtime = (.ok attemptId, reached)) :
    dispatchEffect operationId reached = recordDispatch operationId attemptId reached := by
  obtain ⟨pins, store, revision, sequencer, events, rfl, same⟩ := beginAttempt_ok begun
  have journal : reached.journal = runtime.journal := by rw [same]; rfl
  have cancelled : reached.cancelled = runtime.cancelled := by rw [same]; rfl
  have waiting : reached.pendingAttempt intent.taskId operationId =
      some (generatedAttemptId runtime.runId runtime.nextAttemptNumber) :=
    attemptForTask_push missing (runtime.belongsTo_nextAttempt _ _ pins) (by rw [same]; rfl)
      (by rw [same])
  rw [dispatchEffect_eq (journal ▸ found) (cancelled ▸ live), journal, prepared]
  simp only [run_bind, attemptToDispatch, run_get, waiting, attemptOrBegin, run_pure]

theorem attemptToDispatch_prepared {α : Type} (intent : EffectIntent) (operationId : OperationId)
    (next : AttemptId → Op σ ν α) (runtime : Runtime σ ν) :
    (attemptToDispatch intent operationId .prepared >>= next) runtime =
      (attemptOrBegin (runtime.pendingAttempt intent.taskId operationId) intent.taskId
        (some operationId) >>= next) runtime := rfl

theorem perform_dispatchEffect (operationId : OperationId) (runtime : Runtime σ ν) :
    (Command.dispatchEffect operationId).perform runtime =
      (Command.dispatchEffect operationId).execute (runtime.decideEffectDispatch operationId)
        runtime := by
  unfold decideEffectDispatch
  rw [Command.perform]
  cases found : runtime.journal.intent operationId with
  | error error => simp [run_map, dispatchEffect, run_bind, found, Except.mapError, Command.execute, Except.map]
  | ok intent =>
    by_cases live : intent.taskId ∈ runtime.cancelled
    · simp [run_map, dispatchEffect, run_bind, found, Except.mapError, Command.execute, Except.map, live]
    · simp only [if_neg live]
      rw [run_map, dispatchEffect_eq found live, ← run_map, run_map_bind]
      cases prepared : runtime.journal.state operationId with
      | prepared =>
        rw [attemptToDispatch_prepared, decideAttempt]
        cases missing : runtime.pendingAttempt intent.taskId operationId with
        | some attemptId => exact (execute_decideDispatch _ operationId attemptId runtime).symm
        | none =>
          simp only [execute_decideAdmit, attemptOrBegin]
          refine run_bind_congr fun begun => ?_
          simp only [Command.follow, Command.perform, run_map,
            dispatchEffect_after_begin found live prepared missing begun]
      | outcomeUnknown =>
        rw [attemptToDispatch, decideAttempt]
        by_cases external : intent.semantics = .nonIdempotent
        · rw [if_pos external, if_pos external]
          rfl
        · rw [if_neg external, if_neg external, execute_decideAdmit]
          rfl
      | outcomeKnown outcome => rfl
      | notPrepared => rfl

/-! #### Stepping -/

theorem step_eq {taskId : Id} {runtime : Runtime σ ν} (idle : runtime.pendingStarted = none)
    (ready : runtime.nextReady = some taskId) : step runtime = stepTask taskId runtime := by
  simp only [step, run_bind, run_get, idle, ready]

/-- The effect of a task that has one recorded. -/
theorem stepTask_recorded {taskId : Id} {operationId : OperationId} {intent : EffectIntent}
    {runtime : Runtime σ ν} (owned : runtime.journal.operationForTask taskId = some operationId)
    (found : runtime.journal.intent operationId = .ok intent) :
    stepTask taskId runtime = stepEffect taskId operationId runtime := by
  simp only [stepTask, ensureConfiguredEffect, run_bind, run_get, owned, run_lift, found,
    Except.mapError, run_pure]

theorem stepTask_plain {taskId : Id} {runtime : Runtime σ ν}
    (owned : runtime.journal.operationForTask taskId = none)
    (configured : (runtime.taskConfigs[taskId]?).bind TaskConfig.effect = none) :
    stepTask taskId runtime = stepPlain taskId runtime := by
  simp only [stepTask, ensureConfiguredEffect, run_bind, run_get, owned, configured, run_pure]

theorem stepTask_configured {taskId : Id} {effect : EffectSpec} {runtime : Runtime σ ν}
    (owned : runtime.journal.operationForTask taskId = none)
    (configured : (runtime.taskConfigs[taskId]?).bind TaskConfig.effect = some effect) :
    stepTask taskId runtime =
      (recordEffectIntent taskId effect.operationId effect.semantics >>= fun _ =>
        stepEffect taskId effect.operationId) runtime := by
  simp only [stepTask, ensureConfiguredEffect, run_bind, run_get, owned, configured]
  rcases recordEffectIntent taskId effect.operationId effect.semantics runtime with ⟨_ | _, reached⟩
  · rfl
  · rfl

theorem execute_decideEffect (command : Command) (taskId : Id) (operationId : OperationId)
    (runtime : Runtime σ ν) :
    command.execute (runtime.decideEffect taskId operationId (runtime.journal.state operationId))
        runtime =
      (stepEffect taskId operationId).map .stepped runtime := by
  simp only [stepEffect, run_map, run_bind, run_get]
  cases runtime.journal.state operationId with
  | prepared =>
    simp only [decideEffect]
    cases runtime.pendingAttempt taskId operationId with
    | some attemptId => rfl
    | none =>
      rw [execute_decideAdmit, run_bind]
      simp only [attemptOrBegin, run_bind]
      rcases beginAttempt taskId (some operationId) runtime with ⟨_ | _, reached⟩
      · rfl
      · rfl
  | outcomeUnknown =>
    simp only [decideEffect, run_bind, run_lift]
    cases classifyRecovery runtime.workflow runtime.journal operationId with
    | error error => rfl
    | ok decision => rfl
  | outcomeKnown outcome =>
    cases outcome with
    | succeeded =>
      simp only [decideEffect]
      cases runtime.journal.knownOutcome operationId with
      | none => rfl
      | some outcome =>
        simp only [execute_decideComplete, run_bind]
        rcases completeTask taskId outcome.attemptId runtime with ⟨_ | _, reached⟩
        · rfl
        · rfl
    | failed => rfl
  | notPrepared => rfl

/-- A recorded intent is the task's operation. -/
theorem persistIntent_found {journal candidate : DurableJournal} {intent : EffectIntent}
    (persisted : journal.persistIntent intent = .ok candidate) :
    candidate.operationForTask intent.taskId = some intent.operationId ∧
      candidate.intent intent.operationId = .ok intent := by
  unfold DurableJournal.persistIntent at persisted
  split at persisted
  · cases persisted
  · split at persisted
    · cases persisted
    · cases persisted
      unfold DurableJournal.operationForTask DurableJournal.intent
      simp only [lookup_insert, if_true, and_self]

/-- A step that recorded the configured intent goes on with the effect when it starts over. -/
theorem step_after_intent {taskId : Id} {effect : EffectSpec} {runtime reached : Runtime σ ν}
    (idle : runtime.pendingStarted = none) (ready : runtime.nextReady = some taskId)
    (recorded : recordEffectIntent taskId effect.operationId effect.semantics runtime =
      (.ok (), reached)) :
    step reached = stepEffect taskId effect.operationId reached := by
  rw [recordEffectIntent_eq] at recorded
  split at recorded
  · cases recorded
  · split at recorded
    · cases recorded
    · split at recorded
      · cases recorded
      · rename_i journal persisted
        obtain ⟨owned, found⟩ := persistIntent_found persisted
        obtain ⟨store, revision, same⟩ := act_intent_ok recorded
        have stillIdle : reached.pendingStarted = none := by rw [same]; exact idle
        have stillReady : reached.nextReady = some taskId := by rw [same]; exact ready
        have view : reached.journal = journal := by rw [same]
        rw [step_eq stillIdle stillReady, stepTask_recorded (view ▸ owned) (view ▸ found)]

/-- A step that admitted an attempt completes it when it starts over. -/
theorem step_after_begin {taskId : Id} {attemptId : AttemptId} {runtime reached : Runtime σ ν}
    (idle : runtime.pendingStarted = none) (ready : runtime.nextReady = some taskId)
    (owned : runtime.journal.operationForTask taskId = none)
    (configured : (runtime.taskConfigs[taskId]?).bind TaskConfig.effect = none)
    (missing : runtime.attemptForTask taskId none = none)
    (begun : beginAttempt taskId none runtime = (.ok attemptId, reached)) :
    step reached = (completeTask taskId attemptId >>= fun _ =>
      pure (.completed taskId attemptId)) reached := by
  obtain ⟨pins, store, revision, sequencer, events, rfl, same⟩ := beginAttempt_ok begun
  have stillIdle : reached.pendingStarted = none := by rw [same]; exact idle
  have stillReady : reached.nextReady = some taskId := by rw [same]; exact ready
  have stillPlain : reached.journal.operationForTask taskId = none := by rw [same]; exact owned
  have stillBare : (reached.taskConfigs[taskId]?).bind TaskConfig.effect = none := by
    rw [same]; exact configured
  have waiting : reached.attemptForTask taskId none =
      some (generatedAttemptId runtime.runId runtime.nextAttemptNumber) :=
    attemptForTask_push missing (runtime.belongsTo_nextAttempt _ _ pins) (by rw [same]; rfl)
      (by rw [same])
  rw [step_eq stillIdle stillReady, stepTask_plain stillPlain stillBare]
  simp only [stepPlain, run_bind, run_get, waiting, attemptOrBegin, run_pure]

/-- The step of a task without an effect carries out its decision. -/
theorem map_stepPlain {taskId : Id} {runtime : Runtime σ ν} (idle : runtime.pendingStarted = none)
    (ready : runtime.nextReady = some taskId)
    (owned : runtime.journal.operationForTask taskId = none)
    (configured : (runtime.taskConfigs[taskId]?).bind TaskConfig.effect = none) :
    (stepPlain taskId).map Reply.stepped runtime =
      Command.step.execute (runtime.decidePlain taskId) runtime := by
  have started : (stepPlain taskId).map Reply.stepped runtime =
      (attemptOrBegin (runtime.attemptForTask taskId none) taskId none >>= fun attemptId =>
        (completeTask taskId attemptId >>= fun _ => pure (.completed taskId attemptId)).map
          Reply.stepped) runtime := by
    rw [← run_map_bind]
    rfl
  rw [started]
  cases missing : runtime.attemptForTask taskId none with
  | some attemptId =>
    simp only [decidePlain, missing, execute_decideComplete]
    exact run_map_bind Reply.stepped (completeTask taskId attemptId) _ runtime
  | none =>
    simp only [decidePlain, missing, execute_decideAdmit, attemptOrBegin]
    refine run_bind_congr fun begun => ?_
    simp only [Command.follow, Command.perform, run_map,
      step_after_begin idle ready owned configured missing begun]

/-- The step of a ready task carries out its decision. -/
theorem map_stepTask {taskId : Id} {runtime : Runtime σ ν} (idle : runtime.pendingStarted = none)
    (ready : runtime.nextReady = some taskId) :
    (stepTask taskId).map Reply.stepped runtime =
      Command.step.execute (runtime.decideTask taskId) runtime := by
  cases owned : runtime.journal.operationForTask taskId with
  | some operationId =>
    cases found : runtime.journal.intent operationId with
    | error error =>
      simp only [decideTask, owned, found, run_map, stepTask, ensureConfiguredEffect, run_bind,
        run_get, run_lift, Except.mapError]
      rfl
    | ok intent =>
      simp only [decideTask, owned, found, execute_decideEffect, run_map,
        stepTask_recorded owned found]
  | none =>
    cases configured : (runtime.taskConfigs[taskId]?).bind TaskConfig.effect with
    | some effect =>
      simp only [decideTask, owned, configured, execute_decideIntent]
      rw [run_map, stepTask_configured owned configured, ← run_map, run_map_bind]
      refine run_bind_congr fun recorded => ?_
      simp only [Command.follow, Command.perform, run_map, step_after_intent idle ready recorded]
    | none =>
      simp only [decideTask, owned, configured]
      rw [run_map, stepTask_plain owned configured, ← run_map,
        map_stepPlain idle ready owned configured]

theorem perform_step (runtime : Runtime σ ν) :
    Command.step.perform runtime = Command.step.execute runtime.decideStep runtime := by
  cases idle : runtime.pendingStarted with
  | some pending =>
    simp only [decideStep, idle, Command.perform, run_map, step, run_bind, run_get]
    rfl
  | none =>
    cases ready : runtime.nextReady with
    | none =>
      simp only [decideStep, idle, ready, Command.perform, run_map, step, run_bind, run_get]
      rfl
    | some taskId =>
      simp only [decideStep, idle, ready, Command.perform]
      rw [run_map, step_eq idle ready, ← run_map, map_stepTask idle ready]

end Runtime

namespace Command

open Kernis.Runtime

variable {σ ν : Type} [DurableStore σ]

/-- **A command carries out its decision.** -/
theorem perform_eq (command : Command) (runtime : Runtime σ ν) :
    command.perform runtime = command.execute (command.decide runtime) runtime := by
  cases command with
  | configureTask taskId config =>
    rw [perform, run_map, configureTask_eq, decide]
    unfold decideConfigure
    split
    · rfl
    · split
      · rfl
      · cases legacyWorkflowReplayIdentity runtime.workflow
            (runtime.taskConfigs.insert taskId config) with
        | error error => rfl
        | ok identity => exact (execute_reply _ _ _ runtime).symm
  | applyWorkflowMutation expectedRevision batch =>
    rw [perform, run_map, applyWorkflowMutation_eq, decide]
    unfold decideMutate
    split
    · rfl
    · rcases runtime.workflow.applyBatch expectedRevision batch with error | ⟨record, candidate⟩
      · rfl
      · simp only
        cases legacyWorkflowReplayIdentity candidate runtime.taskConfigs with
        | error error => rfl
        | ok identity =>
          simp only [execute_reply, run_map]
          cases (act (.mutate candidate identity) runtime).1 <;> rfl
  | recordEffectIntent taskId operationId semantics =>
    rw [perform, decide, execute_decideIntent, run_map, run_bind]
    rcases Runtime.recordEffectIntent taskId operationId semantics runtime with ⟨_ | _, reached⟩
    · rfl
    · rfl
  | dispatchEffect operationId => exact perform_dispatchEffect operationId runtime
  | recordEffectOutcome operationId attemptId outcome =>
    rw [perform, run_map, recordEffectOutcome_eq, decide]
    unfold decideOutcome
    cases runtime.journal.persistOutcome ⟨operationId, attemptId, outcome⟩ with
    | error error => rfl
    | ok journal => exact (execute_reply _ _ _ runtime).symm
  | recover operationId =>
    rw [perform, run_map, recover_eq, decide]
    unfold decideRecover
    cases classifyRecovery runtime.workflow runtime.journal operationId with
    | error error => rfl
    | ok decision =>
      simp only
      split
      · rw [execute_decideKnown, ← run_map, run_map_bind]
        rfl
      · rfl
  | cancelTask taskId =>
    rw [perform, run_map, cancelTask_eq, decide]
    unfold decideCancel
    split
    · rfl
    · rw [execute_reply, run_map, run_map]
      cases (act (.cancel (runtime.cancellationOf taskId)) runtime).1 <;> rfl
  | step => exact perform_step runtime

end Command

/-- Performs an operation. -/
def Operation.perform {σ ν : Type} [DurableStore σ] : Operation ν → Op σ ν Reply
  | .command inner => inner.perform
  | .runUntilBlocked => Runtime.runUntilBlocked.map .ran
  | .emitProgress taskId progress => (Runtime.emitProgress taskId progress).map fun _ => .done
  | .emitTelemetry message => (Runtime.emitTelemetry message).map fun _ => .done
  | .drainExecutionEvents => Runtime.drainExecutionEvents.map .lifecycle
  | .drainProgressEvents => Runtime.drainProgressEvents.map .progress
  | .drainTelemetryEvents => Runtime.drainTelemetryEvents.map .lifecycle
  | .retryExecutionEvent item => (Runtime.retryExecutionEvent item).map fun _ => .done
  | .changeScope scope => (Runtime.changeScope scope).map fun _ => .done

/-- Performs operations one after the other. -/
def Runtime.performAll {σ ν : Type} [DurableStore σ] (runtime : Runtime σ ν)
    (operations : List (Operation ν)) : Runtime σ ν :=
  operations.foldl (fun runtime operation => (operation.perform runtime).2) runtime

end Kernis
