/-
**The public operations of a runtime.**

Every operation is a `Fallible` computation on the runtime: it ends with a result or an error, and
what it changed before an error stays changed. An operation commits to the store first and updates
its in-memory views only after the store accepted.

* `commitDurable` — one compare-and-swap at the runtime's revision.
* `recordEffectIntent`, `dispatchEffect`, `recordEffectOutcome`, `recover`, `cancelTask` — effects.
* `step`, `runUntilBlocked` — the scheduler. `beginAttempt` admits an attempt and announces it, or
  parks it when the lifecycle stream is full.
* `configureTask`, `applyWorkflowMutation` — changes of a run started from live objects.
-/

import Kernis.Lib.Fallible
import Kernis.Runtime.State

namespace Kernis

open Std Fallible

/-- An operation of a runtime. -/
abbrev Op (σ ν α : Type) := Fallible (Runtime σ ν) RuntimeError α

namespace Runtime

variable {σ ν : Type}

/-! ### Announcing -/

/-- Numbers a lifecycle event. -/
def emitExecution (event : RuntimeEvent) : Op σ ν (StreamItem RuntimeEvent) :=
  fun runtime =>
    match runtime.executionSequencer.emit event with
    | (.error error, sequencer) =>
      (.error (.stream error), { runtime with executionSequencer := sequencer })
    | (.ok item, sequencer) => (.ok item, { runtime with executionSequencer := sequencer })

/-- Enqueues a lifecycle item, or hands it back in the error. -/
def enqueueExecution (item : StreamItem RuntimeEvent) : Op σ ν Unit :=
  fun runtime =>
    match runtime.executionEvents.tryPush item with
    | .error rejected => (.error (.executionBackpressure rejected), runtime)
    | .ok events => (.ok (), { runtime with executionEvents := events })

/-- Announces a completion. -/
def emitCompleted (taskId : Id) (attemptId : AttemptId) : Op σ ν Unit := do
  let runtime ← get
  let item ← emitExecution (.taskCompleted runtime.runId taskId attemptId)
  enqueueExecution item

/-- Advances the attempt number. -/
def advanceAttemptNumber : Op σ ν Unit := do
  let runtime ← get
  match checkedNext runtime.nextAttemptNumber with
  | none => fail .attemptIdExhausted
  | some next => modify fun runtime => { runtime with nextAttemptNumber := next }

/-- Enqueues the start of an attempt and keeps the attempt, or parks both. -/
def enqueueStarted (attempt : TaskAttempt) (item : StreamItem RuntimeEvent) : Op σ ν AttemptId :=
  fun runtime =>
    match enqueueExecution item runtime with
    | (.ok (), reached) =>
      (.ok attempt.attemptId, { reached with attempts := reached.attempts ++ [attempt] })
    | (.error (.executionBackpressure rejected), reached) =>
      (.error (.executionBackpressure rejected),
        { reached with pendingStarted := some (attempt, rejected) })
    | (.error error, reached) => (.error error, reached)

/-- Numbers and announces the start of an attempt that was admitted. -/
def announceStarted (attempt : TaskAttempt) : Op σ ν AttemptId := do
  advanceAttemptNumber
  let item ← emitExecution (.taskStarted attempt.runId attempt.taskId attempt.attemptId)
  enqueueStarted attempt item

/-! ### Guards and answers -/

/-- A run started from a definition cannot be changed into one its definition does not describe. -/
def ensureLegacyMutationAllowed (operation : LegacyMutationOperation) : Op σ ν Unit := do
  let runtime ← get
  if runtime.identityProvenance = .declarativeDefinition then
    fail (.declarativeMutationUnsupported operation)
  else pure ()

/-- The refusal to dispatch for a cancelled task. -/
def refuseCancelled (intent : EffectIntent) (operationId : OperationId) :
    RecoveredEffectState → RuntimeError
  | .outcomeUnknown => .cancelledAfterDispatch intent.taskId operationId
  | _ => .cancelledBeforeDispatch intent.taskId

/-- The cancellation record of a task: its operation, and that operation's newest attempt. -/
def cancellationOf (runtime : Runtime σ ν) (taskId : Id) : CancellationRecord where
  runId := runtime.runId
  taskId := taskId
  operationId := runtime.journal.operationForTask taskId
  attemptId := (runtime.journal.operationForTask taskId).bind fun operationId =>
    runtime.attemptForTask taskId (some operationId)

/-- What a cancellation answers: an existing dispatch stays authoritative. -/
def cancellationReply (runtime : Runtime σ ν) (taskId : Id) : Cancellation :=
  match runtime.journal.operationForTask taskId with
  | none => .notDispatched taskId
  | some operationId =>
    match runtime.journal.latestDispatch operationId with
    | none => .notDispatched taskId
    | some dispatch => .alreadyDispatched taskId operationId dispatch.attemptId

/-- The first ready task that is not cancelled. -/
def nextReady (runtime : Runtime σ ν) : Option Id :=
  runtime.workflow.readyTasks.find? fun taskId => taskId ∉ runtime.cancelled

/-! ### Observations -/

/-- Emits a coalescible progress observation. -/
def emitProgress (taskId : Id) (progress : UInt8) : Op σ ν Unit :=
  fun runtime =>
    match runtime.progressSequencer.emit (RuntimeEvent.taskProgress taskId progress) with
    | (.error error, sequencer) =>
      (.error (.stream error), { runtime with progressSequencer := sequencer })
    | (.ok item, sequencer) =>
      match runtime.progressEvents.tryPush ⟨taskId, item⟩ with
      | .error _ => (.error .progressBackpressure, { runtime with progressSequencer := sequencer })
      | .ok events => (.ok (),
          { runtime with progressSequencer := sequencer, progressEvents := events })

/-- Emits a lossy telemetry observation. -/
def emitTelemetry (message : Text) : Op σ ν Unit :=
  fun runtime =>
    match runtime.telemetrySequencer.emit (RuntimeEvent.telemetry message) with
    | (.error error, sequencer) =>
      (.error (.stream error), { runtime with telemetrySequencer := sequencer })
    | (.ok item, sequencer) => (.ok (),
        { runtime with
          telemetrySequencer := sequencer
          telemetryEvents := (runtime.telemetryEvents.push item).2 })

/-- Drains lossless task lifecycle observations. -/
def drainExecutionEvents : Op σ ν (List (StreamItem RuntimeEvent)) :=
  fun runtime => (.ok runtime.executionEvents.drain.1,
    { runtime with executionEvents := runtime.executionEvents.drain.2 })

/-- Drains retained progress observations. -/
def drainProgressEvents : Op σ ν (List (KeyedStreamItem Id RuntimeEvent)) :=
  fun runtime => (.ok runtime.progressEvents.drain.1,
    { runtime with progressEvents := runtime.progressEvents.drain.2 })

/-- Drains retained telemetry observations. -/
def drainTelemetryEvents : Op σ ν (List (StreamItem RuntimeEvent)) :=
  fun runtime => (.ok runtime.telemetryEvents.drain.1,
    { runtime with telemetryEvents := runtime.telemetryEvents.drain.2 })

/-- Retries a rejected lifecycle item. A parked start goes first, whatever the argument. -/
def retryExecutionEvent (item : StreamItem RuntimeEvent) : Op σ ν Unit :=
  fun runtime =>
    match runtime.pendingStarted with
    | none => enqueueExecution item runtime
    | some (attempt, pendingItem) =>
      match enqueueExecution pendingItem { runtime with pendingStarted := none } with
      | (.ok (), reached) => (.ok (), { reached with attempts := reached.attempts ++ [attempt] })
      | (.error error, reached) =>
        (.error error, { reached with pendingStarted := some (attempt, pendingItem) })

/-- Replaces the capability scope: any publication, replacement or withdrawal by its owner. -/
def changeScope (scope : Scope ν) : Op σ ν Unit :=
  modify fun runtime => { runtime with scope := scope }

/-! ### Committing -/

variable [DurableStore σ]

/-- Commits mutations at the runtime's revision, which then follows the store. -/
def commitDurable (idempotencyKey : Text) (mutations : List DurableMutation) : Op σ ν Nat :=
  fun runtime =>
    match IdempotencyKey.new idempotencyKey with
    | .error error => (.error (.store error), runtime)
    | .ok key =>
      match DurableStore.commit ⟨runtime.runId, runtime.storeRevision, key, mutations⟩
          runtime.store with
      | (.error error, store) => (.error (.store error), { runtime with store := store })
      | (.ok result, store) => (.ok result.revision,
          { runtime with store := store, storeRevision := result.revision })

/-- Records a replay identity under a key that names the runtime's revision. -/
def commitWorkflowIdentity (replayIdentity : WorkflowReplayIdentity) : Op σ ν Nat := do
  let runtime ← get
  commitDurable ("workflow-identity:".toList ++ digits runtime.storeRevision ++ ":".toList ++
    replayIdentity.text.val) [.recordWorkflowReplayIdentity replayIdentity]

/-- Admits a new attempt durably, then announces it. -/
def beginAttempt (taskId : Id) (operationId : Option OperationId) : Op σ ν AttemptId := do
  let runtime ← get
  let pins ← lift (captureCapabilityPins runtime.scope runtime.taskConfigs taskId none)
  let attemptId := generatedAttemptId runtime.runId runtime.nextAttemptNumber
  let attempt : TaskAttempt := ⟨runtime.runId, taskId, attemptId, operationId, pins⟩
  let _ ← commitDurable ("admit:".toList ++ attemptId.id.asStr) [.admitAttempt attempt.admission]
  announceStarted attempt

/-- The attempt found, else a new one. -/
def attemptOrBegin (found : Option AttemptId) (taskId : Id) (operationId : Option OperationId) :
    Op σ ν AttemptId :=
  match found with
  | some attemptId => pure attemptId
  | none => beginAttempt taskId operationId

/-- Completes a task: the workflow must accept, then the store. -/
def completeTask (taskId : Id) (attemptId : AttemptId) : Op σ ν Unit := do
  let runtime ← get
  let candidate ← lift ((runtime.workflow.complete taskId).mapError .workflow)
  let _ ← commitDurable ("completion:".toList ++ taskId.asStr ++ ":".toList ++ attemptId.id.asStr)
    [.recordCompletion ⟨taskId, attemptId⟩]
  modify fun runtime => { runtime with workflow := candidate }
  emitCompleted taskId attemptId

/-! ### Changes of live objects -/

/-- Adds or replaces runtime inputs for a task. -/
def configureTask (taskId : Id) (config : TaskConfig) : Op σ ν Unit := do
  ensureLegacyMutationAllowed .configureTask
  let runtime ← get
  if (runtime.workflow.task taskId).isNone then fail (.unknownTask taskId)
  else do
    let candidate := runtime.taskConfigs.insert taskId config
    let replayIdentity ← lift
      ((legacyWorkflowReplayIdentity runtime.workflow candidate).mapError .store)
    let _ ← commitWorkflowIdentity replayIdentity
    modify fun runtime => { runtime with taskConfigs := candidate }

/-- Applies an atomic workflow mutation through the graph authority. -/
def applyWorkflowMutation (expectedRevision : Nat) (batch : List WorkflowMutation) :
    Op σ ν WorkflowMutationRecord := do
  ensureLegacyMutationAllowed .applyWorkflowMutation
  let runtime ← get
  let (record, candidate) ← lift
    ((runtime.workflow.applyBatch expectedRevision batch).mapError .workflow)
  let replayIdentity ← lift
    ((legacyWorkflowReplayIdentity candidate runtime.taskConfigs).mapError .store)
  let _ ← commitWorkflowIdentity replayIdentity
  modify fun runtime => { runtime with workflow := candidate }
  pure record

/-! ### Effects -/

/-- Persists an effect intent before any external dispatch. -/
def recordEffectIntent (taskId : Id) (operationId : OperationId) (semantics : EffectSemantics) :
    Op σ ν Unit := do
  let runtime ← get
  if (runtime.workflow.task taskId).isNone then fail (.unknownTask taskId)
  else if runtime.workflow.isCompleted taskId then
    fail (.workflow (.taskAlreadyCompleted taskId))
  else do
    let intent : EffectIntent := ⟨taskId, operationId, semantics⟩
    let candidate ← lift ((runtime.journal.persistIntent intent).mapError .journal)
    let _ ← commitDurable ("intent:".toList ++ operationId.id.asStr) [.recordIntent intent]
    modify fun runtime => { runtime with journal := candidate }

/-- The attempt a dispatch uses: the waiting one, or a new one for a first dispatch or a safe
retry. An intent that was found is prepared, so the last branch is never taken
(`DurableJournal.state_ne_notPrepared`). -/
def attemptToDispatch (intent : EffectIntent) (operationId : OperationId) :
    RecoveredEffectState → Op σ ν AttemptId
  | .prepared => do
    let runtime ← get
    attemptOrBegin (runtime.pendingAttempt intent.taskId operationId) intent.taskId
      (some operationId)
  | .outcomeUnknown =>
    if intent.semantics = .nonIdempotent then fail (.reconciliationRequired operationId)
    else beginAttempt intent.taskId (some operationId)
  | .outcomeKnown _ => fail (.outcomeAlreadyKnown operationId)
  | .notPrepared => fail (.journal (.unknownOperation operationId))

/-- Records the dispatch of an attempt. -/
def recordDispatch (operationId : OperationId) (attemptId : AttemptId) : Op σ ν AttemptId := do
  let runtime ← get
  let dispatch : DispatchRecord := ⟨operationId, attemptId⟩
  let candidate ← lift ((runtime.journal.persistDispatch dispatch).mapError .journal)
  let _ ← commitDurable ("dispatch:".toList ++ attemptId.id.asStr) [.recordDispatch dispatch]
  modify fun runtime => { runtime with journal := candidate }
  pure attemptId

/-- Dispatches an effect, allocating a new attempt for an idempotent retry. -/
def dispatchEffect (operationId : OperationId) : Op σ ν AttemptId := do
  let runtime ← get
  let intent ← lift ((runtime.journal.intent operationId).mapError .journal)
  let state := runtime.journal.state operationId
  if intent.taskId ∈ runtime.cancelled then fail (refuseCancelled intent operationId state)
  else do
    let attemptId ← attemptToDispatch intent operationId state
    recordDispatch operationId attemptId

/-- Records a known effect outcome. -/
def recordEffectOutcome (operationId : OperationId) (attemptId : AttemptId)
    (known : KnownEffectOutcome) : Op σ ν Unit := do
  let runtime ← get
  let outcome : OutcomeRecord := ⟨operationId, attemptId, known⟩
  let candidate ← lift ((runtime.journal.persistOutcome outcome).mapError .journal)
  let _ ← commitDurable ("outcome:".toList ++ attemptId.id.asStr) [.recordOutcome outcome]
  modify fun runtime => { runtime with journal := candidate }

/-- Applies a known success to the workflow. The decision to complete comes from a known outcome,
so its lookup succeeds (`classifyRecovery_complete`). -/
def completeKnown (operationId : OperationId) : Op σ ν Unit := do
  let runtime ← get
  let intent ← lift ((runtime.journal.intent operationId).mapError .journal)
  match runtime.journal.knownOutcome operationId with
  | none => fail (.journal (.unknownOperation operationId))
  | some outcome =>
    if runtime.workflow.isCompleted intent.taskId then pure ()
    else completeTask intent.taskId outcome.attemptId

/-- Classifies recovery, and applies a known success without executing again. -/
def recover (operationId : OperationId) : Op σ ν RecoveryDecision := do
  let runtime ← get
  let decision ← lift
    ((classifyRecovery runtime.workflow runtime.journal operationId).mapError .journal)
  if decision.action = .completeWithoutReexecution then do
    completeKnown operationId
    pure decision
  else pure decision

/-- Prevents a task from starting when it has not yet been dispatched. -/
def cancelTask (taskId : Id) : Op σ ν Cancellation := do
  let runtime ← get
  if (runtime.workflow.task taskId).isNone then fail (.unknownTask taskId)
  else do
    let _ ← commitDurable ("cancel:".toList ++ taskId.asStr)
      [.recordCancellation (runtime.cancellationOf taskId)]
    modify fun runtime => { runtime with cancelled := runtime.cancelled.insert taskId }
    pure (runtime.cancellationReply taskId)

/-! ### The scheduler -/

/-- The operation of a task: the recorded one, else its configured effect recorded now. -/
def ensureConfiguredEffect (taskId : Id) : Op σ ν (Option (OperationId × EffectSemantics)) := do
  let runtime ← get
  match runtime.journal.operationForTask taskId with
  | some operationId => do
    let intent ← lift ((runtime.journal.intent operationId).mapError .journal)
    pure (some (operationId, intent.semantics))
  | none =>
    match (runtime.taskConfigs[taskId]?).bind TaskConfig.effect with
    | none => pure none
    | some effect => do
      recordEffectIntent taskId effect.operationId effect.semantics
      pure (some (effect.operationId, effect.semantics))

/-- Advances a task without an effect. -/
def stepPlain (taskId : Id) : Op σ ν StepResult := do
  let runtime ← get
  let attemptId ← attemptOrBegin (runtime.attemptForTask taskId none) taskId none
  completeTask taskId attemptId
  pure (.completed taskId attemptId)

/-- Advances a task with an effect as far as its durable state allows. A known success has an
outcome, and an ensured effect is prepared, so neither failing branch is taken. -/
def stepEffect (taskId : Id) (operationId : OperationId) : Op σ ν StepResult := do
  let runtime ← get
  match runtime.journal.state operationId with
  | .prepared => do
    let attemptId ← attemptOrBegin (runtime.pendingAttempt taskId operationId) taskId
      (some operationId)
    pure (.effectPending taskId attemptId operationId)
  | .outcomeUnknown => do
    let decision ← lift
      ((classifyRecovery runtime.workflow runtime.journal operationId).mapError .journal)
    pure (.blocked taskId (some operationId) decision.action)
  | .outcomeKnown .succeeded =>
    match runtime.journal.knownOutcome operationId with
    | none => fail (.journal (.unknownOperation operationId))
    | some outcome => do
      completeTask taskId outcome.attemptId
      pure (.completed taskId outcome.attemptId)
  | .outcomeKnown .failed => pure (.blocked taskId (some operationId) .observeFailure)
  | .notPrepared => fail (.journal (.unknownOperation operationId))

/-- Advances one ready task. -/
def stepTask (taskId : Id) : Op σ ν StepResult := do
  let operation ← ensureConfiguredEffect taskId
  match operation with
  | none => stepPlain taskId
  | some (operationId, _) => stepEffect taskId operationId

/-- Executes the first ready task that is not cancelled, unless a started event is parked. -/
def step : Op σ ν StepResult := do
  let runtime ← get
  match runtime.pendingStarted with
  | some (_, item) => fail (.executionBackpressure item)
  | none =>
    match runtime.nextReady with
    | none => pure .idle
    | some taskId => stepTask taskId

/-- The scheduler loop, bounded by the number of further steps. -/
def runSteps : Nat → List StepResult → Op σ ν (List StepResult)
  | 0, results => pure results
  | fuel + 1, results => do
    let result ← step
    if result.goesOn then runSteps fuel (results ++ [result])
    else pure (results ++ [result])

/-- Executes ready work until no further automatic step is possible. Every step that goes on
completes a task, so one step more than there are tasks is enough. -/
def runUntilBlocked : Op σ ν (List StepResult) := do
  let runtime ← get
  runSteps (runtime.workflow.tasks.length + 1) []

end Runtime

end Kernis
