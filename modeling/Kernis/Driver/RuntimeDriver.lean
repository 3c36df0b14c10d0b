/-
**The asynchronous driver: one owner of a runtime.**

A `RuntimeDriver` owns a runtime and holds the one lifecycle item that the runtime handed back. Its
functions run to their end except `dispatchEffectNow`, which awaits the dispatcher: it is cut there
into the request that is handed over and what `resumeDispatch` does with the answer. The dispatcher is
host code, so its answers are not part of this file.

* `retryPendingLifecycle` — the held item goes first.
* `driveOnce`, `dispatchEffectNow`, `resumeDispatch`, `recoverNow`, `cancelNow`, `shutdownNow` — the
  commands.
* `classifyShutdown` — what a shutdown leaves undone.
-/

import Kernis.Lib.Triple
import Kernis.Runtime.Decide

namespace Kernis

open Std Fallible

/-! ### Requests, results and errors -/

/-- A dispatcher-side result that does not establish a known external outcome. -/
inductive EffectDispatchError
  | unknownOutcome (reason : Text)
deriving DecidableEq

/-- Typed request handed to an asynchronous effect adapter. -/
structure EffectDispatchRequest where
  runId : RunId
  taskId : Id
  operationId : OperationId
  attemptId : AttemptId
  semantics : EffectSemantics
deriving DecidableEq

/-- Result of one asynchronous driver wakeup. -/
inductive DriveResult
  | step (result : StepResult)
  | effectCompleted (request : EffectDispatchRequest) (outcome : KnownEffectOutcome)
  | effectUnknown (request : EffectDispatchRequest) (error : EffectDispatchError)
  | backpressured (item : StreamItem RuntimeEvent)
deriving DecidableEq

/-- Classification returned by a successful driver shutdown. -/
inductive ShutdownStatus
  | clean
  | pendingDispatch (operationId : OperationId)
  | pendingUnknown (operationId : OperationId)
  | reconciliationRequired (operationId : OperationId)
  | observedFailure (operationId : OperationId)
deriving DecidableEq

/-- Error returned by a driver command. -/
inductive DriverError
  | ownerDropped
  | shuttingDown
  | runtime (error : RuntimeError)
  | attemptLineageMismatch (operationId : OperationId) (expected : AttemptId)
      (actual : Option AttemptId)
deriving DecidableEq

/-! ### What a shutdown leaves undone -/

/-- What the loop of the classification has found so far. -/
structure ShutdownFindings where
  pendingDispatch : Option OperationId
  pendingUnknown : Option OperationId
  observedFailure : Option OperationId
deriving DecidableEq

/-- The status of what was found. -/
def ShutdownFindings.status (findings : ShutdownFindings) : ShutdownStatus :=
  match findings.pendingUnknown with
  | some operationId => .pendingUnknown operationId
  | none =>
    match findings.pendingDispatch with
    | some operationId => .pendingDispatch operationId
    | none =>
      match findings.observedFailure with
      | some operationId => .observedFailure operationId
      | none => .clean

/-- The loop over the operations. It returns early at an unknown outcome that cannot be retried. -/
def classifyShutdownLoop (state : DurableRunState) :
    List OperationId → ShutdownFindings → ShutdownStatus
  | [], findings => findings.status
  | operationId :: rest, findings =>
    match state.intents[operationId]? with
    | none => classifyShutdownLoop state rest findings
    | some intent =>
      match state.effectState operationId with
      | .prepared =>
        if intent.taskId ∉ state.cancellations ∧ findings.pendingDispatch = none then
          classifyShutdownLoop state rest { findings with pendingDispatch := some operationId }
        else classifyShutdownLoop state rest findings
      | .outcomeUnknown =>
        if intent.semantics = .nonIdempotent then .reconciliationRequired operationId
        else if findings.pendingUnknown = none then
          classifyShutdownLoop state rest { findings with pendingUnknown := some operationId }
        else classifyShutdownLoop state rest findings
      | .outcomeKnown .failed =>
        if findings.observedFailure = none then
          classifyShutdownLoop state rest { findings with observedFailure := some operationId }
        else classifyShutdownLoop state rest findings
      | .outcomeKnown .succeeded => classifyShutdownLoop state rest findings
      | .notPrepared => classifyShutdownLoop state rest findings

/-- What a shutdown leaves undone. -/
def classifyShutdown (state : DurableRunState) : ShutdownStatus :=
  classifyShutdownLoop state state.operationIds ⟨none, none, none⟩

/-- Whether a durable state knows the outcome of an operation. -/
def DurableRunState.knowsOutcome (state : DurableRunState) (operationId : OperationId) : Bool :=
  match state.effectState operationId with
  | .outcomeKnown _ => true
  | _ => false

/-! ### The driver -/

/-- Single owner of a runtime. `calls` is a history variable: the operations of the runtime that the
driver performed, in order. No function reads it. -/
structure RuntimeDriver (σ ν : Type) where
  runtime : Runtime σ ν
  pendingLifecycle : Option (StreamItem RuntimeEvent)
  calls : List (Operation ν)

/-- A function of the driver that answers a command. -/
abbrev DriverOp (σ ν α : Type) := Fallible (RuntimeDriver σ ν) DriverError α

namespace RuntimeDriver

variable {σ ν α : Type}

/-- Creates a driver. -/
def new (runtime : Runtime σ ν) : RuntimeDriver σ ν := ⟨runtime, none, []⟩

/-- Performs a method of the runtime, which is the named operation. -/
def call (operation : Operation ν) (method : Op σ ν α) :
    Fallible (RuntimeDriver σ ν) RuntimeError α :=
  fun driver => ((method driver.runtime).1,
    { driver with
      runtime := (method driver.runtime).2
      calls := driver.calls ++ [operation] })

/-- Retries the held item, which is taken out for the time of the call. -/
def retryPendingLifecycle : Fallible (RuntimeDriver σ ν) RuntimeError Unit :=
  fun driver =>
    match driver.pendingLifecycle with
    | none => (.ok (), driver)
    | some item =>
      match call (.retryExecutionEvent item) (Runtime.retryExecutionEvent item)
          { driver with pendingLifecycle := none } with
      | (.ok (), reached) => (.ok (), reached)
      | (.error (.executionBackpressure rejected), reached) =>
        (.error (.executionBackpressure rejected), { reached with pendingLifecycle := some rejected })
      | (.error error, reached) => (.error error, { reached with pendingLifecycle := some item })

/-- Keeps an item that the runtime handed back. -/
def keep (driver : RuntimeDriver σ ν) : RuntimeError → RuntimeDriver σ ν
  | .executionBackpressure item => { driver with pendingLifecycle := some item }
  | _ => driver

/-- Fails with an error of the runtime. -/
def runtimeError (error : RuntimeError) : DriverOp σ ν α :=
  fun driver => (.error (.runtime error), driver.keep error)

/-- Backpressure of a wakeup is an answer, not a failure. -/
def driveRuntimeError (error : RuntimeError) : DriverOp σ ν DriveResult :=
  fun driver =>
    match error with
    | .executionBackpressure item =>
      (.ok (.backpressured item), { driver with pendingLifecycle := some item })
    | error => (.error (.runtime error), driver)

/-- Turns an error of the runtime into one of the driver. -/
def orRuntimeError (first : Fallible (RuntimeDriver σ ν) RuntimeError α) : DriverOp σ ν α :=
  fun driver =>
    match first driver with
    | (.ok value, reached) => (.ok value, reached)
    | (.error error, reached) => runtimeError error reached

/-- The newest started attempt of a task and operation. A parked attempt is not looked at. -/
def newestAttempt (runtime : Runtime σ ν) (taskId : Id) (operationId : OperationId) :
    Option AttemptId :=
  (runtime.attempts.reverse.find? fun attempt =>
    attempt.taskId = taskId ∧ attempt.operationId = some operationId).map TaskAttempt.attemptId

/-- Compares the attempt of the pending step, if there is one, with the attempt found. -/
def checkLineage (operationId : OperationId) (expected actual : Option AttemptId) :
    DriverOp σ ν Unit :=
  match expected with
  | none => pure ()
  | some attemptId =>
    if actual = some attemptId then pure ()
    else fail (.attemptLineageMismatch operationId attemptId actual)

/-- The durable state of the run. -/
def durableState [DurableStore σ] (runtime : Runtime σ ν) : Except RuntimeError DurableRunState :=
  (DurableStore.loadRun runtime.runId runtime.store).mapError .store

variable [DurableStore σ]

/-- Dispatches an operation, up to the request that is handed to the dispatcher. -/
def dispatchEffectNow (operationId : OperationId) (expected : Option AttemptId) :
    DriverOp σ ν EffectDispatchRequest := do
  orRuntimeError retryPendingLifecycle
  let driver ← get
  let intent ← orRuntimeError
    (lift ((driver.runtime.journal.intent operationId).mapError .journal))
  checkLineage operationId expected (newestAttempt driver.runtime intent.taskId operationId)
  let attemptId ← orRuntimeError
    (call (.command (.dispatchEffect operationId)) (Runtime.dispatchEffect operationId))
  checkLineage operationId expected (some attemptId)
  let driver ← get
  pure ⟨driver.runtime.runId, intent.taskId, operationId, attemptId, intent.semantics⟩

/-- Goes on with the dispatcher's answer: a known outcome is recorded. -/
def resumeDispatch (request : EffectDispatchRequest) :
    Except EffectDispatchError KnownEffectOutcome → DriverOp σ ν DriveResult
  | .ok outcome => do
    orRuntimeError (call
      (.command (.recordEffectOutcome request.operationId request.attemptId outcome))
      (Runtime.recordEffectOutcome request.operationId request.attemptId outcome))
    pure (.effectCompleted request outcome)
  | .error error => pure (.effectUnknown request error)

/-- What a wakeup comes to: an answer, or a request for the dispatcher. -/
inductive Drive
  | done (result : DriveResult)
  | handOver (request : EffectDispatchRequest)

/-- One scheduler step, and the dispatch that it waits for. -/
def driveOnce : DriverOp σ ν Drive :=
  fun driver =>
    match retryPendingLifecycle driver with
    | (.error error, reached) => (driveRuntimeError error).map .done reached
    | (.ok (), retried) =>
      match call (.command .step) Runtime.step retried with
      | (.error error, reached) => (driveRuntimeError error).map .done reached
      | (.ok (.effectPending _ attemptId operationId), reached) =>
        (dispatchEffectNow operationId (some attemptId)).map .handOver reached
      | (.ok step, reached) => (.ok (.done (.step step)), reached)

/-- Runs the recovery classifier for one operation. -/
def recoverNow (operationId : OperationId) : DriverOp σ ν RecoveryDecision := do
  orRuntimeError retryPendingLifecycle
  orRuntimeError (call (.command (.recover operationId)) (Runtime.recover operationId))

/-- Records a durable cancellation. -/
def cancelNow (taskId : Id) : DriverOp σ ν Cancellation :=
  orRuntimeError (call (.command (.cancelTask taskId)) (Runtime.cancelTask taskId))

/-- Recovers operations one after the other, up to the first error. -/
def recoverAll : List OperationId → DriverOp σ ν Unit
  | [] => pure ()
  | operationId :: rest => do
    let _ ← orRuntimeError
      (call (.command (.recover operationId)) (Runtime.recover operationId))
    recoverAll rest

/-- Refuses while an item is held. -/
def refusePending : DriverOp σ ν Unit :=
  fun driver =>
    match driver.pendingLifecycle with
    | some item => runtimeError (.executionBackpressure item) driver
    | none => (.ok (), driver)

/-- Completes the known successes and classifies what is left. -/
def shutdownNow : DriverOp σ ν ShutdownStatus := do
  orRuntimeError retryPendingLifecycle
  let driver ← get
  let state ← orRuntimeError (lift (durableState driver.runtime))
  recoverAll (state.operationIds.filter state.knowsOutcome)
  refusePending
  let driver ← get
  let state ← orRuntimeError (lift (durableState driver.runtime))
  pure (classifyShutdown state)

/-! ### Rules -/

omit [DurableStore σ] in
@[simp]
theorem keep_runtime (driver : RuntimeDriver σ ν) (error : RuntimeError) :
    (driver.keep error).runtime = driver.runtime := by
  cases error <;> rfl

omit [DurableStore σ] in
/-- What the runtime hands back is kept. -/
theorem triple_orRuntimeError {before : RuntimeDriver σ ν → Prop}
    {after : α → RuntimeDriver σ ν → Prop} {failed : DriverError → RuntimeDriver σ ν → Prop}
    {first : Fallible (RuntimeDriver σ ν) RuntimeError α}
    (triple : Triple before first after fun error driver =>
      failed (.runtime error) (driver.keep error)) :
    Triple before (orRuntimeError first) after failed := by
  intro driver holds
  have post := triple driver holds
  unfold orRuntimeError
  rcases ended : first driver with ⟨error | value, reached⟩ <;> rw [ended] at post
  · exact post
  · exact post

omit [DurableStore σ] in
theorem triple_driveRuntimeError (always : RuntimeDriver σ ν → Prop)
    {after : Drive → RuntimeDriver σ ν → Prop} {failed : DriverError → RuntimeDriver σ ν → Prop}
    (error : RuntimeError) (ends : ∀ result driver, always driver → after (.done result) driver)
    (fails : ∀ error driver, always driver → failed (.runtime error) driver) :
    Triple (fun driver => always (driver.keep error)) ((driveRuntimeError error).map Drive.done)
      after failed := by
  intro driver holds
  unfold driveRuntimeError
  cases error with
  | executionBackpressure item => exact ends _ _ holds
  | _ => exact fails _ _ holds

end RuntimeDriver

end Kernis
