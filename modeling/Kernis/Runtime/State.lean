/-
**The runtime coordinator's state, results and errors.**

`Runtime σ ν` owns a durable store of type `σ` and a capability scope of values `ν`. The workflow,
the journal, the cancelled set and the attempts are views of the durable facts; streams and the
pending slot are process-local.

* `captureCapabilityPins` — the capability snapshot of one attempt, checked against the configured
  and, on restore, the admitted identities.
* `legacyWorkflowReplayIdentity` — the identity of a run started from live objects.
* `attemptForTask` — the parked attempt of a task and operation, else the newest one.
-/

import Kernis.Recovery.Classify
import Kernis.Runtime.Definition
import Kernis.Stream

namespace Kernis

open Std

/-- A capability pinned for the lifetime of one task attempt. -/
structure CapabilityPin where
  capabilityId : Id
  generation : Nat
  entryId : Nat
  replayIdentity : CapabilityReplayIdentity
deriving DecidableEq

/-- One task execution attempt and its immutable capability snapshot. -/
structure TaskAttempt where
  runId : RunId
  taskId : Id
  attemptId : AttemptId
  operationId : Option OperationId
  capabilityPins : List CapabilityPin
deriving DecidableEq

/-- The durable admission of an attempt. -/
def TaskAttempt.admission (attempt : TaskAttempt) : AttemptAdmission where
  runId := attempt.runId
  taskId := attempt.taskId
  attemptId := attempt.attemptId
  operationId := attempt.operationId
  capabilities := attempt.capabilityPins.map CapabilityPin.replayIdentity

/-- Runtime inputs for a task. -/
structure TaskConfig where
  requiredCapabilities : BTreeMap Id (Option Text)
  effect : Option EffectSpec
deriving DecidableEq

/-- An empty task configuration. -/
def TaskConfig.new : TaskConfig := ⟨∅, none⟩

/-- Adds a capability requirement with a stable identity for restart validation. -/
def TaskConfig.requireCapabilityWithIdentity (config : TaskConfig) (capabilityId : Id)
    (definitionIdentity : Text) : TaskConfig :=
  { config with requiredCapabilities :=
      config.requiredCapabilities.insert capabilityId (some definitionIdentity) }

/-- Non-authoritative observations emitted by the runtime. -/
inductive RuntimeEvent
  | taskStarted (runId : RunId) (taskId : Id) (attemptId : AttemptId)
  | taskProgress (taskId : Id) (progress : UInt8)
  | taskCompleted (runId : RunId) (taskId : Id) (attemptId : AttemptId)
  | telemetry (message : Text)
deriving DecidableEq

/-- Result of one deterministic scheduler step. -/
inductive StepResult
  | completed (taskId : Id) (attemptId : AttemptId)
  | effectPending (taskId : Id) (attemptId : AttemptId) (operationId : OperationId)
  | blocked (taskId : Id) (operationId : Option OperationId) (action : RecoveryAction)
  | idle
deriving DecidableEq

/-- Whether the scheduler goes on after a step. -/
def StepResult.goesOn : StepResult → Bool
  | .completed _ _ => true
  | _ => false

/-- Result of cancelling a task. -/
inductive Cancellation
  | notDispatched (taskId : Id)
  | alreadyDispatched (taskId : Id) (operationId : OperationId) (attemptId : AttemptId)
deriving DecidableEq

/-- Failure while assembling fresh process-local objects from a valid definition. -/
inductive ReconstructionError
  | capabilityGraph (error : CapabilityGraphError)
  | capabilityPublication (capabilityId : Id) (error : ScopeError)
  | reconstructionInvariantViolation (reason : Text)
deriving DecidableEq

/-- Identifies a legacy live-object mutation. -/
inductive LegacyMutationOperation
  | configureTask
  | applyWorkflowMutation
deriving DecidableEq

/-- Errors returned by the synchronous runtime coordinator. -/
inductive RuntimeError
  | definition (error : DefinitionError)
  | factory (error : FactoryResolutionError)
  | reconstruction (error : ReconstructionError)
  | workflow (error : WorkflowGraphError)
  | journal (error : JournalError)
  | store (error : StoreError)
  | stream (error : SequenceError)
  | unknownTask (taskId : Id)
  | missingCapability (taskId capabilityId : Id)
  | capabilityReplayMismatch (taskId capabilityId : Id)
  | workflowReplayIdentityMismatch (expected : WorkflowReplayIdentity)
      (actual : Option WorkflowReplayIdentity)
  | definitionMismatch (expected : WorkflowReplayIdentity) (actual : Option WorkflowReplayIdentity)
  | legacyDefinitionIdentityUnsupported (durableIdentity : WorkflowReplayIdentity)
      (supportedFormat : Text)
  | declarativeMutationUnsupported (operation : LegacyMutationOperation)
  | precompletedWorkflow (taskId : Id)
  | attemptIdExhausted
  | cancelledBeforeDispatch (taskId : Id)
  | cancelledAfterDispatch (taskId : Id) (operationId : OperationId)
  | reconciliationRequired (operationId : OperationId)
  | outcomeAlreadyKnown (operationId : OperationId)
  | progressBackpressure
  | executionBackpressure (item : StreamItem RuntimeEvent)
deriving DecidableEq

/-- How a runtime's replay identity was made. -/
inductive IdentityProvenance
  | legacyLiveObject
  | declarativeDefinition
deriving DecidableEq

/-- Deterministic single-process runtime. -/
structure Runtime (σ ν : Type) where
  runId : RunId
  workflow : WorkflowGraph
  scope : Scope ν
  journal : DurableJournal
  store : σ
  storeRevision : Nat
  identityProvenance : IdentityProvenance
  taskConfigs : BTreeMap Id TaskConfig
  attempts : List TaskAttempt
  pendingStarted : Option (TaskAttempt × StreamItem RuntimeEvent)
  cancelled : BTreeSet Id
  nextAttemptNumber : Nat
  executionSequencer : StreamSequencer
  progressSequencer : StreamSequencer
  telemetrySequencer : StreamSequencer
  executionEvents : LosslessBuffer RuntimeEvent
  progressEvents : CoalescingBuffer Id RuntimeEvent
  telemetryEvents : LossyBuffer RuntimeEvent

/-! ### Capability pins -/

section Pins

variable {ν : Type} (scope : Scope ν)

/-- Pins one capability as configured for a task. -/
def capturePin (taskId : Id) : Id × Option Text → Except RuntimeError CapabilityPin
  | (capabilityId, configuredIdentity) =>
    match scope.contextGet capabilityId with
    | none => .error (.missingCapability taskId capabilityId)
    | some handle =>
      if configuredIdentity.any fun identity => identity ≠ handle.definition.replayIdentity then
        .error (.capabilityReplayMismatch taskId capabilityId)
      else .ok ⟨capabilityId, handle.generation, handle.entryId,
        ⟨capabilityId, handle.definition.replayIdentity⟩⟩

/-- The capabilities required by the configuration of a task, in order. -/
def requiredCapabilities (taskConfigs : BTreeMap Id TaskConfig) (taskId : Id) :
    List (Id × Option Text) :=
  match taskConfigs[taskId]? with
  | none => []
  | some config => config.requiredCapabilities.toList

/-- The admitted identities by capability. -/
def expectedIdentities (expected : List CapabilityReplayIdentity) :
    BTreeMap Id CapabilityReplayIdentity :=
  expected.foldl (fun identities identity => identities.insert identity.capabilityId identity) ∅

/-- The captured pins are not those that were admitted. -/
def pinsDiffer (expected : BTreeMap Id CapabilityReplayIdentity) (pins : List CapabilityPin) :
    Bool :=
  expected.size ≠ pins.length ∨
    pins.any fun pin => expected[pin.capabilityId]? ≠ some pin.replayIdentity

/-- The capability named when captured pins differ from the admitted ones. -/
def mismatchedCapability (expected : BTreeMap Id CapabilityReplayIdentity)
    (pins : List CapabilityPin) : Id :=
  match pins.head? with
  | some pin => pin.capabilityId
  | none =>
    match expected.keys.head? with
    | some capabilityId => capabilityId
    | none => ⟨"durable-capability-mismatch".toList, by decide⟩

/-- Captures the capabilities of one attempt, checked against admitted identities on restore. -/
def captureCapabilityPins (taskConfigs : BTreeMap Id TaskConfig) (taskId : Id)
    (expected : Option (List CapabilityReplayIdentity)) :
    Except RuntimeError (List CapabilityPin) :=
  match (requiredCapabilities taskConfigs taskId).mapM (capturePin scope taskId) with
  | .error error => .error error
  | .ok pins =>
    match expected with
    | none => .ok pins
    | some expected =>
      if pinsDiffer (expectedIdentities expected) pins then
        .error (.capabilityReplayMismatch taskId
          (mismatchedCapability (expectedIdentities expected) pins))
      else .ok pins

end Pins

/-! ### The identity of live objects -/

/-- Appends one length-delimited part. -/
def appendIdentityPart (canonical value : Text) : Text :=
  canonical ++ ':' :: digits (utf8Length value) ++ ':' :: value

/-- Appends parts in order. -/
def appendIdentityParts (canonical : Text) (parts : List Text) : Text :=
  parts.foldl appendIdentityPart canonical

/-- The parts of one capability requirement. -/
def requirementParts : Id × Option Text → List Text
  | (capabilityId, some definitionIdentity) =>
    ["capability".toList, capabilityId.asStr, "specified".toList, definitionIdentity]
  | (capabilityId, none) => ["capability".toList, capabilityId.asStr, "unspecified".toList]

/-- The parts of an effect. -/
def effectParts : Option EffectSpec → List Text
  | none => ["no-effect".toList]
  | some effect => ["effect".toList, effect.operationId.id.asStr,
      match effect.semantics with
      | .idempotent => "idempotent".toList
      | .nonIdempotent => "non-idempotent".toList]

/-- The parts of a task and its configuration. -/
def taskParts (taskConfigs : BTreeMap Id TaskConfig) (task : Task) : List Text :=
  ["task".toList, task.id.asStr, task.label, "config".toList] ++
    match taskConfigs[task.id]? with
    | none => ["no-effect".toList]
    | some config =>
      config.requiredCapabilities.toList.flatMap requirementParts ++ effectParts config.effect

/-- The replay identity of a workflow and its task configurations. -/
def legacyWorkflowReplayIdentity (workflow : WorkflowGraph)
    (taskConfigs : BTreeMap Id TaskConfig) : Except StoreError WorkflowReplayIdentity :=
  WorkflowReplayIdentity.new (appendIdentityParts "kernis-workflow-replay-v1".toList
    (["tasks".toList] ++ workflow.tasks.flatMap (taskParts taskConfigs) ++
      ["edges".toList] ++ workflow.topology.edges.flatMap fun (taskId, dependencyId) =>
        [taskId.asStr, dependencyId.asStr]))

/-! ### Attempts of a runtime -/

/-- The generated identity of the `number`-th attempt of a run. -/
def generatedAttemptId (runId : RunId) (number : Nat) : AttemptId :=
  ⟨⟨runId.id.asStr ++ "-attempt-".toList ++ digits number,
    blank_append_of_left (blank_append_of_left runId.id.text.property _) _⟩⟩

/-- Different numbers name different attempts. -/
theorem generatedAttemptId_injective (runId : RunId) :
    Function.Injective (generatedAttemptId runId) := by
  intro first second same
  have texts : runId.id.asStr ++ "-attempt-".toList ++ digits first =
      runId.id.asStr ++ "-attempt-".toList ++ digits second :=
    congrArg (fun attemptId : AttemptId => attemptId.id.asStr) same
  exact digits_injective (List.append_cancel_left texts)

namespace Runtime

variable {σ ν : Type}

/-- Whether an attempt belongs to a task and operation. -/
def belongsTo (taskId : Id) (operationId : Option OperationId) (attempt : TaskAttempt) : Bool :=
  attempt.taskId = taskId ∧ attempt.operationId = operationId

/-- The parked attempt of a task and operation, else the newest one. -/
def attemptForTask (runtime : Runtime σ ν) (taskId : Id) (operationId : Option OperationId) :
    Option AttemptId :=
  match runtime.pendingStarted.filter fun pending => belongsTo taskId operationId pending.1 with
  | some (attempt, _) => some attempt.attemptId
  | none => (runtime.attempts.reverse.find? (belongsTo taskId operationId)).map
      TaskAttempt.attemptId

/-- The attempt that waits for the dispatch of an operation. -/
def pendingAttempt (runtime : Runtime σ ν) (taskId : Id) (operationId : OperationId) :
    Option AttemptId :=
  runtime.attemptForTask taskId (some operationId)

/-- The same runtime over another store. -/
def onStore {τ : Type} (runtime : Runtime σ ν) (store : τ) : Runtime τ ν :=
  { runtime with store := store }

end Runtime

end Kernis
