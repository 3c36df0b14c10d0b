/-
**The durable facts of one run, and the errors of a durable store.**

Identities are wrappers of `Id` (`RunId`, `OperationId`, `AttemptId`) or non-blank texts of their
own (`IdempotencyKey`, `WorkflowReplayIdentity`), so a blank one cannot be built. A store is changed
by `DurableMutation`s grouped in a `CommitRequest`; what it accepts is appended to the ledger as
`CommitLedgerEntry`s.
-/

import Kernis.Core

namespace Kernis

open Std

/-! ### Identities -/

/-- Identity of one workflow execution, stable across task attempts. -/
structure RunId where
  id : Id
deriving DecidableEq

/-- Stable identity of one logical external side effect. -/
structure OperationId where
  id : Id
deriving DecidableEq

/-- Identity of one transport or execution attempt for an operation. -/
structure AttemptId where
  id : Id
deriving DecidableEq

/-- Stable identity of the supplied workflow topology and runtime configuration. -/
structure WorkflowReplayIdentity where
  text : NonBlank
deriving DecidableEq

/-- Caller-supplied identity for an idempotent durable mutation. -/
structure IdempotencyKey where
  text : NonBlank
deriving DecidableEq

theorem RunId.id_injective : Function.Injective RunId.id := by
  rintro ⟨first⟩ ⟨second⟩ same
  exact congrArg RunId.mk same

instance : Ord RunId := ⟨compareOn RunId.id⟩

instance : TransOrd RunId := inferInstanceAs (TransCmp (compareOn RunId.id))

instance : LawfulEqOrd RunId := lawfulEqCmp_compareOn RunId.id_injective

theorem OperationId.id_injective : Function.Injective OperationId.id := by
  rintro ⟨first⟩ ⟨second⟩ same
  exact congrArg OperationId.mk same

instance : Ord OperationId := ⟨compareOn OperationId.id⟩

instance : TransOrd OperationId := inferInstanceAs (TransCmp (compareOn OperationId.id))

instance : LawfulEqOrd OperationId := lawfulEqCmp_compareOn OperationId.id_injective

theorem AttemptId.id_injective : Function.Injective AttemptId.id := by
  rintro ⟨first⟩ ⟨second⟩ same
  exact congrArg AttemptId.mk same

instance : Ord AttemptId := ⟨compareOn AttemptId.id⟩

instance : TransOrd AttemptId := inferInstanceAs (TransCmp (compareOn AttemptId.id))

instance : LawfulEqOrd AttemptId := lawfulEqCmp_compareOn AttemptId.id_injective

theorem IdempotencyKey.text_injective : Function.Injective IdempotencyKey.text := by
  rintro ⟨first⟩ ⟨second⟩ same
  exact congrArg IdempotencyKey.mk same

instance : Ord IdempotencyKey := ⟨compareOn IdempotencyKey.text⟩

instance : TransOrd IdempotencyKey := inferInstanceAs (TransCmp (compareOn IdempotencyKey.text))

instance : LawfulEqOrd IdempotencyKey := lawfulEqCmp_compareOn IdempotencyKey.text_injective

/-! ### Facts -/

/-- Declares whether repeating one logical operation is externally safe. -/
inductive EffectSemantics
  | idempotent
  | nonIdempotent
deriving DecidableEq

/-- Durable admission record declaring the logical effect to be performed. -/
structure EffectIntent where
  taskId : Id
  operationId : OperationId
  semantics : EffectSemantics
deriving DecidableEq

/-- Durable boundary record proving that an external call was dispatched. -/
structure DispatchRecord where
  operationId : OperationId
  attemptId : AttemptId
deriving DecidableEq

/-- Result known by the local runtime. -/
inductive KnownEffectOutcome
  | succeeded
  | failed
deriving DecidableEq

/-- Durable checkpoint of a known external result for one dispatch attempt. -/
structure OutcomeRecord where
  operationId : OperationId
  attemptId : AttemptId
  outcome : KnownEffectOutcome
deriving DecidableEq

/-- Local knowledge state derived from durable effect facts. -/
inductive RecoveredEffectState
  | notPrepared
  | prepared
  | outcomeKnown (outcome : KnownEffectOutcome)
  | outcomeUnknown
deriving DecidableEq

/-- Stable logical capability identity used to validate a capability after restart. -/
structure CapabilityReplayIdentity where
  capabilityId : Id
  definitionIdentity : Text
deriving DecidableEq

/-- Durable admission of one exact attempt, independent of provider dispatch. -/
structure AttemptAdmission where
  runId : RunId
  taskId : Id
  attemptId : AttemptId
  operationId : Option OperationId
  capabilities : List CapabilityReplayIdentity
deriving DecidableEq

/-- Durable cancellation fact. -/
structure CancellationRecord where
  runId : RunId
  taskId : Id
  operationId : Option OperationId
  attemptId : Option AttemptId
deriving DecidableEq

/-- Durable completion fact for one admitted task attempt. -/
structure CompletionRecord where
  taskId : Id
  attemptId : AttemptId
deriving DecidableEq

/-! ### Commits -/

/-- One typed correctness mutation accepted by a durable store. -/
inductive DurableMutation
  | recordWorkflowReplayIdentity (identity : WorkflowReplayIdentity)
  | admitAttempt (admission : AttemptAdmission)
  | recordIntent (intent : EffectIntent)
  | recordCancellation (cancellation : CancellationRecord)
  | recordDispatch (dispatch : DispatchRecord)
  | recordOutcome (outcome : OutcomeRecord)
  | recordCompletion (completion : CompletionRecord)
deriving DecidableEq

/-- One atomic compare-and-swap request against a run's durable state. -/
structure CommitRequest where
  runId : RunId
  expectedRevision : Nat
  idempotencyKey : IdempotencyKey
  mutations : List DurableMutation
deriving DecidableEq

/-- A request containing one typed mutation. -/
def CommitRequest.single (runId : RunId) (expectedRevision : Nat) (idempotencyKey : IdempotencyKey)
    (mutation : DurableMutation) : CommitRequest :=
  ⟨runId, expectedRevision, idempotencyKey, [mutation]⟩

/-- One ordered durable commit entry. -/
structure CommitLedgerEntry where
  idempotencyKey : IdempotencyKey
  mutations : List DurableMutation
  revision : Nat
  binding : UInt64
deriving DecidableEq

/-- What a physical store keeps of a run. -/
structure PersistedRunSnapshot where
  runId : RunId
  commitLedger : List CommitLedgerEntry
deriving DecidableEq

/-- Result of a durable commit: the head revision, and whether this was an idempotent replay. -/
structure CommitResult where
  revision : Nat
  replayed : Bool
deriving DecidableEq

/-! ### Errors -/

/-- Structured durable-state invariant violation. -/
inductive StoreInvariant
  | completionUnknownTask (taskId : Id)
  | completionPrerequisiteMismatch (taskId dependency : Id)
  | completionReplayRejected (taskId : Option Id) (reason : Text)
  | completionWithoutAdmission (attemptId : AttemptId)
  | completionAttemptMismatch (taskId : Id) (attemptId : AttemptId)
  | completionWithoutIntent (operationId : OperationId)
  | completionWithoutDispatch (attemptId : AttemptId)
  | completionNotLatestDispatch (operationId : OperationId) (attemptId : AttemptId)
  | completionWithoutSuccessfulOutcome (attemptId : AttemptId) (outcome : Option KnownEffectOutcome)
  | conflictingCompletion (taskId : Id) (existingAttemptId attemptedAttemptId : AttemptId)
  | attemptIdReuse (attemptId : AttemptId)
  | dispatchWithoutAdmission (attemptId : AttemptId)
  | dispatchAttemptMismatch (attemptId : AttemptId) (operationId : OperationId)
  | outcomeWithoutAdmission (attemptId : AttemptId)
  | outcomeWithoutDispatch (attemptId : AttemptId)
  | outcomeAttemptMismatch (attemptId : AttemptId) (operationId : OperationId)
  | conflictingOutcome (attemptId : AttemptId) (existing attempted : KnownEffectOutcome)
  | taskOperationConflict (taskId : Id) (existing attempted : OperationId)
  | dispatchCancelled (taskId : Id)
  | cancellationLineageMismatch (taskId : Id)
  | conflictingCancellation (taskId : Id)
deriving DecidableEq

/-- Error returned by a durable store. A corruption carries its message, or the domain error whose
rendering the message quotes. -/
inductive StoreError
  | runNotFound (runId : RunId)
  | runAlreadyExists (runId : RunId)
  | revisionConflict (expected actual : Nat)
  | idempotencyConflict (key : IdempotencyKey)
  | emptyIdempotencyKey
  | emptyWorkflowReplayIdentity
  | emptyCommit
  | invariantViolation (invariant : StoreInvariant)
  | revisionExhausted (current : Nat)
  | backendUnavailable
  | ioFailure (message : Text)
  | dataCorruption (message : Text)
  | persistedFactInvalid (error : StoreError)
deriving DecidableEq

/-- Broad category of a durable-store failure. -/
inductive StoreErrorKind
  | domain
  | backendUnavailable
  | ioFailure
  | dataCorruption
deriving DecidableEq

/-- The backend-neutral category of an error. -/
def StoreError.kind : StoreError → StoreErrorKind
  | .backendUnavailable => .backendUnavailable
  | .ioFailure _ => .ioFailure
  | .dataCorruption _ => .dataCorruption
  | .persistedFactInvalid _ => .dataCorruption
  | _ => .domain

/-- Creates a non-blank idempotency key. -/
def IdempotencyKey.new (value : Text) : Except StoreError IdempotencyKey :=
  if valid : blank value = false then .ok ⟨⟨value, valid⟩⟩ else .error .emptyIdempotencyKey

/-- Creates an identity from a canonical representation. -/
def WorkflowReplayIdentity.new (value : Text) : Except StoreError WorkflowReplayIdentity :=
  if valid : blank value = false then .ok ⟨⟨value, valid⟩⟩ else .error .emptyWorkflowReplayIdentity

/-! ### A sample run, task, operation and attempt for concrete traces -/

def sampleRun : RunId := ⟨⟨"run".toList, by decide⟩⟩

def sampleTask : Id := ⟨"task".toList, by decide⟩

def sampleOperation : OperationId := ⟨⟨"operation".toList, by decide⟩⟩

def sampleAttempt : AttemptId := ⟨⟨"run-attempt-1".toList, by decide⟩⟩

/-- The sample run's commit of one mutation. -/
def sampleCommit (expectedRevision : Nat) (key : NonBlank) (mutation : DurableMutation) :
    CommitRequest :=
  .single sampleRun expectedRevision ⟨key⟩ mutation

theorem sampleKey_solid : blank "admit".toList = false := by
  decide

end Kernis
