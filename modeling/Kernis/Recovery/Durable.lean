/-
**The durable run state, its mutations, its ledger, and the in-memory store.**

* `DurableRunState` — the materialized facts of one run: maps for lookups, append-only histories,
  the commit ledger and its idempotency index.
* `DurableRunState.applyMutation` — the store's lineage validator, one function for each mutation.
* `DurableRunState.commit` — one batch against one run: idempotent replay first, then
  compare-and-swap, then the mutations on a candidate, then the ledger entry.
* `replayCommitLedger` — rebuilds a state from its ledger, checking revisions, bindings and keys.
* `DurableStore` — the persistence port; `InMemoryDurableStore` — the deterministic adapter.

The serializer is third-party (`Postcard`): the model uses only the bytes it returns.
-/

import Kernis.Recovery.Model

namespace Kernis

open Std

/-- The serializer of the persisted types, with its rendered errors. -/
class Postcard where
  bindingBytes : IdempotencyKey → List DurableMutation → Nat → List UInt8
  snapshotBytes : PersistedRunSnapshot → Except Text (List UInt8)
  takeSnapshot : List UInt8 → Except Text (PersistedRunSnapshot × List UInt8)

/-- The 64-bit FNV-1a hash. -/
def fnv1a (bytes : List UInt8) : UInt64 :=
  bytes.foldl (fun hash byte => (hash ^^^ byte.toUInt64) * 0x100000001b3) 0xcbf29ce484222325

/-- Binding over the key, mutation batch, and revision of a ledger entry. -/
def commitBinding [Postcard] (idempotencyKey : IdempotencyKey) (mutations : List DurableMutation)
    (revision : Nat) : UInt64 :=
  fnv1a (Postcard.bindingBytes idempotencyKey mutations revision)

/-- Materialized durable facts for one run. -/
structure DurableRunState where
  runId : RunId
  revision : Nat
  workflowReplayIdentity : Option WorkflowReplayIdentity
  admissions : BTreeMap AttemptId AttemptAdmission
  admissionHistory : List AttemptAdmission
  intents : BTreeMap OperationId EffectIntent
  taskOperations : BTreeMap Id OperationId
  cancellations : BTreeMap Id CancellationRecord
  dispatches : BTreeMap AttemptId DispatchRecord
  dispatchHistory : List DispatchRecord
  outcomes : BTreeMap AttemptId OutcomeRecord
  outcomeHistory : List OutcomeRecord
  completions : BTreeMap Id CompletionRecord
  completionHistory : List CompletionRecord
  commitLedger : List CommitLedgerEntry
  idempotency : BTreeMap IdempotencyKey (List DurableMutation × Nat)
deriving DecidableEq

namespace DurableRunState

/-- An empty run at the initial revision. -/
def new (runId : RunId) : DurableRunState where
  runId := runId
  revision := 0
  workflowReplayIdentity := none
  admissions := ∅
  admissionHistory := []
  intents := ∅
  taskOperations := ∅
  cancellations := ∅
  dispatches := ∅
  dispatchHistory := []
  outcomes := ∅
  outcomeHistory := []
  completions := ∅
  completionHistory := []
  commitLedger := []
  idempotency := ∅

/-- Whether the run is an untouched bootstrap row. -/
def isPristineBootstrap (state : DurableRunState) : Bool :=
  state.revision == 0 && state.workflowReplayIdentity.isNone && state.admissions.isEmpty &&
    state.admissionHistory.isEmpty && state.intents.isEmpty && state.taskOperations.isEmpty &&
    state.cancellations.isEmpty && state.dispatches.isEmpty && state.dispatchHistory.isEmpty &&
    state.outcomes.isEmpty && state.outcomeHistory.isEmpty && state.completions.isEmpty &&
    state.completionHistory.isEmpty && state.commitLedger.isEmpty && state.idempotency.isEmpty

/-- All dispatches for one logical operation in durable order. -/
def dispatchesOf (state : DurableRunState) (operationId : OperationId) : List DispatchRecord :=
  state.dispatchHistory.filter fun dispatch => dispatch.operationId = operationId

/-- The latest durable dispatch, which owns recovery authority. -/
def latestDispatch (state : DurableRunState) (operationId : OperationId) : Option DispatchRecord :=
  (state.dispatchesOf operationId).getLast?

/-- The outcome of the latest dispatch, if known. -/
def latestOutcome (state : DurableRunState) (operationId : OperationId) : Option OutcomeRecord :=
  (state.latestDispatch operationId).bind fun dispatch => state.outcomes[dispatch.attemptId]?

/-- Derives the local effect state from the latest dispatch only. -/
def effectState (state : DurableRunState) (operationId : OperationId) : RecoveredEffectState :=
  if operationId ∉ state.intents then .notPrepared
  else
    match state.latestDispatch operationId with
    | none => .prepared
    | some dispatch =>
      match state.outcomes[dispatch.attemptId]? with
      | none => .outcomeUnknown
      | some outcome => .outcomeKnown outcome.outcome

/-- The operation owned by a task, if any. -/
def operationForTask (state : DurableRunState) (taskId : Id) : Option OperationId :=
  state.taskOperations[taskId]?

/-- The intent for an operation, if any. -/
def intent (state : DurableRunState) (operationId : OperationId) : Option EffectIntent :=
  state.intents[operationId]?

/-- Operation identities with durable intent. -/
def operationIds (state : DurableRunState) : List OperationId := state.intents.keys

/-! ### The lineage validator -/

/-- A domain rejection. -/
def violation {α : Type} (invariant : StoreInvariant) : Except StoreError α :=
  .error (.invariantViolation invariant)

/-- `RecordWorkflowReplayIdentity`. -/
def recordWorkflowReplayIdentity (state : DurableRunState) (identity : WorkflowReplayIdentity) :
    Except StoreError DurableRunState :=
  if blank identity.text.val then .error .emptyWorkflowReplayIdentity
  else .ok { state with workflowReplayIdentity := some identity }

/-- `AdmitAttempt`. -/
def admitAttempt (state : DurableRunState) (admission : AttemptAdmission) :
    Except StoreError DurableRunState :=
  if admission.runId ≠ state.runId then violation (.attemptIdReuse admission.attemptId)
  else if admission.attemptId ∈ state.admissions then
    violation (.attemptIdReuse admission.attemptId)
  else .ok { state with
    admissions := state.admissions.insert admission.attemptId admission
    admissionHistory := state.admissionHistory ++ [admission] }

/-- `RecordIntent`. -/
def recordIntent (state : DurableRunState) (intent : EffectIntent) :
    Except StoreError DurableRunState :=
  match state.intents[intent.operationId]? with
  | some existing =>
    if existing = intent then .ok state
    else violation
      (.taskOperationConflict intent.taskId existing.operationId intent.operationId)
  | none =>
    match state.taskOperations[intent.taskId]? with
    | some existing =>
      violation (.taskOperationConflict intent.taskId existing intent.operationId)
    | none => .ok { state with
        taskOperations := state.taskOperations.insert intent.taskId intent.operationId
        intents := state.intents.insert intent.operationId intent }

/-- The operation a cancellation names is not the task's. -/
def cancelsForeignOperation (state : DurableRunState) (cancellation : CancellationRecord) : Bool :=
  match cancellation.operationId with
  | none => false
  | some operationId => state.taskOperations[cancellation.taskId]? ≠ some operationId

/-- The attempt a cancellation names was not admitted for its task and operation. -/
def cancelsForeignAttempt (state : DurableRunState) (cancellation : CancellationRecord) : Bool :=
  match cancellation.attemptId with
  | none => false
  | some attemptId =>
    match state.admissions[attemptId]? with
    | none => true
    | some admission =>
      admission.taskId ≠ cancellation.taskId ∨ admission.operationId ≠ cancellation.operationId

/-- `RecordCancellation`. -/
def recordCancellation (state : DurableRunState) (cancellation : CancellationRecord) :
    Except StoreError DurableRunState :=
  if cancellation.runId ≠ state.runId then
    violation (.cancellationLineageMismatch cancellation.taskId)
  else
    match state.cancellations[cancellation.taskId]? with
    | some existing =>
      if existing = cancellation then .ok state
      else violation (.conflictingCancellation cancellation.taskId)
    | none =>
      if state.cancelsForeignOperation cancellation then
        violation (.cancellationLineageMismatch cancellation.taskId)
      else if state.cancelsForeignAttempt cancellation then
        violation (.cancellationLineageMismatch cancellation.taskId)
      else .ok { state with
        cancellations := state.cancellations.insert cancellation.taskId cancellation }

/-- `RecordDispatch`. -/
def recordDispatch (state : DurableRunState) (dispatch : DispatchRecord) :
    Except StoreError DurableRunState :=
  match state.intents[dispatch.operationId]? with
  | none => violation (.dispatchWithoutAdmission dispatch.attemptId)
  | some intent =>
    match state.admissions[dispatch.attemptId]? with
    | none => violation (.dispatchWithoutAdmission dispatch.attemptId)
    | some admission =>
      if admission.operationId ≠ some dispatch.operationId then
        violation (.dispatchAttemptMismatch dispatch.attemptId dispatch.operationId)
      else if intent.taskId ≠ admission.taskId then
        violation (.dispatchAttemptMismatch dispatch.attemptId dispatch.operationId)
      else if admission.taskId ∈ state.cancellations ∧ dispatch.attemptId ∉ state.dispatches then
        violation (.dispatchCancelled admission.taskId)
      else if dispatch.attemptId ∈ state.dispatches then
        violation (.dispatchAttemptMismatch dispatch.attemptId dispatch.operationId)
      else .ok { state with
        dispatches := state.dispatches.insert dispatch.attemptId dispatch
        dispatchHistory := state.dispatchHistory ++ [dispatch] }

/-- `RecordOutcome`. -/
def recordOutcome (state : DurableRunState) (outcome : OutcomeRecord) :
    Except StoreError DurableRunState :=
  match state.admissions[outcome.attemptId]? with
  | none => violation (.outcomeWithoutAdmission outcome.attemptId)
  | some admission =>
    match state.dispatches[outcome.attemptId]? with
    | none => violation (.outcomeWithoutDispatch outcome.attemptId)
    | some dispatch =>
      if dispatch.operationId ≠ outcome.operationId ∨
          admission.operationId ≠ some outcome.operationId then
        violation (.outcomeAttemptMismatch outcome.attemptId outcome.operationId)
      else
        match state.outcomes[outcome.attemptId]? with
        | some existing =>
          if existing.outcome = outcome.outcome then .ok state
          else violation
            (.conflictingOutcome outcome.attemptId existing.outcome outcome.outcome)
        | none => .ok { state with
            outcomes := state.outcomes.insert outcome.attemptId outcome
            outcomeHistory := state.outcomeHistory ++ [outcome] }

/-- The effect part of a completion: the attempt's operation has an intent, the attempt is its
latest dispatch, and its outcome is a success. -/
def checkEffectCompletion (state : DurableRunState) (completion : CompletionRecord)
    (operationId : OperationId) : Except StoreError Unit :=
  if operationId ∉ state.intents then violation (.completionWithoutIntent operationId)
  else if state.dispatches[completion.attemptId]?.all fun dispatch =>
      dispatch.operationId ≠ operationId then
    violation (.completionWithoutDispatch completion.attemptId)
  else if (state.latestDispatch operationId).all fun dispatch =>
      dispatch.attemptId ≠ completion.attemptId then
    violation (.completionNotLatestDispatch operationId completion.attemptId)
  else if state.outcomes[completion.attemptId]?.map OutcomeRecord.outcome ≠ some .succeeded then
    violation (.completionWithoutSuccessfulOutcome completion.attemptId
      (state.outcomes[completion.attemptId]?.map OutcomeRecord.outcome))
  else .ok ()

/-- The completion part proper: at most one lineage for each task. -/
def insertCompletion (state : DurableRunState) (completion : CompletionRecord) :
    Except StoreError DurableRunState :=
  match state.completions[completion.taskId]? with
  | some existing =>
    if existing = completion then .ok state
    else violation
      (.conflictingCompletion completion.taskId existing.attemptId completion.attemptId)
  | none => .ok { state with
      completions := state.completions.insert completion.taskId completion
      completionHistory := state.completionHistory ++ [completion] }

/-- `RecordCompletion`. -/
def recordCompletion (state : DurableRunState) (completion : CompletionRecord) :
    Except StoreError DurableRunState :=
  match state.admissions[completion.attemptId]? with
  | none => violation (.completionWithoutAdmission completion.attemptId)
  | some admission =>
    if admission.taskId ≠ completion.taskId then
      violation (.completionAttemptMismatch completion.taskId completion.attemptId)
    else
      match admission.operationId with
      | none => state.insertCompletion completion
      | some operationId =>
        match state.checkEffectCompletion completion operationId with
        | .error error => .error error
        | .ok () => state.insertCompletion completion

/-- Applies one typed mutation, or rejects it. -/
def applyMutation (state : DurableRunState) : DurableMutation → Except StoreError DurableRunState
  | .recordWorkflowReplayIdentity identity => state.recordWorkflowReplayIdentity identity
  | .admitAttempt admission => state.admitAttempt admission
  | .recordIntent intent => state.recordIntent intent
  | .recordCancellation cancellation => state.recordCancellation cancellation
  | .recordDispatch dispatch => state.recordDispatch dispatch
  | .recordOutcome outcome => state.recordOutcome outcome
  | .recordCompletion completion => state.recordCompletion completion

/-- Applies a batch in order; the first rejection rejects the batch. -/
def applyMutations (state : DurableRunState) : List DurableMutation →
    Except StoreError DurableRunState
  | [] => .ok state
  | mutation :: rest =>
    match state.applyMutation mutation with
    | .error error => .error error
    | .ok next => next.applyMutations rest

/-! ### Commits and the ledger -/

variable [Postcard]

/-- Appends the ledger entry of an accepted batch and indexes its key. -/
def recordCommit (state : DurableRunState) (idempotencyKey : IdempotencyKey)
    (mutations : List DurableMutation) (revision : Nat) : DurableRunState :=
  { state with
    revision := revision
    commitLedger := state.commitLedger ++
      [⟨idempotencyKey, mutations, revision, commitBinding idempotencyKey mutations revision⟩]
    idempotency := state.idempotency.insert idempotencyKey (mutations, revision) }

/-- A commit against the loaded state of its run: the result, and the state to keep. -/
def commit (state : DurableRunState) (request : CommitRequest) :
    Except StoreError (CommitResult × DurableRunState) :=
  match state.idempotency[request.idempotencyKey]? with
  | some (existing, _) =>
    if existing = request.mutations then .ok (⟨state.revision, true⟩, state)
    else .error (.idempotencyConflict request.idempotencyKey)
  | none =>
    if request.expectedRevision ≠ state.revision then
      .error (.revisionConflict request.expectedRevision state.revision)
    else
      match checkedNext state.revision with
      | none => .error (.revisionExhausted state.revision)
      | some revision =>
        match state.applyMutations request.mutations with
        | .error error => .error error
        | .ok candidate =>
          .ok (⟨revision, false⟩,
            candidate.recordCommit request.idempotencyKey request.mutations revision)

end DurableRunState

section Ledger

variable [Postcard]

/-- A rejected mutation of a persisted ledger is data corruption. -/
def persistedMutationError {α : Type} : Except StoreError α → Except StoreError α
  | .error error => .error (.persistedFactInvalid error)
  | .ok value => .ok value

/-- One ledger entry replayed: its shape, its binding, its key, its mutations. -/
def replayEntry (state : DurableRunState) (expectedRevision : Nat) (entry : CommitLedgerEntry) :
    Except StoreError DurableRunState :=
  if blank entry.idempotencyKey.text.val ∨ entry.mutations = [] ∨
      entry.revision ≠ expectedRevision then
    .error (.dataCorruption "persisted commit ledger is invalid".toList)
  else if entry.binding ≠
      commitBinding entry.idempotencyKey entry.mutations entry.revision then
    .error (.dataCorruption "persisted commit ledger binding is invalid".toList)
  else if entry.idempotencyKey ∈ state.idempotency then
    .error (.dataCorruption "persisted commit ledger reuses an idempotency key".toList)
  else
    match persistedMutationError ({ state with
        idempotency := state.idempotency.insert entry.idempotencyKey
          (entry.mutations, entry.revision) }.applyMutations entry.mutations) with
    | .error error => .error error
    | .ok next => .ok { next with
        revision := entry.revision
        commitLedger := next.commitLedger ++ [entry] }

/-- The ledger loop: the state so far and the revision the next entry must carry. -/
def replayEntries (state : DurableRunState) (expectedRevision : Nat) :
    List CommitLedgerEntry → Except StoreError (DurableRunState × Nat)
  | [] => .ok (state, expectedRevision)
  | entry :: rest =>
    match replayEntry state expectedRevision entry with
    | .error error => .error error
    | .ok next =>
      match checkedNext expectedRevision with
      | none => .error (.dataCorruption
          "persisted idempotency revision sequence is exhausted".toList)
      | some expected => replayEntries next expected rest

/-- Rebuilds a run state from its commit ledger. -/
def replayCommitLedger (runId : RunId) (commitLedger : List CommitLedgerEntry) :
    Except StoreError DurableRunState :=
  match replayEntries (DurableRunState.new runId) 1 commitLedger with
  | .error error => .error error
  | .ok (reconstructed, expectedRevision) =>
    if reconstructed.revision ≠ expectedRevision - 1 then
      .error (.dataCorruption "persisted revision does not match commit ledger".toList)
    else .ok reconstructed

namespace DurableRunState

/-- The materialized facts are exactly those of another state. -/
def sameFacts (state reconstructed : DurableRunState) : Bool :=
  reconstructed.revision = state.revision ∧
    reconstructed.workflowReplayIdentity = state.workflowReplayIdentity ∧
    reconstructed.admissions = state.admissions ∧
    reconstructed.admissionHistory = state.admissionHistory ∧
    reconstructed.intents = state.intents ∧
    reconstructed.taskOperations = state.taskOperations ∧
    reconstructed.cancellations = state.cancellations ∧
    reconstructed.dispatches = state.dispatches ∧
    reconstructed.dispatchHistory = state.dispatchHistory ∧
    reconstructed.outcomes = state.outcomes ∧
    reconstructed.outcomeHistory = state.outcomeHistory ∧
    reconstructed.completions = state.completions ∧
    reconstructed.completionHistory = state.completionHistory ∧
    reconstructed.idempotency = state.idempotency

/-- Checks that the ledger rebuilds exactly the materialized facts. -/
def validatePersisted (state : DurableRunState) : Except StoreError Unit :=
  if state.workflowReplayIdentity.any fun identity => blank identity.text.val then
    .error (.dataCorruption "persisted workflow replay identity is empty".toList)
  else if state.idempotency.keys.any fun key => blank key.text.val then
    .error (.dataCorruption "persisted idempotency metadata is invalid".toList)
  else
    match replayCommitLedger state.runId state.commitLedger with
    | .error error => .error error
    | .ok reconstructed =>
      if state.sameFacts reconstructed then .ok ()
      else .error (.dataCorruption
        "persisted durable facts do not form a consistent lineage".toList)

/-- What is persisted of a validated state. -/
def persistedSnapshot (state : DurableRunState) : Except StoreError PersistedRunSnapshot :=
  match state.validatePersisted with
  | .error error => .error error
  | .ok () => .ok ⟨state.runId, state.commitLedger⟩

/-- Rebuilds a state from what was persisted of it. -/
def fromPersistedSnapshot (snapshot : PersistedRunSnapshot) : Except StoreError DurableRunState :=
  replayCommitLedger snapshot.runId snapshot.commitLedger

end DurableRunState

end Ledger

/-! ### The persistence port and the in-memory adapter -/

/-- Minimal synchronous persistence port for durable run facts. -/
class DurableStore (σ : Type) where
  createRun : RunId → σ → Except StoreError Nat × σ
  loadRun : RunId → σ → Except StoreError DurableRunState
  commit : CommitRequest → σ → Except StoreError CommitResult × σ

/-- Deterministic in-memory conformance adapter. -/
structure InMemoryDurableStore where
  runs : BTreeMap RunId DurableRunState
deriving DecidableEq

namespace InMemoryDurableStore

/-- An empty store. -/
def new : InMemoryDurableStore := ⟨∅⟩

/-- Creates an empty run. -/
def createRun (runId : RunId) (store : InMemoryDurableStore) :
    Except StoreError Nat × InMemoryDurableStore :=
  if runId ∈ store.runs then (.error (.runAlreadyExists runId), store)
  else (.ok 0, ⟨store.runs.insert runId (.new runId)⟩)

/-- Loads a detached durable view. -/
def loadRun (runId : RunId) (store : InMemoryDurableStore) : Except StoreError DurableRunState :=
  match store.runs[runId]? with
  | none => .error (.runNotFound runId)
  | some state => .ok state

/-- Applies one typed mutation batch atomically with compare-and-swap. -/
def commit [Postcard] (request : CommitRequest) (store : InMemoryDurableStore) :
    Except StoreError CommitResult × InMemoryDurableStore :=
  if request.mutations = [] then (.error .emptyCommit, store)
  else
    match store.runs[request.runId]? with
    | none => (.error (.runNotFound request.runId), store)
    | some state =>
      match state.commit request with
      | .error error => (.error error, store)
      | .ok (result, kept) =>
        if result.replayed then (.ok result, store)
        else (.ok result, ⟨store.runs.insert request.runId kept⟩)

instance [Postcard] : DurableStore InMemoryDurableStore where
  createRun := createRun
  loadRun := loadRun
  commit := commit

end InMemoryDurableStore

end Kernis
