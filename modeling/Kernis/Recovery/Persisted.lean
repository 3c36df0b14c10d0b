/-
**The persisted types on the wire.**

The postcard format of a ledger entry and of a run snapshot: fields in declaration order, newtypes
as their content, enumerations by variant number. `Persisted.postcard` is the serializer it gives;
it reads back every snapshot it wrote.
-/

import Kernis.Lib.Wire
import Kernis.Recovery.Durable

namespace Kernis

namespace Persisted

open Wire

def id : Wire Id := nonBlank.through Id.text (some ⟨·⟩) fun _ => rfl

def runId : Wire RunId := id.through RunId.id (some ⟨·⟩) fun _ => rfl

def operationId : Wire OperationId := id.through OperationId.id (some ⟨·⟩) fun _ => rfl

def attemptId : Wire AttemptId := id.through AttemptId.id (some ⟨·⟩) fun _ => rfl

def workflowReplayIdentity : Wire WorkflowReplayIdentity :=
  nonBlank.through WorkflowReplayIdentity.text (some ⟨·⟩) fun _ => rfl

def idempotencyKey : Wire IdempotencyKey :=
  nonBlank.through IdempotencyKey.text (some ⟨·⟩) fun _ => rfl

def capabilityReplayIdentity : Wire CapabilityReplayIdentity :=
  (id.both text).through (fun identity => (identity.capabilityId, identity.definitionIdentity))
    (fun raw => some ⟨raw.1, raw.2⟩) fun _ => rfl

def attemptAdmission : Wire AttemptAdmission :=
  (runId.both (id.both (attemptId.both
    (operationId.optional.both capabilityReplayIdentity.sequence)))).through
    (fun admission => (admission.runId, admission.taskId, admission.attemptId,
      admission.operationId, admission.capabilities))
    (fun raw => some ⟨raw.1, raw.2.1, raw.2.2.1, raw.2.2.2.1, raw.2.2.2.2⟩) fun _ => rfl

/-- A two-valued enumeration by variant number. -/
def effectSemantics : Wire EffectSemantics :=
  varint.through (fun | .idempotent => 0 | .nonIdempotent => 1)
    (fun | 0 => some .idempotent | 1 => some .nonIdempotent | _ => none)
    fun semantics => by cases semantics <;> rfl

def knownEffectOutcome : Wire KnownEffectOutcome :=
  varint.through (fun | .succeeded => 0 | .failed => 1)
    (fun | 0 => some .succeeded | 1 => some .failed | _ => none)
    fun outcome => by cases outcome <;> rfl

def effectIntent : Wire EffectIntent :=
  (id.both (operationId.both effectSemantics)).through
    (fun intent => (intent.taskId, intent.operationId, intent.semantics))
    (fun raw => some ⟨raw.1, raw.2.1, raw.2.2⟩) fun _ => rfl

def cancellationRecord : Wire CancellationRecord :=
  (runId.both (id.both (operationId.optional.both attemptId.optional))).through
    (fun cancellation => (cancellation.runId, cancellation.taskId, cancellation.operationId,
      cancellation.attemptId))
    (fun raw => some ⟨raw.1, raw.2.1, raw.2.2.1, raw.2.2.2⟩) fun _ => rfl

def dispatchRecord : Wire DispatchRecord :=
  (operationId.both attemptId).through (fun dispatch => (dispatch.operationId, dispatch.attemptId))
    (fun raw => some ⟨raw.1, raw.2⟩) fun _ => rfl

def outcomeRecord : Wire OutcomeRecord :=
  (operationId.both (attemptId.both knownEffectOutcome)).through
    (fun outcome => (outcome.operationId, outcome.attemptId, outcome.outcome))
    (fun raw => some ⟨raw.1, raw.2.1, raw.2.2⟩) fun _ => rfl

def completionRecord : Wire CompletionRecord :=
  (id.both attemptId).through (fun completion => (completion.taskId, completion.attemptId))
    (fun raw => some ⟨raw.1, raw.2⟩) fun _ => rfl

/-- The mutations as numbered alternatives, in declaration order. -/
def durableMutation : Wire DurableMutation :=
  (tagged (.orElse workflowReplayIdentity (.orElse attemptAdmission (.orElse effectIntent
    (.orElse cancellationRecord (.orElse dispatchRecord (.orElse outcomeRecord
      (.last completionRecord)))))))).through
    (fun
      | .recordWorkflowReplayIdentity identity => .inl identity
      | .admitAttempt admission => .inr (.inl admission)
      | .recordIntent intent => .inr (.inr (.inl intent))
      | .recordCancellation cancellation => .inr (.inr (.inr (.inl cancellation)))
      | .recordDispatch dispatch => .inr (.inr (.inr (.inr (.inl dispatch))))
      | .recordOutcome outcome => .inr (.inr (.inr (.inr (.inr (.inl outcome)))))
      | .recordCompletion completion => .inr (.inr (.inr (.inr (.inr (.inr completion))))))
    (fun
      | .inl identity => some (.recordWorkflowReplayIdentity identity)
      | .inr (.inl admission) => some (.admitAttempt admission)
      | .inr (.inr (.inl intent)) => some (.recordIntent intent)
      | .inr (.inr (.inr (.inl cancellation))) => some (.recordCancellation cancellation)
      | .inr (.inr (.inr (.inr (.inl dispatch)))) => some (.recordDispatch dispatch)
      | .inr (.inr (.inr (.inr (.inr (.inl outcome))))) => some (.recordOutcome outcome)
      | .inr (.inr (.inr (.inr (.inr (.inr completion))))) => some (.recordCompletion completion))
    fun mutation => by cases mutation <;> rfl

def commitLedgerEntry : Wire CommitLedgerEntry :=
  (idempotencyKey.both (durableMutation.sequence.both (varint.both varint))).through
    (fun entry => (entry.idempotencyKey, entry.mutations, entry.revision, entry.binding.toNat))
    (fun raw => some ⟨raw.1, raw.2.1, raw.2.2.1, UInt64.ofNat raw.2.2.2⟩)
    fun entry => by rw [UInt64.ofNat_toNat]

def persistedRunSnapshot : Wire PersistedRunSnapshot :=
  (runId.both commitLedgerEntry.sequence).through
    (fun snapshot => (snapshot.runId, snapshot.commitLedger))
    (fun raw => some ⟨raw.1, raw.2⟩) fun _ => rfl

/-- The serializer of the persisted types. -/
@[reducible]
def postcard : Postcard where
  bindingBytes key mutations revision :=
    idempotencyKey.put key ++ (durableMutation.sequence.put mutations ++ varint.put revision)
  snapshotBytes snapshot := .ok (persistedRunSnapshot.put snapshot)
  takeSnapshot bytes :=
    (persistedRunSnapshot.take bytes).elim (.error "DeserializeUnexpectedEnd".toList) .ok

/-- Every snapshot is written, and read back without a remainder. -/
theorem postcard_round_trips (snapshot : PersistedRunSnapshot) :
    ∃ bytes, postcard.snapshotBytes snapshot = .ok bytes ∧
      postcard.takeSnapshot bytes = .ok (snapshot, []) := by
  refine ⟨persistedRunSnapshot.put snapshot, rfl, ?_⟩
  have read := persistedRunSnapshot.take_put snapshot []
  rw [List.append_nil] at read
  show (persistedRunSnapshot.take (persistedRunSnapshot.put snapshot)).elim _ _ = _
  rw [read]
  rfl

end Persisted

end Kernis
