/-
**Recovery classification.**

`classifyRecovery` is a pure function of the workflow facts and the journal: what to do next about
one operation, and why. Its lookups of the latest dispatch and of the known outcome never fail
(`latestDispatch_of_outcomeUnknown`, `knownOutcome_of_outcomeKnown`).
-/

import Kernis.Recovery.Journal
import Kernis.Workflow.Graph

namespace Kernis

/-- Action selected by deterministic recovery classification. -/
inductive RecoveryAction
  | execute
  | retrySameOperation
  | completeWithoutReexecution
  | reconcile
  | noAction
  | observeFailure
  | invariantViolation
deriving DecidableEq

/-- Structured explanation for a recovery action. -/
inductive RecoveryReason
  | preparedNotDispatched (operationId : OperationId)
  | idempotentOutcomeUnknown (operationId : OperationId) (attemptId : AttemptId)
  | nonIdempotentOutcomeUnknown (operationId : OperationId) (attemptId : AttemptId)
  | knownSuccess (operationId : OperationId) (attemptId : AttemptId)
  | knownFailure (operationId : OperationId) (attemptId : AttemptId)
  | workflowAlreadyCompleted (operationId : OperationId) (taskId : Id)
  | workflowStateMismatch (operationId : OperationId) (taskId : Id) (state : RecoveredEffectState)
  | notPrepared (operationId : OperationId)
deriving DecidableEq

/-- Deterministic recovery result derived from a workflow and durable journal. -/
structure RecoveryDecision where
  action : RecoveryAction
  reason : RecoveryReason
deriving DecidableEq

/-- The refusal to act on contradictory facts. -/
def invariantDecision (operationId : OperationId) (intent : EffectIntent)
    (state : RecoveredEffectState) : RecoveryDecision :=
  ⟨.invariantViolation, .workflowStateMismatch operationId intent.taskId state⟩

/-- An unknown outcome may be retried only when repeating the operation is safe. -/
def retryDecision (operationId : OperationId) (attemptId : AttemptId) :
    EffectSemantics → RecoveryDecision
  | .idempotent => ⟨.retrySameOperation, .idempotentOutcomeUnknown operationId attemptId⟩
  | .nonIdempotent => ⟨.reconcile, .nonIdempotentOutcomeUnknown operationId attemptId⟩

/-- A known outcome against the workflow's completion fact. -/
def knownDecision (operationId : OperationId) (intent : EffectIntent) (attemptId : AttemptId) :
    KnownEffectOutcome → Bool → RecoveryDecision
  | .succeeded, true => ⟨.noAction, .workflowAlreadyCompleted operationId intent.taskId⟩
  | .succeeded, false => ⟨.completeWithoutReexecution, .knownSuccess operationId attemptId⟩
  | .failed, true => invariantDecision operationId intent (.outcomeKnown .failed)
  | .failed, false => ⟨.observeFailure, .knownFailure operationId attemptId⟩

/-- Classifies the next recovery action without executing an external effect. -/
def classifyRecovery (workflow : WorkflowGraph) (journal : DurableJournal)
    (operationId : OperationId) : Except JournalError RecoveryDecision :=
  match journal.intent operationId with
  | .error error => .error error
  | .ok intent =>
    let state := journal.state operationId
    if (workflow.task intent.taskId).isNone then .ok (invariantDecision operationId intent state)
    else
      let completed := workflow.isCompleted intent.taskId
      match state with
      | .prepared =>
        if completed then .ok (invariantDecision operationId intent state)
        else .ok ⟨.execute, .preparedNotDispatched operationId⟩
      | .outcomeUnknown =>
        match journal.latestDispatch operationId with
        | none => .ok (invariantDecision operationId intent state)
        | some dispatch =>
          if completed then .ok (invariantDecision operationId intent state)
          else .ok (retryDecision operationId dispatch.attemptId intent.semantics)
      | .outcomeKnown outcome =>
        match journal.knownOutcome operationId with
        | none => .ok (invariantDecision operationId intent state)
        | some known => .ok (knownDecision operationId intent known.attemptId outcome completed)
      | .notPrepared => .ok ⟨.invariantViolation, .notPrepared operationId⟩

namespace DurableJournal

variable {journal : DurableJournal} {operationId : OperationId}

/-- An operation with an intent is prepared. -/
theorem state_ne_notPrepared {intent : EffectIntent} (found : journal.intent operationId = .ok intent) :
    journal.state operationId ≠ .notPrepared := by
  intro unprepared
  unfold state at unprepared
  split at unprepared
  · rename_i missing
    unfold DurableJournal.intent at found
    rw [lookup_none_of_not_mem missing] at found
    cases found
  · split at unprepared
    · cases unprepared
    · split at unprepared <;> cases unprepared

/-- An unknown outcome has a latest dispatch. -/
theorem latestDispatch_of_outcomeUnknown
    (unknown : journal.state operationId = .outcomeUnknown) :
    ∃ dispatch, journal.latestDispatch operationId = some dispatch := by
  unfold state at unknown
  split at unknown
  · cases unknown
  · split at unknown
    · cases unknown
    · split at unknown
      · exact Option.isSome_iff_exists.mp ‹_›
      · cases unknown

/-- A known outcome is the outcome of the latest dispatch. -/
theorem knownOutcome_of_outcomeKnown {outcome : KnownEffectOutcome}
    (known : journal.state operationId = .outcomeKnown outcome) :
    ∃ record, journal.knownOutcome operationId = some record ∧ record.outcome = outcome := by
  unfold state at known
  split at known
  · cases known
  · split at known
    · cases known
      exact ⟨_, ‹_›, rfl⟩
    · split at known <;> cases known

end DurableJournal

/-- **Only a known success of an unfinished task is completed without reexecution.** -/
theorem classifyRecovery_complete {workflow : WorkflowGraph} {journal : DurableJournal}
    {operationId : OperationId} {decision : RecoveryDecision}
    (classified : classifyRecovery workflow journal operationId = .ok decision)
    (completes : decision.action = .completeWithoutReexecution) :
    ∃ intent record, journal.intent operationId = .ok intent ∧
      journal.state operationId = .outcomeKnown .succeeded ∧
      journal.knownOutcome operationId = some record ∧ record.outcome = .succeeded ∧
      workflow.isCompleted intent.taskId = false := by
  unfold classifyRecovery at classified
  split at classified
  · cases classified
  · rename_i intent prepared
    cases state : journal.state operationId with
    | notPrepared =>
      simp only [state] at classified
      split at classified <;> cases classified <;> cases completes
    | prepared =>
      simp only [state] at classified
      repeat' split at classified
      all_goals cases classified
      all_goals cases completes
    | outcomeUnknown =>
      simp only [state] at classified
      repeat' split at classified
      all_goals cases classified
      all_goals try cases completes
      -- A retry decision never completes, whatever the semantics.
      unfold retryDecision at completes
      split at completes <;> cases completes
    | outcomeKnown outcome =>
      obtain ⟨record, known, same⟩ := DurableJournal.knownOutcome_of_outcomeKnown state
      simp only [state, known] at classified
      split at classified
      · cases classified
        cases completes
      · cases classified
        unfold knownDecision at completes
        split at completes
        · cases completes
        · exact ⟨intent, record, prepared, rfl, known, same, ‹_›⟩
        · cases completes
        · cases completes

end Kernis
