/-
**The views of a runtime agree with the durable facts, so the store accepts its commits.**

* `Coherent runtime state` — revision, journal, cancelled set, completions, attempt counter and
  known attempts of a runtime are those of a durable state that runtimes own.
* `Coherent.accepts` — the guards of an action imply the store's checks.
* `Coherent.repeats` — a commit that replays is a repeated outcome or cancellation.
* `Coherent.fresh`, `Coherent.again` — settling a fresh commit or a replay keeps the agreement.
-/

import Kernis.Recovery.Journal
import Kernis.Runtime.Owned
import Kernis.Runtime.Performs

namespace Kernis

open Std Fallible

namespace Runtime

variable {σ ν : Type} [Postcard]

/-- An attempt is admitted under its own identity, for its task and operation. -/
def Admitted (state : DurableRunState) (attempt : TaskAttempt) : Prop :=
  ∃ admission, state.admissions[attempt.attemptId]? = some admission ∧
    admission.taskId = attempt.taskId ∧ admission.operationId = attempt.operationId

/-- **The views of a runtime are those of a durable state.** The lifecycle stream has numbered fewer
items than there were commits. -/
structure Coherent (runtime : Runtime σ ν) (state : DurableRunState) : Prop where
  owned : state.Owned
  runId : state.runId = runtime.runId
  revision : runtime.storeRevision = state.revision
  journal : runtime.journal = state.journal
  cancelled : ∀ taskId, taskId ∈ runtime.cancelled ↔ taskId ∈ state.cancellations
  completed : ∀ taskId, runtime.workflow.isCompleted taskId = true ↔ taskId ∈ state.completions
  number : runtime.nextAttemptNumber = state.admissionHistory.length + 1
  known : ∀ attempt ∈ runtime.known, Admitted state attempt
  live : runtime.executionSequencer.exhausted = false
  sequence : runtime.executionSequencer.nextSequence ≤ state.revision

omit [Postcard] in
/-- An admitted attempt stays admitted. -/
theorem Admitted.mono {state next : DurableRunState} {attempt : TaskAttempt}
    (admitted : Admitted state attempt) (more : DurableRunState.Extends state next) :
    Admitted next attempt := by
  obtain ⟨admission, found, task, operation⟩ := admitted
  exact ⟨admission, more.admissions found, task, operation⟩

namespace Coherent

variable {runtime : Runtime σ ν} {state : DurableRunState}

/-- A held attempt is admitted. -/
theorem admitted (coherent : Coherent runtime state) {taskId : Id}
    {operationId : Option OperationId} {attemptId : AttemptId}
    (holds : runtime.Holds taskId operationId attemptId) :
    ∃ admission, state.admissions[attemptId]? = some admission ∧ admission.taskId = taskId ∧
      admission.operationId = operationId := by
  obtain ⟨attempt, member, rfl, rfl, rfl⟩ := holds
  exact coherent.known attempt member

/-- The intent that the journal finds is the store's. -/
theorem intent (coherent : Coherent runtime state) {operationId : OperationId}
    {intent : EffectIntent} (found : runtime.journal.intent operationId = .ok intent) :
    state.intents[operationId]? = some intent := by
  rw [coherent.journal] at found
  unfold DurableJournal.intent at found
  split at found
  · cases found
  · rename_i held lookup
    cases found
    exact lookup

/-- A known success, in the store's terms. -/
theorem effectSucceeded (coherent : Coherent runtime state) {fact : CompletionRecord}
    {operationId : OperationId} {outcome : OutcomeRecord}
    (success : KnownSuccess runtime.journal fact operationId outcome) :
    ∃ admission, state.admissions[fact.attemptId]? = some admission ∧
      admission.taskId = fact.taskId ∧ admission.operationId = some operationId ∧
      state.EffectSucceeded fact.attemptId operationId := by
  obtain ⟨owned, known, succeeded, attempt⟩ := success
  have lineage := coherent.owned.lineage
  rw [coherent.journal, DurableRunState.knownOutcome_journal, DurableRunState.latestOutcome,
    Option.bind_eq_some_iff] at known
  obtain ⟨dispatch, latest, concluded⟩ := known
  obtain ⟨sent, same⟩ := lineage.latestDispatch_lookup latest
  have identity : dispatch.attemptId = fact.attemptId :=
    (lineage.outcomes.key_of_lookup concluded).symm.trans attempt
  obtain ⟨admission, intent, admitted, carried, prepared, owner⟩ :=
    lineage.dispatched dispatch (lineage.dispatches.mem_of_lookup sent)
  rw [same] at carried prepared
  have task : intent.taskId = fact.taskId := by
    rcases owned with own | ⟨other, found, mine⟩
    · rw [coherent.journal] at own
      obtain ⟨other, found, mine⟩ := (lineage.inverse _ _).mp own
      rw [prepared] at found
      cases found
      exact mine
    · rw [coherent.intent found] at prepared
      cases prepared
      exact mine
  rw [coherent.journal, DurableRunState.state_journal lineage,
    DurableRunState.effectState, if_neg (not_not.mpr (mem_of_lookup prepared)), latest] at succeeded
  simp only [concluded] at succeeded
  rw [identity] at sent concluded admitted
  exact ⟨admission, admitted, owner.symm.trans task, carried, mem_of_lookup prepared,
    ⟨dispatch, sent, same⟩, ⟨dispatch, latest, identity⟩,
    ⟨outcome, concluded, RecoveredEffectState.outcomeKnown.inj succeeded⟩⟩

/-- A cancellation that was not recorded under its key is new. -/
theorem cancellation_new (coherent : Coherent runtime state) {taskId : Id} {key : IdempotencyKey}
    (own : key.text.val = FactKind.cancellation.label ++ taskId.asStr)
    (newKey : key ∉ state.idempotency) : taskId ∉ state.cancellations := by
  intro cancelled
  obtain ⟨held, member, named⟩ := coherent.owned.cancelled taskId cancelled
  have same : held = key := IdempotencyKey.text_injective (Subtype.ext (named.trans own.symm))
  exact newKey (same ▸ member)

/-- **The guards of an action imply the store's checks.** -/
theorem accepts (coherent : Coherent runtime state) {action : Action}
    (allowed : runtime.Allowed action) {key : IdempotencyKey}
    (own : key.text.val = mutationKey state.revision action.mutation)
    (newKey : key ∉ state.idempotency) :
    ∃ next, DurableRunState.Accepted state action.mutation next := by
  have lineage := coherent.owned.lineage
  cases action with
  | intent fact journal =>
    have persisted : runtime.journal.persistIntent fact = .ok journal := allowed.2.2
    rw [coherent.journal] at persisted
    obtain ⟨unknown, free, _⟩ := DurableRunState.persistIntent_journal persisted
    exact ⟨_, .intent fact unknown free⟩
  | admission attempt =>
    obtain ⟨taskId, operationId, pins, _, rfl⟩ := allowed
    refine ⟨_, .admission _ coherent.runId.symm ?_⟩
    show generatedAttemptId runtime.runId runtime.nextAttemptNumber ∉ state.admissions
    rw [coherent.number, ← coherent.runId]
    exact coherent.owned.next_not_admitted
  | dispatch fact journal =>
    obtain ⟨intent, found, live, holds, _, persisted⟩ := allowed
    obtain ⟨admission, admitted, task, operation⟩ := coherent.admitted holds
    rw [coherent.journal] at persisted
    obtain ⟨_, fresh, _⟩ := DurableRunState.persistDispatch_journal persisted
    refine ⟨_, .dispatch fact intent admission (coherent.intent found) admitted operation task.symm
      ?_ fresh⟩
    rw [task, ← coherent.cancelled]
    exact live
  | outcome fact journal =>
    have persisted : runtime.journal.persistOutcome fact = .ok journal := allowed
    rw [coherent.journal] at persisted
    obtain ⟨dispatch, sent, same, known⟩ := DurableRunState.persistOutcome_journal persisted
    obtain ⟨admission, intent, admitted, carried, _⟩ :=
      lineage.dispatched dispatch (lineage.dispatches.mem_of_lookup sent)
    rw [lineage.dispatches.key_of_lookup sent] at admitted
    rw [same] at carried
    rcases known with ⟨existing, concluded, equal, _⟩ | ⟨unknown, _⟩
    · exact ⟨_, .outcomeKnown fact existing admission dispatch admitted sent same carried concluded
        equal⟩
    · exact ⟨_, .outcome fact admission dispatch admitted sent same carried unknown⟩
  | cancel fact =>
    have record : fact = runtime.cancellationOf fact.taskId := allowed
    refine ⟨_, .cancellation fact ?_ (coherent.cancellation_new own newKey) ?_ ?_⟩
    · rw [record]
      exact coherent.runId.symm
    · intro operationId named
      rw [record] at named
      have owner : runtime.journal.operationForTask fact.taskId = some operationId := named
      rw [coherent.journal] at owner
      exact owner
    · intro attemptId named
      rw [record] at named
      obtain ⟨operationId, owner, found⟩ := Option.bind_eq_some_iff.mp named
      obtain ⟨admission, admitted, task, operation⟩ :=
        coherent.admitted (holds_of_attemptForTask found)
      refine ⟨admission, admitted, task, ?_⟩
      rw [operation, record]
      exact owner.symm
  | complete fact workflow =>
    obtain ⟨completed, proof⟩ := allowed
    obtain ⟨_, unfinished, _⟩ := WorkflowGraph.complete_eq_ok completed
    have fresh : fact.taskId ∉ state.completions := by
      rw [← coherent.completed, unfinished]
      exact Bool.false_ne_true
    rcases proof with ⟨_, holds⟩ | ⟨operationId, outcome, success⟩
    · obtain ⟨admission, admitted, task, operation⟩ := coherent.admitted holds
      refine ⟨_, .completion fact admission admitted task (fun operationId carried => ?_) fresh⟩
      rw [operation] at carried
      cases carried
    · obtain ⟨admission, admitted, task, operation, succeeded⟩ := coherent.effectSucceeded success
      refine ⟨_, .completion fact admission admitted task (fun other carried => ?_) fresh⟩
      rw [operation] at carried
      cases carried
      exact succeeded
  | configure taskConfigs identity => exact ⟨_, .identity identity⟩
  | mutate workflow identity => exact ⟨_, .identity identity⟩

/-! ### Replays -/

/-- What a replayed commit can have been. -/
inductive Repeats (runtime : Runtime σ ν) (state : DurableRunState) : Action → Prop
  | outcome (fact : OutcomeRecord) : Repeats runtime state (.outcome fact runtime.journal)
  | cancel (fact : CancellationRecord) (recorded : fact.taskId ∈ state.cancellations) :
      Repeats runtime state (.cancel fact)

/-- **A commit that replays is a repeated outcome or cancellation.** -/
theorem repeats (coherent : Coherent runtime state) {action : Action}
    (allowed : runtime.Allowed action) {key : IdempotencyKey} {revision : Nat}
    (own : key.text.val = mutationKey state.revision action.mutation)
    (found : state.idempotency[key]? = some ([action.mutation], revision)) :
    Repeats runtime state action := by
  obtain ⟨stored, same, fact, _, earlier, before, subjects⟩ := coherent.owned.replayed own found
  cases same
  cases action with
  | intent intent journal =>
    have persisted : runtime.journal.persistIntent intent = .ok journal := allowed.2.2
    rw [coherent.journal] at persisted
    obtain ⟨unknown, _⟩ := DurableRunState.persistIntent_journal persisted
    exact absurd (mem_of_lookup fact) unknown
  | admission attempt =>
    obtain ⟨taskId, operationId, pins, _, rfl⟩ := allowed
    have there : generatedAttemptId runtime.runId runtime.nextAttemptNumber ∈ state.admissions :=
      mem_of_lookup fact
    rw [coherent.number, ← coherent.runId] at there
    exact absurd there coherent.owned.next_not_admitted
  | dispatch dispatch journal =>
    obtain ⟨_, _, _, _, _, persisted⟩ := allowed
    rw [coherent.journal] at persisted
    obtain ⟨_, fresh, _⟩ := DurableRunState.persistDispatch_journal persisted
    exact absurd (mem_of_lookup fact) fresh
  | outcome outcome journal =>
    obtain ⟨existing, concluded, _⟩ := fact
    have persisted : runtime.journal.persistOutcome outcome = .ok journal := allowed
    rw [coherent.journal] at persisted
    obtain ⟨_, _, _, ⟨_, _, _, rfl⟩ | ⟨unknown, _⟩⟩ :=
      DurableRunState.persistOutcome_journal persisted
    · rw [← coherent.journal]
      exact .outcome outcome
    · exact absurd (mem_of_lookup concluded) unknown
  | cancel cancellation => exact .cancel cancellation (mem_of_lookup fact)
  | complete completion workflow =>
    obtain ⟨_, unfinished, _⟩ := WorkflowGraph.complete_eq_ok allowed.1
    have there := (coherent.completed completion.taskId).mpr (mem_of_lookup fact)
    exact absurd (unfinished.symm.trans there) Bool.false_ne_true
  | configure taskConfigs identity =>
    rw [digits_of_colon subjects] at before
    exact absurd before (Nat.lt_irrefl _)
  | mutate workflow identity =>
    rw [digits_of_colon subjects] at before
    exact absurd before (Nat.lt_irrefl _)

/-- Settling a replay keeps the agreement. -/
theorem again (coherent : Coherent runtime state) {action : Action}
    (repeated : Repeats runtime state action) {store : σ} :
    Coherent (action.settle (runtime.accepted store state.revision)).2 state := by
  cases repeated with
  | outcome fact => exact { coherent with revision := rfl }
  | cancel fact recorded =>
    refine { coherent with revision := rfl, cancelled := fun taskId => ?_ }
    show taskId ∈ runtime.cancelled.insert fact.taskId ↔ _
    rw [ExtTreeSet.mem_insert, Std.compare_eq_iff_eq, coherent.cancelled]
    constructor
    · rintro (rfl | held)
      · exact recorded
      · exact held
    · exact .inr

/-! ### Fresh commits -/

omit [Postcard] in
/-- Announcing below the bounds: the attempt is started, or parked. -/
theorem settle_admit_cases (attempt : TaskAttempt) (runtime : Runtime σ ν)
    (number : runtime.nextAttemptNumber < u64Max)
    (live : runtime.executionSequencer.exhausted = false)
    (sequence : runtime.executionSequencer.nextSequence < u64Max) :
    (∃ events, (Action.admission attempt).settle runtime = (.ok (), { runtime with
        nextAttemptNumber := runtime.nextAttemptNumber + 1
        executionSequencer := { runtime.executionSequencer with
          nextSequence := runtime.executionSequencer.nextSequence + 1 }
        executionEvents := events
        attempts := runtime.attempts ++ [attempt] })) ∨
      ∃ item, runtime.executionEvents.items.length = runtime.executionEvents.capacity ∧
        (Action.admission attempt).settle runtime = (.error (.executionBackpressure item),
        { runtime with
          nextAttemptNumber := runtime.nextAttemptNumber + 1
          executionSequencer := { runtime.executionSequencer with
            nextSequence := runtime.executionSequencer.nextSequence + 1 }
          pendingStarted := some (attempt, item) }) := by
  rw [settle_admission, checkedNext_of_lt number]
  simp only [StreamSequencer.emit_of_lt _ live sequence]
  split
  · exact .inl ⟨_, rfl⟩
  · rename_i rejected full
    refine .inr ⟨rejected, ?_, rfl⟩
    unfold LosslessBuffer.tryPush at full
    split at full
    · assumption
    · cases full

omit [Postcard] in
/-- Announcing a completion below the bounds. -/
theorem settle_complete_cases (fact : CompletionRecord) (workflow : WorkflowGraph)
    (runtime : Runtime σ ν) (live : runtime.executionSequencer.exhausted = false)
    (sequence : runtime.executionSequencer.nextSequence < u64Max) :
    ∃ events result, (Action.complete fact workflow).settle runtime = (result, { runtime with
        workflow := workflow
        executionSequencer := { runtime.executionSequencer with
          nextSequence := runtime.executionSequencer.nextSequence + 1 }
        executionEvents := events }) ∧
      (result = .ok () ∨ ∃ item, result = .error (.executionBackpressure item)) := by
  rw [settle_complete]
  simp only [StreamSequencer.emit_of_lt _ live sequence]
  split
  · exact ⟨_, _, rfl, .inl rfl⟩
  · exact ⟨_, _, rfl, .inr ⟨_, rfl⟩⟩

/-- **Settling a fresh commit keeps the agreement.** -/
theorem fresh (coherent : Coherent runtime state) {action : Action}
    (allowed : runtime.Allowed action) {key : IdempotencyKey} {candidate : DurableRunState}
    {store : σ} (room : state.revision < u64Max)
    (own : key.text.val = mutationKey state.revision action.mutation)
    (newKey : key ∉ state.idempotency)
    (accepted : DurableRunState.Accepted state action.mutation candidate) :
    Coherent (action.settle (runtime.accepted store (state.revision + 1))).2
      (candidate.recordCommit key [action.mutation] (state.revision + 1)) := by
  have numbered : ∀ admission, action.mutation = .admitAttempt admission →
      admission.attemptId =
        generatedAttemptId state.runId (state.admissionHistory.length + 1) := by
    intro admission same
    cases action <;> cases same
    obtain ⟨taskId, operationId, pins, _, rfl⟩ := allowed
    rw [coherent.runId, ← coherent.number]
    rfl
  have owned := coherent.owned.commit room own newKey accepted numbered
  have known : ∀ attempt ∈ runtime.known, Admitted (candidate.recordCommit key [action.mutation]
      (state.revision + 1)) attempt := fun attempt member =>
    (coherent.known attempt member).mono (accepted.extends.trans (.recordCommit _ _ _ _))
  have sequence := Nat.le_succ_of_le coherent.sequence
  have bound : runtime.executionSequencer.nextSequence < u64Max :=
    Nat.lt_of_le_of_lt coherent.sequence room
  cases action with
  | intent fact journal =>
    have persisted : runtime.journal.persistIntent fact = .ok journal := allowed.2.2
    rw [coherent.journal] at persisted
    obtain ⟨unknown, _, rfl⟩ := DurableRunState.persistIntent_journal persisted
    cases accepted with
    | intentKnown _ there => exact absurd (mem_of_lookup there) unknown
    | intent =>
      exact { coherent with owned, known, sequence, revision := rfl, journal := rfl }
  | admission attempt =>
    cases accepted with
    | admission _ _ unused =>
      have number : runtime.nextAttemptNumber < u64Max := by
        have := coherent.owned.room
        rw [coherent.number]
        omega
      have added : Admitted (DurableRunState.recordCommit { state with
          admissions := state.admissions.insert attempt.attemptId attempt.admission
          admissionHistory := state.admissionHistory ++ [attempt.admission] } key
            [(Action.admission attempt).mutation] (state.revision + 1)) attempt :=
        ⟨attempt.admission, lookup_insert_self _ _ _, rfl, rfl⟩
      have count : runtime.nextAttemptNumber + 1 =
          (state.admissionHistory ++ [attempt.admission]).length + 1 := by
        rw [coherent.number, List.length_append, List.length_singleton]
      rcases settle_admit_cases attempt (runtime.accepted store (state.revision + 1)) number
        coherent.live bound with ⟨events, settled⟩ | ⟨item, _, settled⟩
      · rw [settled]
        refine { coherent with
          owned, revision := rfl, number := count, known := fun other member => ?_
          sequence := Nat.succ_le_succ coherent.sequence }
        simp only [Runtime.known, Runtime.accepted, List.append_assoc, List.mem_append,
          List.mem_singleton] at member
        rcases member with old | rfl | parked
        · exact known other (List.mem_append_left _ old)
        · exact added
        · exact known other (List.mem_append_right _ parked)
      · rw [settled]
        refine { coherent with
          owned, revision := rfl, number := count, known := fun other member => ?_
          sequence := Nat.succ_le_succ coherent.sequence }
        simp only [Runtime.known, Runtime.accepted, Option.map_some, Option.toList_some,
          List.mem_append, List.mem_singleton] at member
        rcases member with old | rfl
        · exact known other (List.mem_append_left _ old)
        · exact added
  | dispatch fact journal =>
    obtain ⟨_, _, _, _, _, persisted⟩ := allowed
    rw [coherent.journal] at persisted
    obtain ⟨_, _, rfl⟩ := DurableRunState.persistDispatch_journal persisted
    cases accepted
    exact { coherent with owned, known, sequence, revision := rfl, journal := rfl }
  | outcome fact journal =>
    have persisted : runtime.journal.persistOutcome fact = .ok journal := allowed
    rw [coherent.journal] at persisted
    obtain ⟨_, _, _, shown⟩ := DurableRunState.persistOutcome_journal persisted
    cases accepted with
    | outcomeKnown _ existing _ _ _ _ _ _ there =>
      rcases shown with ⟨_, _, _, rfl⟩ | ⟨unknown, _⟩
      · exact { coherent with owned, known, sequence, revision := rfl, journal := rfl }
      · exact absurd (mem_of_lookup there) unknown
    | outcome _ _ _ _ _ _ _ unknown =>
      rcases shown with ⟨_, there, _⟩ | ⟨_, rfl⟩
      · exact absurd (mem_of_lookup there) unknown
      · exact { coherent with owned, known, sequence, revision := rfl, journal := rfl }
  | cancel fact =>
    have new := coherent.cancellation_new own newKey
    cases accepted with
    | cancellationKnown _ _ there => exact absurd (mem_of_lookup there) new
    | cancellation =>
      refine { coherent with
        owned, known, sequence, revision := rfl, cancelled := fun taskId => ?_ }
      show taskId ∈ runtime.cancelled.insert fact.taskId ↔
        taskId ∈ state.cancellations.insert fact.taskId fact
      rw [ExtTreeSet.mem_insert, Std.compare_eq_iff_eq, mem_insert_iff, coherent.cancelled, eq_comm]
  | complete fact workflow =>
    have completed := allowed.1
    obtain ⟨_, unfinished, _⟩ := WorkflowGraph.complete_eq_ok completed
    obtain ⟨events, result, settled, _⟩ := settle_complete_cases fact workflow
      (runtime.accepted store (state.revision + 1)) coherent.live bound
    rw [settled]
    cases accepted with
    | completionKnown _ _ _ _ _ there =>
      have done := (coherent.completed fact.taskId).mpr (mem_of_lookup there)
      exact absurd (unfinished.symm.trans done) Bool.false_ne_true
    | completion =>
      refine { coherent with
        owned, known, revision := rfl, completed := fun taskId => ?_
        sequence := Nat.succ_le_succ coherent.sequence }
      show workflow.isCompleted taskId = true ↔
        taskId ∈ state.completions.insert fact.taskId fact
      rw [WorkflowGraph.isCompleted_of_complete completed, mem_insert_iff, coherent.completed]
  | configure taskConfigs identity =>
    cases accepted
    exact { coherent with owned, known, sequence, revision := rfl }
  | mutate workflow identity =>
    obtain ⟨_, _, _, _, _, applied⟩ := allowed
    obtain ⟨_, _, _, _, facts⟩ := WorkflowGraph.applyBatch_eq_ok applied
    cases accepted
    refine { coherent with owned, known, sequence, revision := rfl, completed := fun taskId => ?_ }
    show workflow.facts.completed.contains taskId = true ↔ _
    rw [facts]
    exact coherent.completed taskId

end Coherent

end Runtime

end Kernis
