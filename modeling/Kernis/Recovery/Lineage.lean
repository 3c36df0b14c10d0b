/-
**The lineage of every durable fact.**

* `Extends` — facts are only ever added: every lookup that succeeds keeps its answer.
* `DispatchLineage`, `OutcomeLineage`, `CompletionLineage`, `CancellationLineage` — where a fact of
  each kind comes from; each is kept by `Extends`.
* `Lineage` — the joint invariant of all maps and histories. `Lineage.step` keeps it over one
  accepted mutation, `lineage_of_reachable` has it in every reachable state.
* `CompletedEffect` — what a completion through an operation leaves behind for good.
-/

import Kernis.Lib.Fallible
import Kernis.Recovery.Persisted
import Kernis.Recovery.Reachable

namespace Kernis

open Std

namespace DurableRunState

variable {state next : DurableRunState} {mutation : DurableMutation}

/-! ### Facts are only added -/

/-- Every fact of one state is a fact of the other. -/
structure Extends (state next : DurableRunState) : Prop where
  runId : next.runId = state.runId
  admissions : Grows state.admissions next.admissions
  intents : Grows state.intents next.intents
  taskOperations : Grows state.taskOperations next.taskOperations
  cancellations : Grows state.cancellations next.cancellations
  dispatches : Grows state.dispatches next.dispatches
  outcomes : Grows state.outcomes next.outcomes
  completions : Grows state.completions next.completions

theorem Extends.refl (state : DurableRunState) : Extends state state :=
  ⟨rfl, .refl _, .refl _, .refl _, .refl _, .refl _, .refl _, .refl _⟩

theorem Extends.trans {first second third : DurableRunState} (left : Extends first second)
    (right : Extends second third) : Extends first third :=
  ⟨right.runId.trans left.runId, left.admissions.trans right.admissions,
    left.intents.trans right.intents, left.taskOperations.trans right.taskOperations,
    left.cancellations.trans right.cancellations, left.dispatches.trans right.dispatches,
    left.outcomes.trans right.outcomes, left.completions.trans right.completions⟩

/-- An accepted mutation inserts only under new keys. -/
theorem Accepted.extends (accepted : Accepted state mutation next) : Extends state next := by
  have same := Extends.refl state
  cases accepted with
  | identity => exact { same with }
  | admission _ _ fresh => exact { same with admissions := .insert fresh _ }
  | intentKnown => exact same
  | intent _ noIntent noOwner =>
    exact { same with
      intents := .insert noIntent _
      taskOperations := .insert noOwner _ }
  | cancellationKnown => exact same
  | cancellation _ _ fresh => exact { same with cancellations := .insert fresh _ }
  | dispatch _ _ _ _ _ _ _ _ fresh => exact { same with dispatches := .insert fresh _ }
  | outcomeKnown => exact same
  | outcome _ _ _ _ _ _ _ fresh => exact { same with outcomes := .insert fresh _ }
  | completionKnown => exact same
  | completion _ _ _ _ _ fresh => exact { same with completions := .insert fresh _ }

/-! ### The lineage of one fact -/

/-- The dispatch's attempt was admitted for its operation, which is an intent of the same task. -/
def DispatchLineage (state : DurableRunState) (dispatch : DispatchRecord) : Prop :=
  ∃ admission intent,
    state.admissions[dispatch.attemptId]? = some admission ∧
    admission.operationId = some dispatch.operationId ∧
    state.intents[dispatch.operationId]? = some intent ∧
    intent.taskId = admission.taskId

/-- The outcome's attempt was admitted for and dispatched to the outcome's operation. -/
def OutcomeLineage (state : DurableRunState) (outcome : OutcomeRecord) : Prop :=
  ∃ admission dispatch,
    state.admissions[outcome.attemptId]? = some admission ∧
    admission.operationId = some outcome.operationId ∧
    state.dispatches[outcome.attemptId]? = some dispatch ∧
    dispatch.operationId = outcome.operationId

/-- The attempt was dispatched for the operation and succeeded. -/
def CompletedEffect (state : DurableRunState) (attemptId : AttemptId) (operationId : OperationId) :
    Prop :=
  (∃ dispatch, state.dispatches[attemptId]? = some dispatch ∧
    dispatch.operationId = operationId) ∧
  ∃ outcome, state.outcomes[attemptId]? = some outcome ∧ outcome.outcome = .succeeded

/-- The completing attempt was admitted for the task and, through an operation, has succeeded. -/
def CompletionLineage (state : DurableRunState) (completion : CompletionRecord) : Prop :=
  ∃ admission,
    state.admissions[completion.attemptId]? = some admission ∧
    admission.taskId = completion.taskId ∧
    ∀ operationId, admission.operationId = some operationId →
      state.CompletedEffect completion.attemptId operationId

/-- A cancellation names only the task's operation and only an attempt of both. -/
structure CancellationLineage (state : DurableRunState) (cancellation : CancellationRecord) :
    Prop where
  runId : cancellation.runId = state.runId
  operation : ∀ operationId, cancellation.operationId = some operationId →
    state.taskOperations[cancellation.taskId]? = some operationId
  attempt : ∀ attemptId, cancellation.attemptId = some attemptId →
    ∃ admission, state.admissions[attemptId]? = some admission ∧
      admission.taskId = cancellation.taskId ∧
      admission.operationId = cancellation.operationId

section Monotone

variable (more : Extends state next)

include more

theorem DispatchLineage.mono {dispatch : DispatchRecord} (held : state.DispatchLineage dispatch) :
    next.DispatchLineage dispatch := by
  obtain ⟨admission, intent, admitted, own, prepared, sameTask⟩ := held
  exact ⟨admission, intent, more.admissions admitted, own, more.intents prepared, sameTask⟩

theorem OutcomeLineage.mono {outcome : OutcomeRecord} (held : state.OutcomeLineage outcome) :
    next.OutcomeLineage outcome := by
  obtain ⟨admission, dispatch, admitted, own, dispatched, sameOperation⟩ := held
  exact ⟨admission, dispatch, more.admissions admitted, own, more.dispatches dispatched,
    sameOperation⟩

theorem CompletedEffect.mono {attemptId : AttemptId} {operationId : OperationId}
    (held : state.CompletedEffect attemptId operationId) :
    next.CompletedEffect attemptId operationId := by
  obtain ⟨⟨dispatch, dispatched, sameOperation⟩, outcome, known, succeeded⟩ := held
  exact ⟨⟨dispatch, more.dispatches dispatched, sameOperation⟩, outcome, more.outcomes known,
    succeeded⟩

theorem CompletionLineage.mono {completion : CompletionRecord}
    (held : state.CompletionLineage completion) : next.CompletionLineage completion := by
  obtain ⟨admission, admitted, sameTask, effect⟩ := held
  exact ⟨admission, more.admissions admitted, sameTask,
    fun operationId own => (effect operationId own).mono more⟩

theorem CancellationLineage.mono {cancellation : CancellationRecord}
    (held : state.CancellationLineage cancellation) : next.CancellationLineage cancellation where
  runId := held.runId.trans more.runId.symm
  operation := fun operationId own => more.taskOperations (held.operation operationId own)
  attempt := by
    intro attemptId own
    obtain ⟨admission, admitted, same⟩ := held.attempt attemptId own
    exact ⟨admission, more.admissions admitted, same⟩

end Monotone

theorem EffectSucceeded.completedEffect {attemptId : AttemptId} {operationId : OperationId}
    (succeeded : state.EffectSucceeded attemptId operationId) :
    state.CompletedEffect attemptId operationId :=
  ⟨succeeded.dispatched, succeeded.succeeded⟩

/-! ### The joint invariant -/

/-- **Intents and task ownership are inverse maps; every history agrees with its index; every
dispatch, outcome, completion and cancellation has its lineage.** -/
structure Lineage (state : DurableRunState) : Prop where
  ownRun : ∀ admission ∈ state.admissionHistory, admission.runId = state.runId
  intentKey : ∀ (operationId : OperationId) (intent : EffectIntent),
    state.intents[operationId]? = some intent → intent.operationId = operationId
  inverse : ∀ (taskId : Id) (operationId : OperationId), state.taskOperations[taskId]? = some operationId ↔
    ∃ intent : EffectIntent, state.intents[operationId]? = some intent ∧ intent.taskId = taskId
  admissions : Indexes AttemptAdmission.attemptId state.admissionHistory state.admissions
  dispatches : Indexes DispatchRecord.attemptId state.dispatchHistory state.dispatches
  outcomes : Indexes OutcomeRecord.attemptId state.outcomeHistory state.outcomes
  completions : Indexes CompletionRecord.taskId state.completionHistory state.completions
  cancellationKey : ∀ (taskId : Id) (cancellation : CancellationRecord),
    state.cancellations[taskId]? = some cancellation → cancellation.taskId = taskId
  dispatched : ∀ dispatch ∈ state.dispatchHistory, state.DispatchLineage dispatch
  concluded : ∀ outcome ∈ state.outcomeHistory, state.OutcomeLineage outcome
  completed : ∀ completion ∈ state.completionHistory, state.CompletionLineage completion
  cancelled : ∀ (taskId : Id) (cancellation : CancellationRecord),
    state.cancellations[taskId]? = some cancellation → state.CancellationLineage cancellation

theorem lineage_new (runId : RunId) : Lineage (.new runId) where
  ownRun := by simp [new]
  intentKey := by simp [new]
  inverse := by simp [new]
  admissions := .empty
  dispatches := .empty
  outcomes := .empty
  completions := .empty
  cancellationKey := by simp [new]
  dispatched := by simp [new]
  concluded := by simp [new]
  completed := by simp [new]
  cancelled := by simp [new]

/-- What holds of every entry of a history and of the appended entry. -/
theorem forall_mem_push {α : Type} {Good : α → Prop} {history : List α} {entry : α}
    (old : ∀ value ∈ history, Good value) (last : Good entry) :
    ∀ value ∈ history ++ [entry], Good value := by
  intro value member
  rcases List.mem_append.mp member with before | now
  · exact old value before
  · rw [List.mem_singleton.mp now]
    exact last

/-- What holds of every entry of a map and of the inserted entry. -/
theorem forall_lookup_insert {α β : Type} [Ord α] [TransOrd α] [LawfulEqOrd α] [DecidableEq α]
    {Good : α → β → Prop} {map : BTreeMap α β} {key : α} {value : β}
    (old : ∀ at_ held, map[at_]? = some held → Good at_ held) (last : Good key value) :
    ∀ at_ held, (map.insert key value)[at_]? = some held → Good at_ held := by
  intro at_ held found
  rw [lookup_insert] at found
  split at found
  · rename_i same
    cases found
    exact same ▸ last
  · exact old at_ held found

/-- A new intent of a task without an operation keeps the two maps inverse. -/
theorem inverse_insert {intent : EffectIntent} (lineage : state.Lineage)
    (noIntent : intent.operationId ∉ state.intents) (noOwner : intent.taskId ∉ state.taskOperations)
    (taskId : Id) (operationId : OperationId) :
    (state.taskOperations.insert intent.taskId intent.operationId)[taskId]? = some operationId ↔
      ∃ held : EffectIntent, (state.intents.insert intent.operationId intent)[operationId]? = some held ∧
        held.taskId = taskId := by
  rw [lookup_insert, lookup_insert]
  by_cases sameTask : intent.taskId = taskId
  · rw [if_pos sameTask]
    by_cases sameOperation : intent.operationId = operationId
    · rw [if_pos sameOperation, sameOperation]
      exact ⟨fun _ => ⟨intent, rfl, sameTask⟩, fun _ => rfl⟩
    · rw [if_neg sameOperation]
      constructor
      · rintro ⟨⟩
        exact absurd rfl sameOperation
      · rintro ⟨held, found, owner⟩
        have owned := (lineage.inverse taskId operationId).mpr ⟨held, found, owner⟩
        exact absurd (mem_of_lookup owned) (sameTask ▸ noOwner)
  · rw [if_neg sameTask, lineage.inverse]
    by_cases sameOperation : intent.operationId = operationId
    · rw [if_pos sameOperation]
      constructor
      · rintro ⟨held, found, _⟩
        exact absurd (mem_of_lookup found) (sameOperation ▸ noIntent)
      · rintro ⟨held, ⟨⟩, owner⟩
        exact absurd owner sameTask
    · rw [if_neg sameOperation]

/-- **One accepted mutation keeps the lineage.** -/
theorem Lineage.step (accepted : Accepted state mutation next) (lineage : state.Lineage) :
    next.Lineage := by
  have more := accepted.extends
  -- Old facts keep their lineage because facts are only added.
  have dispatched := fun dispatch member => (lineage.dispatched dispatch member).mono more
  have concluded := fun outcome member => (lineage.concluded outcome member).mono more
  have completed := fun completion member => (lineage.completed completion member).mono more
  have cancelled := fun taskId cancellation found =>
    (lineage.cancelled taskId cancellation found).mono more
  cases accepted with
  | identity =>
    exact { lineage with
      dispatched := dispatched, concluded := concluded, completed := completed
      cancelled := cancelled }
  | admission admission sameRun fresh =>
    exact { lineage with
      ownRun := forall_mem_push lineage.ownRun sameRun
      admissions := lineage.admissions.push fresh
      dispatched := dispatched, concluded := concluded, completed := completed
      cancelled := cancelled }
  | intentKnown => exact lineage
  | intent intent noIntent noOwner =>
    exact { lineage with
      intentKey := forall_lookup_insert lineage.intentKey rfl
      inverse := inverse_insert lineage noIntent noOwner
      dispatched := dispatched, concluded := concluded, completed := completed
      cancelled := cancelled }
  | cancellationKnown => exact lineage
  | cancellation cancellation sameRun fresh ownOperation ownAttempt =>
    exact { lineage with
      cancellationKey := forall_lookup_insert lineage.cancellationKey rfl
      dispatched := dispatched, concluded := concluded, completed := completed
      cancelled := forall_lookup_insert cancelled ⟨sameRun, ownOperation, ownAttempt⟩ }
  | dispatch dispatch intent admission prepared admitted sameOperation sameTask live fresh =>
    exact { lineage with
      dispatches := lineage.dispatches.push fresh
      dispatched := forall_mem_push dispatched
        ⟨admission, intent, admitted, sameOperation, prepared, sameTask⟩
      concluded := concluded, completed := completed, cancelled := cancelled }
  | outcomeKnown => exact lineage
  | outcome outcome admission dispatch admitted sent first second fresh =>
    exact { lineage with
      outcomes := lineage.outcomes.push fresh
      dispatched := dispatched
      concluded := forall_mem_push concluded ⟨admission, dispatch, admitted, second, sent, first⟩
      completed := completed, cancelled := cancelled }
  | completionKnown => exact lineage
  | completion completion admission admitted sameTask effect fresh =>
    exact { lineage with
      completions := lineage.completions.push fresh
      dispatched := dispatched, concluded := concluded
      completed := forall_mem_push completed ⟨admission, admitted, sameTask,
        fun operationId own => (effect operationId own).completedEffect⟩
      cancelled := cancelled }

variable [Postcard]

theorem Extends.recordCommit (state : DurableRunState) (key : IdempotencyKey)
    (mutations : List DurableMutation) (revision : Nat) :
    Extends state (state.recordCommit key mutations revision) :=
  { Extends.refl state with }

theorem Lineage.recordCommit {key : IdempotencyKey} {mutations : List DurableMutation}
    {revision : Nat} (lineage : state.Lineage) :
    (state.recordCommit key mutations revision).Lineage :=
  { lineage with
    cancelled := fun taskId cancellation found =>
      (lineage.cancelled taskId cancellation found).mono (.recordCommit state _ _ _) }

/-- **The lineage holds in every reachable state.** -/
theorem lineage_of_reachable {runId : RunId} (reached : state.Reachable runId) : state.Lineage :=
  reached.invariant Lineage (lineage_new runId) Lineage.step Lineage.recordCommit

/-- **The revision of a reachable state counts its ledger entries.** -/
theorem revision_of_reachable {runId : RunId} (reached : state.Reachable runId) :
    state.revision = state.commitLedger.length := by
  induction reached with
  | new => rfl
  | commit _ _ _ committed ih =>
    obtain ⟨candidate, applied, rfl⟩ := committed.applied
    have same := sameHead_of_applyMutations applied
    simp only [DurableRunState.recordCommit, List.length_append, List.length_singleton,
      same.commitLedger, ih]

/-! ### Completed operations -/

omit [Postcard] in
/-- The operation of a completing attempt is its task's operation. -/
theorem Lineage.operationForTask {completion : CompletionRecord} {admission : AttemptAdmission}
    {operationId : OperationId} (lineage : state.Lineage)
    (admitted : state.admissions[completion.attemptId]? = some admission)
    (sameTask : admission.taskId = completion.taskId)
    (effect : state.CompletedEffect completion.attemptId operationId) :
    state.operationForTask completion.taskId = some operationId := by
  obtain ⟨⟨dispatch, sent, rfl⟩, _⟩ := effect
  obtain ⟨held, intent, admitted', _, prepared, owner⟩ :=
    lineage.dispatched dispatch (lineage.dispatches.mem_of_lookup sent)
  rw [lineage.dispatches.key_of_lookup sent, admitted] at admitted'
  cases admitted'
  exact (lineage.inverse _ _).mpr ⟨intent, prepared, owner.trans sameTask⟩

omit [Postcard] in
/-- A succeeded attempt decides the effect state while it is the latest dispatch. -/
theorem CompletedEffect.effectState {attemptId : AttemptId} {operationId : OperationId}
    {latest : DispatchRecord} (effect : state.CompletedEffect attemptId operationId)
    (prepared : operationId ∈ state.intents)
    (last : state.latestDispatch operationId = some latest) (same : latest.attemptId = attemptId) :
    state.effectState operationId = .outcomeKnown .succeeded := by
  obtain ⟨_, outcome, known, succeeded⟩ := effect
  unfold DurableRunState.effectState
  rw [if_neg (not_not.mpr prepared), last]
  simp only [same, known, succeeded]

end DurableRunState

/-- **Durable lineage.** However a store is driven, in every state it loads the maps and histories
agree, every fact has its lineage, and the revision counts the ledger. -/
theorem durable_lineage [Postcard] (sequence : List StoreCall) (runId : RunId)
    (state : DurableRunState)
    (loaded : InMemoryDurableStore.loadRun runId
      (DurableStore.calls sequence InMemoryDurableStore.new).2 = .ok state) :
    state.Lineage ∧ state.revision = state.commitLedger.length := by
  have reached := InMemoryDurableStore.reachable_of_calls sequence loaded
  exact ⟨DurableRunState.lineage_of_reachable reached,
    DurableRunState.revision_of_reachable reached⟩

/-- The sample task driven through its operation to completion, in one batch. -/
def sampleCompletion : List StoreCall :=
  [.createRun sampleRun, .commit ⟨sampleRun, 0, ⟨"all".toList, by decide⟩,
    [.recordIntent ⟨sampleTask, sampleOperation, .nonIdempotent⟩,
      .admitAttempt ⟨sampleRun, sampleTask, sampleAttempt, some sampleOperation, []⟩,
      .recordDispatch ⟨sampleOperation, sampleAttempt⟩,
      .recordOutcome ⟨sampleOperation, sampleAttempt, .succeeded⟩,
      .recordCompletion ⟨sampleTask, sampleAttempt⟩]⟩]

theorem durable_lineage_sample :
    let _ := Persisted.postcard
    ∃ state, InMemoryDurableStore.loadRun sampleRun
        (DurableStore.calls sampleCompletion InMemoryDurableStore.new).2 = .ok state ∧
      state.completionHistory = [⟨sampleTask, sampleAttempt⟩] ∧ state.Lineage := by
  intro _
  obtain ⟨state, loaded, completed⟩ := exists_ok_of_any
    (show ((InMemoryDurableStore.loadRun sampleRun
      (DurableStore.calls sampleCompletion InMemoryDurableStore.new).2).toOption.any fun state =>
        state.completionHistory = [⟨sampleTask, sampleAttempt⟩]) = true by decide +kernel)
  exact ⟨state, loaded, of_decide_eq_true completed, (durable_lineage _ _ state loaded).1⟩

/-- **A completion through an operation.** In every state a store loads, if a task is completed by
an attempt admitted for an operation, then that operation is the task's own, the attempt has
succeeded for good, and the operation's effect state is the known success as long as the completing
attempt is its latest dispatch. -/
theorem completed_operation [Postcard] (sequence : List StoreCall) (runId : RunId)
    (state : DurableRunState)
    (loaded : InMemoryDurableStore.loadRun runId
      (DurableStore.calls sequence InMemoryDurableStore.new).2 = .ok state)
    (completion : CompletionRecord) (admission : AttemptAdmission) (operationId : OperationId)
    (completed : state.completions[completion.taskId]? = some completion)
    (admitted : state.admissions[completion.attemptId]? = some admission)
    (through : admission.operationId = some operationId) :
    state.operationForTask completion.taskId = some operationId ∧
      (∃ outcome, state.outcomes[completion.attemptId]? = some outcome ∧
        outcome.outcome = .succeeded) ∧
      ((∀ later, state.latestDispatch operationId = some later →
          later.attemptId = completion.attemptId) →
        state.effectState operationId = .outcomeKnown .succeeded) := by
  have lineage := DurableRunState.lineage_of_reachable
    (InMemoryDurableStore.reachable_of_calls sequence loaded)
  obtain ⟨held, admitted', sameTask, effects⟩ :=
    lineage.completed completion (lineage.completions.mem_of_lookup completed)
  rw [admitted] at admitted'
  cases admitted'
  have effect := effects operationId through
  have owned := lineage.operationForTask admitted sameTask effect
  refine ⟨owned, effect.2, fun unchallenged => ?_⟩
  obtain ⟨intent, prepared, _⟩ := (lineage.inverse _ _).mp owned
  obtain ⟨⟨dispatch, sent, sameOperation⟩, _⟩ := effect
  -- The completing attempt's own dispatch shows that the operation has a latest one.
  have some_dispatch : dispatch ∈ state.dispatchesOf operationId :=
    List.mem_filter.mpr ⟨lineage.dispatches.mem_of_lookup sent, decide_eq_true sameOperation⟩
  obtain ⟨latest, last⟩ : ∃ latest, state.latestDispatch operationId = some latest := by
    unfold DurableRunState.latestDispatch
    exact ⟨_, List.getLast?_eq_some_getLast (List.ne_nil_of_mem some_dispatch)⟩
  exact (effects operationId through).effectState (mem_of_lookup prepared) last
    (unchallenged latest last)

theorem completed_operation_sample :
    let _ := Persisted.postcard
    ∃ state, InMemoryDurableStore.loadRun sampleRun
        (DurableStore.calls sampleCompletion InMemoryDurableStore.new).2 = .ok state ∧
      state.effectState sampleOperation = .outcomeKnown .succeeded := by
  intro _
  obtain ⟨state, loaded, holds⟩ := exists_ok_of_any
    (show ((InMemoryDurableStore.loadRun sampleRun
      (DurableStore.calls sampleCompletion InMemoryDurableStore.new).2).toOption.any fun state =>
        state.completions[sampleTask]? = some ⟨sampleTask, sampleAttempt⟩ ∧
        state.admissions[sampleAttempt]? =
          some ⟨sampleRun, sampleTask, sampleAttempt, some sampleOperation, []⟩ ∧
        state.latestDispatch sampleOperation = some ⟨sampleOperation, sampleAttempt⟩) = true by
      decide +kernel)
  obtain ⟨completed, admitted, latest⟩ := of_decide_eq_true holds
  refine ⟨state, loaded, (completed_operation sampleCompletion sampleRun state loaded
    ⟨sampleTask, sampleAttempt⟩ _ sampleOperation completed admitted rfl).2.2 ?_⟩
  intro later last
  rw [latest] at last
  cases last
  rfl

/-- The sample task completed without an operation, and given one afterwards. -/
def sampleLateIntent : List StoreCall :=
  [.createRun sampleRun, .commit ⟨sampleRun, 0, ⟨"all".toList, by decide⟩,
    [.admitAttempt ⟨sampleRun, sampleTask, sampleAttempt, none, []⟩,
      .recordCompletion ⟨sampleTask, sampleAttempt⟩,
      .recordIntent ⟨sampleTask, sampleOperation, .nonIdempotent⟩]⟩]

/-- The sample task completed through its operation, which is dispatched again afterwards. -/
def sampleLateDispatch : List StoreCall :=
  let again : AttemptId := ⟨⟨"run-attempt-2".toList, by decide⟩⟩
  sampleCompletion ++ [.commit ⟨sampleRun, 1, ⟨"again".toList, by decide⟩,
    [.admitAttempt ⟨sampleRun, sampleTask, again, some sampleOperation, []⟩,
      .recordDispatch ⟨sampleOperation, again⟩]⟩]

/-- A completed task may own an operation that is only prepared, and the operation a task was
completed through may be dispatched again. -/
theorem completion_not_final :
    let _ := Persisted.postcard
    (¬ ∀ (sequence : List StoreCall) (runId : RunId) (state : DurableRunState) (taskId : Id)
        (operationId : OperationId),
      InMemoryDurableStore.loadRun runId
        (DurableStore.calls sequence InMemoryDurableStore.new).2 = .ok state →
      taskId ∈ state.completions →
      state.operationForTask taskId = some operationId →
      state.effectState operationId = .outcomeKnown .succeeded) ∧
    ∃ state, InMemoryDurableStore.loadRun sampleRun
        (DurableStore.calls sampleLateDispatch InMemoryDurableStore.new).2 = .ok state ∧
      state.completions[sampleTask]? = some ⟨sampleTask, sampleAttempt⟩ ∧
      state.admissions[sampleAttempt]?.bind AttemptAdmission.operationId = some sampleOperation ∧
      state.effectState sampleOperation = .outcomeUnknown := by
  intro _
  constructor
  · intro final
    obtain ⟨state, loaded, holds⟩ := exists_ok_of_any
      (show ((InMemoryDurableStore.loadRun sampleRun
        (DurableStore.calls sampleLateIntent InMemoryDurableStore.new).2).toOption.any fun state =>
          sampleTask ∈ state.completions ∧
          state.operationForTask sampleTask = some sampleOperation ∧
          state.effectState sampleOperation = .prepared) = true by
        decide +kernel)
    obtain ⟨completed, owned, prepared⟩ := of_decide_eq_true holds
    have succeeded := final sampleLateIntent sampleRun state sampleTask sampleOperation loaded
      completed owned
    rw [prepared] at succeeded
    cases succeeded
  · obtain ⟨state, loaded, holds⟩ := exists_ok_of_any
      (show ((InMemoryDurableStore.loadRun sampleRun
        (DurableStore.calls sampleLateDispatch InMemoryDurableStore.new).2).toOption.any
          fun state =>
          state.completions[sampleTask]? = some ⟨sampleTask, sampleAttempt⟩ ∧
          state.admissions[sampleAttempt]?.bind AttemptAdmission.operationId =
            some sampleOperation ∧
          state.effectState sampleOperation = .outcomeUnknown) = true by
        decide +kernel)
    exact ⟨state, loaded, of_decide_eq_true holds⟩

end Kernis
