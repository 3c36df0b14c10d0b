/-
**What an accepted mutation does.**

`Accepted state mutation next` lists, for every mutation, the facts the validator checked and the
one change it made; `accepted_iff` says that it is exactly `applyMutation`. Everything proved about
durable states below goes through this relation, never through the validator's code.

`applyMutations_preserves` is the induction rule for a batch; `SameHead` is what no mutation touches.
-/

import Kernis.Recovery.Durable

namespace Kernis

open Std

namespace DurableRunState

/-- The attempt is the latest dispatch of its prepared operation and its outcome is a success. -/
structure EffectSucceeded (state : DurableRunState) (attemptId : AttemptId)
    (operationId : OperationId) : Prop where
  intent : operationId ∈ state.intents
  dispatched : ∃ dispatch, state.dispatches[attemptId]? = some dispatch ∧
    dispatch.operationId = operationId
  latest : ∃ dispatch, state.latestDispatch operationId = some dispatch ∧
    dispatch.attemptId = attemptId
  succeeded : ∃ outcome, state.outcomes[attemptId]? = some outcome ∧ outcome.outcome = .succeeded

/-- **An accepted mutation: what held before it, and the state it leaves.** -/
inductive Accepted (state : DurableRunState) : DurableMutation → DurableRunState → Prop
  | identity (identity : WorkflowReplayIdentity) :
      Accepted state (.recordWorkflowReplayIdentity identity)
        { state with workflowReplayIdentity := some identity }
  | admission (admission : AttemptAdmission) :
      admission.runId = state.runId →
      admission.attemptId ∉ state.admissions →
      Accepted state (.admitAttempt admission)
        { state with
          admissions := state.admissions.insert admission.attemptId admission
          admissionHistory := state.admissionHistory ++ [admission] }
  | intentKnown (intent : EffectIntent) :
      state.intents[intent.operationId]? = some intent →
      Accepted state (.recordIntent intent) state
  | intent (intent : EffectIntent) :
      intent.operationId ∉ state.intents →
      intent.taskId ∉ state.taskOperations →
      Accepted state (.recordIntent intent)
        { state with
          taskOperations := state.taskOperations.insert intent.taskId intent.operationId
          intents := state.intents.insert intent.operationId intent }
  | cancellationKnown (cancellation : CancellationRecord) :
      cancellation.runId = state.runId →
      state.cancellations[cancellation.taskId]? = some cancellation →
      Accepted state (.recordCancellation cancellation) state
  | cancellation (cancellation : CancellationRecord) :
      cancellation.runId = state.runId →
      cancellation.taskId ∉ state.cancellations →
      (∀ operationId, cancellation.operationId = some operationId →
        state.taskOperations[cancellation.taskId]? = some operationId) →
      (∀ attemptId, cancellation.attemptId = some attemptId →
        ∃ admission, state.admissions[attemptId]? = some admission ∧
          admission.taskId = cancellation.taskId ∧
          admission.operationId = cancellation.operationId) →
      Accepted state (.recordCancellation cancellation)
        { state with
          cancellations := state.cancellations.insert cancellation.taskId cancellation }
  | dispatch (dispatch : DispatchRecord) (intent : EffectIntent) (admission : AttemptAdmission) :
      state.intents[dispatch.operationId]? = some intent →
      state.admissions[dispatch.attemptId]? = some admission →
      admission.operationId = some dispatch.operationId →
      intent.taskId = admission.taskId →
      admission.taskId ∉ state.cancellations →
      dispatch.attemptId ∉ state.dispatches →
      Accepted state (.recordDispatch dispatch)
        { state with
          dispatches := state.dispatches.insert dispatch.attemptId dispatch
          dispatchHistory := state.dispatchHistory ++ [dispatch] }
  | outcomeKnown (outcome existing : OutcomeRecord) (admission : AttemptAdmission)
      (dispatch : DispatchRecord) :
      state.admissions[outcome.attemptId]? = some admission →
      state.dispatches[outcome.attemptId]? = some dispatch →
      dispatch.operationId = outcome.operationId →
      admission.operationId = some outcome.operationId →
      state.outcomes[outcome.attemptId]? = some existing →
      existing.outcome = outcome.outcome →
      Accepted state (.recordOutcome outcome) state
  | outcome (outcome : OutcomeRecord) (admission : AttemptAdmission) (dispatch : DispatchRecord) :
      state.admissions[outcome.attemptId]? = some admission →
      state.dispatches[outcome.attemptId]? = some dispatch →
      dispatch.operationId = outcome.operationId →
      admission.operationId = some outcome.operationId →
      outcome.attemptId ∉ state.outcomes →
      Accepted state (.recordOutcome outcome)
        { state with
          outcomes := state.outcomes.insert outcome.attemptId outcome
          outcomeHistory := state.outcomeHistory ++ [outcome] }
  | completionKnown (completion : CompletionRecord) (admission : AttemptAdmission) :
      state.admissions[completion.attemptId]? = some admission →
      admission.taskId = completion.taskId →
      (∀ operationId, admission.operationId = some operationId →
        state.EffectSucceeded completion.attemptId operationId) →
      state.completions[completion.taskId]? = some completion →
      Accepted state (.recordCompletion completion) state
  | completion (completion : CompletionRecord) (admission : AttemptAdmission) :
      state.admissions[completion.attemptId]? = some admission →
      admission.taskId = completion.taskId →
      (∀ operationId, admission.operationId = some operationId →
        state.EffectSucceeded completion.attemptId operationId) →
      completion.taskId ∉ state.completions →
      Accepted state (.recordCompletion completion)
        { state with
          completions := state.completions.insert completion.taskId completion
          completionHistory := state.completionHistory ++ [completion] }

/-! ### The validator accepts exactly these -/

section Iff

variable {state next : DurableRunState}

theorem recordIdentity_iff {identity : WorkflowReplayIdentity} :
    state.recordWorkflowReplayIdentity identity = .ok next ↔
      Accepted state (.recordWorkflowReplayIdentity identity) next := by
  unfold recordWorkflowReplayIdentity
  rw [if_neg (by rw [identity.text.property]; decide)]
  constructor
  · rintro ⟨⟩
    exact .identity identity
  · rintro ⟨⟩
    rfl

theorem admitAttempt_iff {admission : AttemptAdmission} :
    state.admitAttempt admission = .ok next ↔ Accepted state (.admitAttempt admission) next := by
  unfold admitAttempt violation
  constructor
  · intro accepted
    split at accepted
    · cases accepted
    · split at accepted
      · cases accepted
      · cases accepted
        exact .admission admission (not_not.mp ‹_›) ‹_›
  · intro accepted
    cases accepted with
    | admission _ sameRun fresh => rw [if_neg (not_not.mpr sameRun), if_neg fresh]

theorem recordIntent_iff {intent : EffectIntent} :
    state.recordIntent intent = .ok next ↔ Accepted state (.recordIntent intent) next := by
  unfold recordIntent violation
  constructor
  · intro accepted
    split at accepted
    · split at accepted
      · cases accepted
        subst_vars
        exact .intentKnown _ ‹_›
      · cases accepted
    · split at accepted
      · cases accepted
      · cases accepted
        rename_i noIntent _ noOwner
        exact .intent intent (not_mem_of_lookup_none noIntent)
          (not_mem_of_lookup_none noOwner)
  · intro accepted
    cases accepted with
    | intentKnown _ known => rw [known]; exact if_pos rfl
    | intent _ noIntent noOwner =>
      rw [lookup_none_of_not_mem noIntent, lookup_none_of_not_mem noOwner]

theorem cancelsForeignOperation_iff {cancellation : CancellationRecord} :
    state.cancelsForeignOperation cancellation = false ↔
      ∀ operationId, cancellation.operationId = some operationId →
        state.taskOperations[cancellation.taskId]? = some operationId := by
  unfold cancelsForeignOperation
  cases cancellation.operationId with
  | none => simp
  | some operationId => simp

theorem cancelsForeignAttempt_iff {cancellation : CancellationRecord} :
    state.cancelsForeignAttempt cancellation = false ↔
      ∀ attemptId, cancellation.attemptId = some attemptId →
        ∃ admission, state.admissions[attemptId]? = some admission ∧
          admission.taskId = cancellation.taskId ∧
          admission.operationId = cancellation.operationId := by
  unfold cancelsForeignAttempt
  cases cancellation.attemptId with
  | none => simp
  | some attemptId =>
    cases found : state.admissions[attemptId]? with
    | none => simp [found]
    | some admission => simp [found]

theorem recordCancellation_iff {cancellation : CancellationRecord} :
    state.recordCancellation cancellation = .ok next ↔
      Accepted state (.recordCancellation cancellation) next := by
  unfold recordCancellation violation
  constructor
  · intro accepted
    split at accepted
    · cases accepted
    · rename_i sameRun
      split at accepted
      · split at accepted
        · cases accepted
          subst_vars
          exact .cancellationKnown _ (not_not.mp sameRun) ‹_›
        · cases accepted
      · split at accepted
        · cases accepted
        · split at accepted
          · cases accepted
          · cases accepted
            rename_i noCancellation ownOperation ownAttempt
            exact .cancellation cancellation (not_not.mp sameRun)
              (not_mem_of_lookup_none noCancellation)
              (cancelsForeignOperation_iff.mp (Bool.eq_false_iff.mpr ownOperation))
              (cancelsForeignAttempt_iff.mp (Bool.eq_false_iff.mpr ownAttempt))
  · intro accepted
    cases accepted with
    | cancellationKnown _ sameRun known =>
      rw [if_neg (not_not.mpr sameRun), known]
      exact if_pos rfl
    | cancellation _ sameRun fresh ownOperation ownAttempt =>
      rw [if_neg (not_not.mpr sameRun), lookup_none_of_not_mem fresh]
      simp only [cancelsForeignOperation_iff.mpr ownOperation,
        cancelsForeignAttempt_iff.mpr ownAttempt, Bool.false_eq_true, if_false]

theorem recordDispatch_iff {dispatch : DispatchRecord} :
    state.recordDispatch dispatch = .ok next ↔
      Accepted state (.recordDispatch dispatch) next := by
  unfold recordDispatch violation
  constructor
  · intro accepted
    split at accepted
    · cases accepted
    · split at accepted
      · cases accepted
      · split at accepted
        · cases accepted
        · split at accepted
          · cases accepted
          · split at accepted
            · cases accepted
            · split at accepted
              · cases accepted
              · cases accepted
                rename_i intent prepared _ admission admitted sameOperation sameTask fenced fresh
                exact .dispatch dispatch intent admission prepared admitted
                  (not_not.mp sameOperation) (not_not.mp sameTask)
                  (fun cancelled => fenced ⟨cancelled, fresh⟩) fresh
  · intro accepted
    cases accepted with
    | dispatch _ intent admission prepared admitted sameOperation sameTask live fresh =>
      rw [prepared, admitted]
      simp only [sameOperation, sameTask, ne_eq, not_true_eq_false, if_false, live, fresh,
        false_and]

theorem recordOutcome_iff {outcome : OutcomeRecord} :
    state.recordOutcome outcome = .ok next ↔ Accepted state (.recordOutcome outcome) next := by
  unfold recordOutcome violation
  constructor
  · intro accepted
    split at accepted
    · cases accepted
    · split at accepted
      · cases accepted
      · split at accepted
        · cases accepted
        · rename_i admission admitted _ dispatch dispatched lineage
          rw [not_or, not_not, not_not] at lineage
          split at accepted
          · split at accepted
            · cases accepted
              rename_i existing known same
              exact .outcomeKnown outcome existing admission dispatch admitted dispatched lineage.1
                lineage.2 known same
            · cases accepted
          · cases accepted
            rename_i unknown
            exact .outcome outcome admission dispatch admitted dispatched lineage.1 lineage.2
              (not_mem_of_lookup_none unknown)
  · intro accepted
    cases accepted with
    | outcomeKnown _ existing admission dispatch admitted dispatched first second known same =>
      rw [admitted, dispatched]
      simp only [first, second, ne_eq, not_true_eq_false, or_self, if_false, known, same, if_true]
    | outcome _ admission dispatch admitted dispatched first second fresh =>
      rw [admitted, dispatched]
      simp only [first, second, ne_eq, not_true_eq_false, or_self, if_false,
        lookup_none_of_not_mem fresh]

theorem checkEffectCompletion_iff {completion : CompletionRecord} {operationId : OperationId} :
    state.checkEffectCompletion completion operationId = .ok () ↔
      state.EffectSucceeded completion.attemptId operationId := by
  unfold checkEffectCompletion violation
  constructor
  · intro accepted
    split at accepted
    · cases accepted
    · rename_i prepared
      split at accepted
      · cases accepted
      · rename_i dispatched
        split at accepted
        · cases accepted
        · rename_i latest
          split at accepted
          · cases accepted
          · rename_i succeeded
            refine ⟨not_not.mp prepared, ?_, ?_, ?_⟩
            · cases found : state.dispatches[completion.attemptId]? with
              | none => rw [found] at dispatched; exact absurd rfl dispatched
              | some dispatch => exact ⟨dispatch, rfl, by simpa [found] using dispatched⟩
            · cases found : state.latestDispatch operationId with
              | none => rw [found] at latest; exact absurd rfl latest
              | some dispatch => exact ⟨dispatch, rfl, by simpa [found] using latest⟩
            · cases found : state.outcomes[completion.attemptId]? with
              | none => simp [found] at succeeded
              | some outcome => exact ⟨outcome, rfl, by simpa [found] using succeeded⟩
  · rintro ⟨prepared, ⟨dispatch, dispatched, sameOperation⟩, ⟨last, latest, sameAttempt⟩,
      outcome, known, succeeded⟩
    simp [prepared, dispatched, sameOperation, latest, sameAttempt, known, succeeded]

theorem insertCompletion_iff {completion : CompletionRecord} :
    state.insertCompletion completion = .ok next ↔
      (state.completions[completion.taskId]? = some completion ∧ next = state) ∨
      (completion.taskId ∉ state.completions ∧
        next = { state with
          completions := state.completions.insert completion.taskId completion
          completionHistory := state.completionHistory ++ [completion] }) := by
  unfold insertCompletion violation
  constructor
  · intro accepted
    split at accepted
    · split at accepted
      · cases accepted
        subst_vars
        exact .inl ⟨‹_›, rfl⟩
      · cases accepted
    · cases accepted
      exact .inr ⟨not_mem_of_lookup_none ‹_›, rfl⟩
  · rintro (⟨known, rfl⟩ | ⟨fresh, rfl⟩)
    · rw [known]
      exact if_pos rfl
    · rw [lookup_none_of_not_mem fresh]

theorem recordCompletion_iff {completion : CompletionRecord} :
    state.recordCompletion completion = .ok next ↔
      Accepted state (.recordCompletion completion) next := by
  unfold recordCompletion violation
  constructor
  · intro accepted
    split at accepted
    · cases accepted
    · rename_i admission admitted
      split at accepted
      · cases accepted
      · rename_i sameTask
        have effect : (∀ operationId, admission.operationId = some operationId →
            state.EffectSucceeded completion.attemptId operationId) ∧
            state.insertCompletion completion = .ok next := by
          split at accepted
          · rename_i plain
            exact ⟨fun operationId own => absurd own (by rw [plain]; simp), accepted⟩
          · rename_i operationId own
            split at accepted
            · cases accepted
            · rename_i checked
              refine ⟨fun other same => ?_, accepted⟩
              rw [own] at same
              cases same
              exact checkEffectCompletion_iff.mp checked
        rcases insertCompletion_iff.mp effect.2 with ⟨known, rfl⟩ | ⟨fresh, rfl⟩
        · exact .completionKnown completion admission admitted (not_not.mp sameTask) effect.1 known
        · exact .completion completion admission admitted (not_not.mp sameTask) effect.1 fresh
  · intro accepted
    cases accepted with
    | completionKnown _ admission admitted sameTask effect known =>
      rw [admitted]
      simp only [sameTask, ne_eq, not_true_eq_false, if_false]
      split
      · exact insertCompletion_iff.mpr (.inl ⟨known, rfl⟩)
      · rename_i operationId own
        rw [checkEffectCompletion_iff.mpr (effect operationId own)]
        exact insertCompletion_iff.mpr (.inl ⟨known, rfl⟩)
    | completion _ admission admitted sameTask effect fresh =>
      rw [admitted]
      simp only [sameTask, ne_eq, not_true_eq_false, if_false]
      split
      · exact insertCompletion_iff.mpr (.inr ⟨fresh, rfl⟩)
      · rename_i operationId own
        rw [checkEffectCompletion_iff.mpr (effect operationId own)]
        exact insertCompletion_iff.mpr (.inr ⟨fresh, rfl⟩)

/-- **The validator accepts a mutation exactly when its lineage facts hold, and then makes exactly
its one change.** -/
theorem accepted_iff {mutation : DurableMutation} :
    state.applyMutation mutation = .ok next ↔ Accepted state mutation next := by
  cases mutation with
  | recordWorkflowReplayIdentity identity => exact recordIdentity_iff
  | admitAttempt admission => exact admitAttempt_iff
  | recordIntent intent => exact recordIntent_iff
  | recordCancellation cancellation => exact recordCancellation_iff
  | recordDispatch dispatch => exact recordDispatch_iff
  | recordOutcome outcome => exact recordOutcome_iff
  | recordCompletion completion => exact recordCompletion_iff

end Iff

/-! ### Rejections -/

theorem kind_of_checkEffectCompletion_error {state : DurableRunState}
    {completion : CompletionRecord} {operationId : OperationId} {error : StoreError}
    (rejected : state.checkEffectCompletion completion operationId = .error error) :
    error.kind = .domain := by
  unfold checkEffectCompletion violation at rejected
  repeat' split at rejected
  all_goals cases rejected
  all_goals rfl

/-- **A rejected mutation is a domain error.** -/
theorem kind_of_applyMutation_error {state : DurableRunState} {mutation : DurableMutation}
    {error : StoreError} (rejected : state.applyMutation mutation = .error error) :
    error.kind = .domain := by
  cases mutation with
  | recordWorkflowReplayIdentity identity =>
    rw [applyMutation] at rejected
    unfold recordWorkflowReplayIdentity at rejected
    split at rejected <;> cases rejected
    rfl
  | admitAttempt admission =>
    rw [applyMutation] at rejected
    unfold admitAttempt violation at rejected
    repeat' split at rejected
    all_goals cases rejected
    all_goals rfl
  | recordIntent intent =>
    rw [applyMutation] at rejected
    unfold recordIntent violation at rejected
    repeat' split at rejected
    all_goals cases rejected
    all_goals rfl
  | recordCancellation cancellation =>
    rw [applyMutation] at rejected
    unfold recordCancellation violation at rejected
    repeat' split at rejected
    all_goals cases rejected
    all_goals rfl
  | recordDispatch dispatch =>
    rw [applyMutation] at rejected
    unfold recordDispatch violation at rejected
    repeat' split at rejected
    all_goals cases rejected
    all_goals rfl
  | recordOutcome outcome =>
    rw [applyMutation] at rejected
    unfold recordOutcome violation at rejected
    repeat' split at rejected
    all_goals cases rejected
    all_goals rfl
  | recordCompletion completion =>
    have inserted : ∀ {error}, state.insertCompletion completion = .error error →
        error.kind = .domain := by
      intro error rejected
      unfold insertCompletion violation at rejected
      repeat' split at rejected
      all_goals cases rejected
      all_goals rfl
    rw [applyMutation] at rejected
    unfold recordCompletion violation at rejected
    split at rejected
    · cases rejected
      rfl
    · split at rejected
      · cases rejected
        rfl
      · split at rejected
        · exact inserted rejected
        · split at rejected
          · cases rejected
            exact kind_of_checkEffectCompletion_error ‹_›
          · exact inserted rejected

theorem kind_of_applyMutations_error {state : DurableRunState} {mutations : List DurableMutation}
    {error : StoreError} (rejected : state.applyMutations mutations = .error error) :
    error.kind = .domain := by
  induction mutations generalizing state with
  | nil => cases rejected
  | cons mutation rest ih =>
    unfold applyMutations at rejected
    split at rejected
    · cases rejected
      exact kind_of_applyMutation_error ‹_›
    · exact ih rejected

/-! ### Batches -/

section Batches

variable {state next : DurableRunState} {mutation : DurableMutation}

/-- A mutation changes facts only: never the run, the revision, the ledger or the key index. -/
structure SameHead (state next : DurableRunState) : Prop where
  runId : next.runId = state.runId
  revision : next.revision = state.revision
  commitLedger : next.commitLedger = state.commitLedger
  idempotency : next.idempotency = state.idempotency

theorem SameHead.refl (state : DurableRunState) : SameHead state state := ⟨rfl, rfl, rfl, rfl⟩

theorem SameHead.trans {first second third : DurableRunState} (left : SameHead first second)
    (right : SameHead second third) : SameHead first third :=
  ⟨right.runId.trans left.runId, right.revision.trans left.revision,
    right.commitLedger.trans left.commitLedger, right.idempotency.trans left.idempotency⟩

theorem Accepted.sameHead (accepted : Accepted state mutation next) : SameHead state next := by
  cases accepted <;> exact ⟨rfl, rfl, rfl, rfl⟩

/-- **Batch induction.** What one accepted mutation preserves, an accepted batch preserves. -/
theorem applyMutations_preserves {Inv : DurableRunState → Prop}
    (step : ∀ {state mutation next}, Accepted state mutation next → Inv state → Inv next)
    {mutations : List DurableMutation} (accepted : state.applyMutations mutations = .ok next)
    (before : Inv state) : Inv next := by
  induction mutations generalizing state with
  | nil =>
    cases accepted
    exact before
  | cons mutation rest ih =>
    unfold applyMutations at accepted
    split at accepted
    · cases accepted
    · rename_i middle first
      exact ih accepted (step (accepted_iff.mp first) before)

theorem sameHead_of_applyMutations {mutations : List DurableMutation}
    (accepted : state.applyMutations mutations = .ok next) : SameHead state next :=
  applyMutations_preserves (fun one before => before.trans one.sameHead) accepted (.refl state)

theorem applyMutations_singleton :
    state.applyMutations [mutation] = .ok next ↔ Accepted state mutation next := by
  rw [← accepted_iff]
  cases applied : state.applyMutation mutation with
  | error error => simp [applyMutations, applied]
  | ok middle => simp [applyMutations, applied]

/-- Setting the key index, which the validator never reads. -/
def withIdempotency (state : DurableRunState)
    (index : BTreeMap IdempotencyKey (List DurableMutation × Nat)) : DurableRunState :=
  { state with idempotency := index }

theorem EffectSucceeded.withIdempotency {attemptId : AttemptId} {operationId : OperationId}
    (succeeded : state.EffectSucceeded attemptId operationId)
    (index : BTreeMap IdempotencyKey (List DurableMutation × Nat)) :
    (state.withIdempotency index).EffectSucceeded attemptId operationId :=
  ⟨succeeded.intent, succeeded.dispatched, succeeded.latest, succeeded.succeeded⟩

theorem Accepted.withIdempotency (accepted : Accepted state mutation next)
    (index : BTreeMap IdempotencyKey (List DurableMutation × Nat)) :
    Accepted (state.withIdempotency index) mutation (next.withIdempotency index) := by
  cases accepted with
  | identity identity => exact .identity identity
  | admission admission sameRun fresh => exact .admission admission sameRun fresh
  | intentKnown intent known => exact .intentKnown intent known
  | intent intent noIntent noOwner => exact .intent intent noIntent noOwner
  | cancellationKnown cancellation sameRun known =>
    exact .cancellationKnown cancellation sameRun known
  | cancellation cancellation sameRun fresh ownOperation ownAttempt =>
    exact .cancellation cancellation sameRun fresh ownOperation ownAttempt
  | dispatch dispatch intent admission prepared admitted sameOperation sameTask live fresh =>
    exact .dispatch dispatch intent admission prepared admitted sameOperation sameTask live fresh
  | outcomeKnown outcome existing admission dispatch admitted dispatched first second known same =>
    exact .outcomeKnown outcome existing admission dispatch admitted dispatched first second known
      same
  | outcome outcome admission dispatch admitted dispatched first second fresh =>
    exact .outcome outcome admission dispatch admitted dispatched first second fresh
  | completionKnown completion admission admitted sameTask effect known =>
    exact .completionKnown completion admission admitted sameTask
      (fun operationId own => (effect operationId own).withIdempotency index) known
  | completion completion admission admitted sameTask effect fresh =>
    exact .completion completion admission admitted sameTask
      (fun operationId own => (effect operationId own).withIdempotency index) fresh

/-- The key index may be set before a batch or after it. -/
theorem applyMutations_withIdempotency {mutations : List DurableMutation}
    (accepted : state.applyMutations mutations = .ok next)
    (index : BTreeMap IdempotencyKey (List DurableMutation × Nat)) :
    (state.withIdempotency index).applyMutations mutations = .ok (next.withIdempotency index) := by
  induction mutations generalizing state with
  | nil =>
    cases accepted
    rfl
  | cons mutation rest ih =>
    unfold applyMutations at accepted ⊢
    split at accepted
    · cases accepted
    · rename_i middle first
      rw [accepted_iff.mpr ((accepted_iff.mp first).withIdempotency index)]
      exact ih accepted

end Batches

end DurableRunState

end Kernis
