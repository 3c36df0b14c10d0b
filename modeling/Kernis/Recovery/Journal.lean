/-
**The durable journal: the process-local view of a run's effect facts.**

* `DurableJournal` — intents, dispatches by attempt, attempts by operation, outcomes.
* `DurableRunState.journal` — the journal that a durable state determines.
* `persistIntent_journal`, `persistDispatch_journal`, `persistOutcome_journal` — what the journal
  accepts, and that accepting a fact and viewing the state with that fact is the same.
* `fromDurableState_eq` — rebuilding the journal from a durable state gives this view.
-/

import Kernis.Recovery.Lineage

namespace Kernis

open Std

/-- Error returned when a journal mutation would create malformed facts. -/
inductive JournalError
  | unknownOperation (operationId : OperationId)
  | duplicateIntent (operationId : OperationId)
  | dispatchWithoutIntent (operationId : OperationId)
  | taskOperationConflict (taskId : Id) (existingOperation attemptedOperation : OperationId)
  | duplicateAttempt (operationId : OperationId) (attemptId : AttemptId)
  | outcomeWithoutDispatch (operationId : OperationId) (attemptId : AttemptId)
  | attemptMismatch (operationId : OperationId) (attemptId : AttemptId) (dispatchedFor : OperationId)
  | conflictingOutcome (operationId : OperationId) (attemptId : AttemptId)
      (existing attempted : KnownEffectOutcome)
deriving DecidableEq

/-- Deterministic in-memory representation of durable local recovery facts. -/
structure DurableJournal where
  intents : BTreeMap OperationId EffectIntent
  taskOperations : BTreeMap Id OperationId
  dispatches : BTreeMap AttemptId DispatchRecord
  operationAttempts : BTreeMap OperationId (List AttemptId)
  outcomes : BTreeMap AttemptId OutcomeRecord
deriving DecidableEq

namespace DurableJournal

/-- An empty journal. -/
def new : DurableJournal := ⟨∅, ∅, ∅, ∅, ∅⟩

/-- Persists one effect intent before any dispatch is allowed. -/
def persistIntent (journal : DurableJournal) (intent : EffectIntent) :
    Except JournalError DurableJournal :=
  if intent.operationId ∈ journal.intents then .error (.duplicateIntent intent.operationId)
  else
    match journal.taskOperations[intent.taskId]? with
    | some existing =>
      .error (.taskOperationConflict intent.taskId existing intent.operationId)
    | none => .ok { journal with
        taskOperations := journal.taskOperations.insert intent.taskId intent.operationId
        intents := journal.intents.insert intent.operationId intent }

/-- Appends an attempt to the attempts of its operation. -/
def pushAttempt (attempts : BTreeMap OperationId (List AttemptId)) (dispatch : DispatchRecord) :
    BTreeMap OperationId (List AttemptId) :=
  attempts.insert dispatch.operationId
    ((attempts[dispatch.operationId]?).getD [] ++ [dispatch.attemptId])

/-- Persists the dispatch boundary for one transport attempt. -/
def persistDispatch (journal : DurableJournal) (dispatch : DispatchRecord) :
    Except JournalError DurableJournal :=
  if dispatch.operationId ∉ journal.intents then
    .error (.dispatchWithoutIntent dispatch.operationId)
  else if dispatch.attemptId ∈ journal.dispatches then
    .error (.duplicateAttempt dispatch.operationId dispatch.attemptId)
  else .ok { journal with
    operationAttempts := pushAttempt journal.operationAttempts dispatch
    dispatches := journal.dispatches.insert dispatch.attemptId dispatch }

/-- Persists a known external outcome for a dispatched attempt. -/
def persistOutcome (journal : DurableJournal) (outcome : OutcomeRecord) :
    Except JournalError DurableJournal :=
  if outcome.operationId ∉ journal.intents then .error (.unknownOperation outcome.operationId)
  else
    match journal.dispatches[outcome.attemptId]? with
    | none => .error (.outcomeWithoutDispatch outcome.operationId outcome.attemptId)
    | some dispatch =>
      if dispatch.operationId ≠ outcome.operationId then
        .error (.attemptMismatch outcome.operationId outcome.attemptId dispatch.operationId)
      else
        match journal.outcomes[outcome.attemptId]? with
        | some existing =>
          if existing.outcome = outcome.outcome then .ok journal
          else .error (.conflictingOutcome outcome.operationId outcome.attemptId existing.outcome
            outcome.outcome)
        | none => .ok { journal with
            outcomes := journal.outcomes.insert outcome.attemptId outcome }

/-- The intent for an operation. -/
def intent (journal : DurableJournal) (operationId : OperationId) :
    Except JournalError EffectIntent :=
  match journal.intents[operationId]? with
  | none => .error (.unknownOperation operationId)
  | some intent => .ok intent

/-- The logical operation owned by a workflow task, if any. -/
def operationForTask (journal : DurableJournal) (taskId : Id) : Option OperationId :=
  journal.taskOperations[taskId]?

/-- The most recently dispatched attempt of an operation. -/
def latestAttempt (journal : DurableJournal) (operationId : OperationId) : Option AttemptId :=
  (journal.operationAttempts[operationId]?).bind List.getLast?

/-- The most recently persisted dispatch for an operation. -/
def latestDispatch (journal : DurableJournal) (operationId : OperationId) :
    Option DispatchRecord :=
  (journal.latestAttempt operationId).bind fun attemptId => journal.dispatches[attemptId]?

/-- The known outcome for the most recent dispatch, if it has been checkpointed. -/
def knownOutcome (journal : DurableJournal) (operationId : OperationId) : Option OutcomeRecord :=
  (journal.latestAttempt operationId).bind fun attemptId => journal.outcomes[attemptId]?

/-- Derives local recovery knowledge from durable facts only. -/
def state (journal : DurableJournal) (operationId : OperationId) : RecoveredEffectState :=
  if operationId ∉ journal.intents then .notPrepared
  else
    match journal.knownOutcome operationId with
    | some outcome => .outcomeKnown outcome.outcome
    | none => if (journal.latestDispatch operationId).isSome then .outcomeUnknown else .prepared

/-- All operation identities in deterministic order. -/
def operationIds (journal : DurableJournal) : List OperationId := journal.intents.keys

/-- Reconstructs the journal from detached durable state. -/
def fromDurableState (state : DurableRunState) : Except JournalError DurableJournal := do
  let journal ← (valuesOf state.intents).foldlM persistIntent new
  let journal ← state.dispatchHistory.foldlM persistDispatch journal
  state.outcomeHistory.foldlM persistOutcome journal

/-! ### What the journal accepts -/

theorem persistIntent_ok {journal next : DurableJournal} {intent : EffectIntent}
    (persisted : journal.persistIntent intent = .ok next) :
    intent.operationId ∉ journal.intents ∧ intent.taskId ∉ journal.taskOperations ∧
      next = { journal with
        taskOperations := journal.taskOperations.insert intent.taskId intent.operationId
        intents := journal.intents.insert intent.operationId intent } := by
  unfold persistIntent at persisted
  split at persisted
  · cases persisted
  · rename_i unknown
    split at persisted
    · cases persisted
    · rename_i free
      cases persisted
      exact ⟨unknown, not_mem_of_lookup_none free, rfl⟩

theorem persistDispatch_ok {journal next : DurableJournal} {dispatch : DispatchRecord}
    (persisted : journal.persistDispatch dispatch = .ok next) :
    dispatch.operationId ∈ journal.intents ∧ dispatch.attemptId ∉ journal.dispatches ∧
      next = { journal with
        operationAttempts := pushAttempt journal.operationAttempts dispatch
        dispatches := journal.dispatches.insert dispatch.attemptId dispatch } := by
  unfold persistDispatch at persisted
  split at persisted
  · cases persisted
  · rename_i prepared
    split at persisted
    · cases persisted
    · rename_i fresh
      cases persisted
      exact ⟨not_not.mp prepared, fresh, rfl⟩

theorem persistOutcome_ok {journal next : DurableJournal} {outcome : OutcomeRecord}
    (persisted : journal.persistOutcome outcome = .ok next) :
    ∃ dispatch, journal.dispatches[outcome.attemptId]? = some dispatch ∧
      dispatch.operationId = outcome.operationId ∧
      ((∃ existing, journal.outcomes[outcome.attemptId]? = some existing ∧
          existing.outcome = outcome.outcome ∧ next = journal) ∨
        (outcome.attemptId ∉ journal.outcomes ∧
          next = { journal with
            outcomes := journal.outcomes.insert outcome.attemptId outcome })) := by
  unfold persistOutcome at persisted
  split at persisted
  · cases persisted
  · split at persisted
    · cases persisted
    · rename_i dispatch sent
      split at persisted
      · cases persisted
      · rename_i same
        refine ⟨dispatch, sent, not_not.mp same, ?_⟩
        split at persisted
        · rename_i existing known
          split at persisted
          · cases persisted
            exact .inl ⟨existing, known, ‹_›, rfl⟩
          · cases persisted
        · rename_i unknown
          cases persisted
          exact .inr ⟨not_mem_of_lookup_none unknown, rfl⟩

end DurableJournal

/-! ### The journal of a durable state -/

/-- The attempts of every operation, in dispatch order. -/
def attemptsByOperation (history : List DispatchRecord) : BTreeMap OperationId (List AttemptId) :=
  history.foldl DurableJournal.pushAttempt ∅

/-- The journal that a durable state determines. -/
def DurableRunState.journal (state : DurableRunState) : DurableJournal where
  intents := state.intents
  taskOperations := state.taskOperations
  dispatches := state.dispatches
  operationAttempts := attemptsByOperation state.dispatchHistory
  outcomes := state.outcomes

theorem attemptsByOperation_push (history : List DispatchRecord) (dispatch : DispatchRecord) :
    attemptsByOperation (history ++ [dispatch]) =
      DurableJournal.pushAttempt (attemptsByOperation history) dispatch := by
  unfold attemptsByOperation
  rw [List.foldl_append]
  rfl

/-- The attempts of an operation are those of its dispatches. -/
theorem getD_attemptsByOperation (history : List DispatchRecord) (operationId : OperationId) :
    ((attemptsByOperation history)[operationId]?).getD [] =
      (history.filter fun dispatch => dispatch.operationId = operationId).map
        DispatchRecord.attemptId := by
  induction history using List.reverseRecOn with
  | nil => simp [attemptsByOperation]
  | append_singleton history dispatch ih =>
    rw [attemptsByOperation_push, DurableJournal.pushAttempt, lookup_insert, List.filter_append,
      List.map_append, ← ih]
    by_cases same : dispatch.operationId = operationId
    · subst same
      simp
    · simp [same]

namespace DurableRunState

variable {state : DurableRunState}

theorem latestAttempt_journal (state : DurableRunState) (operationId : OperationId) :
    state.journal.latestAttempt operationId =
      (state.latestDispatch operationId).map DispatchRecord.attemptId := by
  have listed := getD_attemptsByOperation state.dispatchHistory operationId
  unfold DurableJournal.latestAttempt DurableRunState.latestDispatch dispatchesOf
  show ((attemptsByOperation state.dispatchHistory)[operationId]?).bind List.getLast? = _
  rw [← List.getLast?_map, ← listed]
  cases (attemptsByOperation state.dispatchHistory)[operationId]? with
  | none => rfl
  | some attempts => rfl

/-- The latest dispatch of an operation is in the dispatch index. -/
theorem Lineage.latestDispatch_lookup (lineage : state.Lineage) {operationId : OperationId}
    {dispatch : DispatchRecord} (latest : state.latestDispatch operationId = some dispatch) :
    state.dispatches[dispatch.attemptId]? = some dispatch ∧
      dispatch.operationId = operationId := by
  have member := List.mem_of_getLast? latest
  obtain ⟨inside, same⟩ := List.mem_filter.mp member
  exact ⟨lineage.dispatches.lookup inside, of_decide_eq_true same⟩

theorem latestDispatch_journal (lineage : state.Lineage) (operationId : OperationId) :
    state.journal.latestDispatch operationId = state.latestDispatch operationId := by
  unfold DurableJournal.latestDispatch
  rw [latestAttempt_journal]
  cases latest : state.latestDispatch operationId with
  | none => rfl
  | some dispatch => exact (lineage.latestDispatch_lookup latest).1

theorem knownOutcome_journal (state : DurableRunState) (operationId : OperationId) :
    state.journal.knownOutcome operationId = state.latestOutcome operationId := by
  unfold DurableJournal.knownOutcome DurableRunState.latestOutcome
  rw [latestAttempt_journal]
  cases state.latestDispatch operationId with
  | none => rfl
  | some dispatch => rfl

/-- **The journal and the store derive the same effect state.** -/
theorem state_journal (lineage : state.Lineage) (operationId : OperationId) :
    state.journal.state operationId = state.effectState operationId := by
  unfold DurableJournal.state DurableRunState.effectState
  rw [knownOutcome_journal, latestDispatch_journal lineage, latestOutcome]
  show (if operationId ∉ state.intents then _ else _) = _
  by_cases prepared : operationId ∈ state.intents
  · rw [if_neg (not_not.mpr prepared), if_neg (not_not.mpr prepared)]
    cases state.latestDispatch operationId with
    | none => rfl
    | some dispatch =>
      rw [Option.bind_some]
      cases known : state.outcomes[dispatch.attemptId]? with
      | none => simp only [known, Option.isSome_some, if_true]
      | some outcome => simp only [known]
  · rw [if_pos prepared, if_pos prepared]

/-! ### Accepting a fact -/

/-- **The journal accepts an intent exactly when the store does not know it**, and then shows the
state with that intent. -/
theorem persistIntent_journal {intent : EffectIntent} {journal : DurableJournal}
    (persisted : state.journal.persistIntent intent = .ok journal) :
    intent.operationId ∉ state.intents ∧ intent.taskId ∉ state.taskOperations ∧
      journal = { state with
        taskOperations := state.taskOperations.insert intent.taskId intent.operationId
        intents := state.intents.insert intent.operationId intent }.journal :=
  DurableJournal.persistIntent_ok persisted

theorem persistDispatch_journal {dispatch : DispatchRecord} {journal : DurableJournal}
    (persisted : state.journal.persistDispatch dispatch = .ok journal) :
    dispatch.operationId ∈ state.intents ∧ dispatch.attemptId ∉ state.dispatches ∧
      journal = { state with
        dispatches := state.dispatches.insert dispatch.attemptId dispatch
        dispatchHistory := state.dispatchHistory ++ [dispatch] }.journal := by
  obtain ⟨prepared, fresh, rfl⟩ := DurableJournal.persistDispatch_ok persisted
  refine ⟨prepared, fresh, ?_⟩
  unfold DurableRunState.journal
  rw [attemptsByOperation_push]

theorem persistOutcome_journal {outcome : OutcomeRecord} {journal : DurableJournal}
    (persisted : state.journal.persistOutcome outcome = .ok journal) :
    ∃ dispatch, state.dispatches[outcome.attemptId]? = some dispatch ∧
      dispatch.operationId = outcome.operationId ∧
      ((∃ existing, state.outcomes[outcome.attemptId]? = some existing ∧
          existing.outcome = outcome.outcome ∧ journal = state.journal) ∨
        (outcome.attemptId ∉ state.outcomes ∧
          journal = { state with
            outcomes := state.outcomes.insert outcome.attemptId outcome
            outcomeHistory := state.outcomeHistory ++ [outcome] }.journal)) :=
  DurableJournal.persistOutcome_ok persisted

/-! ### Rebuilding the journal -/

/-- Intents with distinct operations and distinct tasks rebuild an index of each. -/
theorem foldlM_persistIntent (history : List EffectIntent)
    (operations : (history.map EffectIntent.operationId).Nodup)
    (tasks : (history.map EffectIntent.taskId).Nodup) :
    ∃ intents taskOperations,
      history.foldlM DurableJournal.persistIntent .new =
        .ok ⟨intents, taskOperations, ∅, ∅, ∅⟩ ∧
      Indexes EffectIntent.operationId history intents ∧
      ∀ (taskId : Id) (operationId : OperationId), taskOperations[taskId]? = some operationId ↔
        ∃ intent ∈ history, intent.taskId = taskId ∧ intent.operationId = operationId := by
  induction history using List.reverseRecOn with
  | nil => exact ⟨∅, ∅, rfl, .empty, by simp⟩
  | append_singleton history intent ih =>
    rw [List.map_append, List.nodup_append] at operations tasks
    obtain ⟨intents, taskOperations, folded, indexed, owners⟩ := ih operations.1 tasks.1
    have newOperation : intent.operationId ∉ intents := by
      rw [indexed.mem_iff]
      intro member
      exact operations.2.2 _ member _ (List.mem_singleton.mpr rfl) rfl
    have newTask : intent.taskId ∉ taskOperations := by
      intro member
      obtain ⟨operationId, found⟩ := exists_lookup_of_mem member
      obtain ⟨held, inside, same, _⟩ := (owners _ _).mp found
      exact tasks.2.2 _ (List.mem_map.mpr ⟨held, inside, rfl⟩) _ (List.mem_singleton.mpr rfl) same
    refine ⟨intents.insert intent.operationId intent,
      taskOperations.insert intent.taskId intent.operationId, ?_, indexed.push newOperation, ?_⟩
    · rw [List.foldlM_append, folded]
      show DurableJournal.persistIntent _ intent >>= _ = _
      unfold DurableJournal.persistIntent
      rw [if_neg newOperation, lookup_none_of_not_mem newTask]
      rfl
    · intro taskId operationId
      rw [lookup_insert]
      by_cases same : intent.taskId = taskId
      · rw [if_pos same]
        constructor
        · rintro ⟨⟩
          exact ⟨intent, List.mem_append_right _ (List.mem_singleton.mpr rfl), same, rfl⟩
        · rintro ⟨held, inside, owner, rfl⟩
          rcases List.mem_append.mp inside with old | new
          · exact absurd (same.trans owner.symm).symm (tasks.2.2 _ (List.mem_map.mpr ⟨held, old, rfl⟩)
              _ (List.mem_singleton.mpr rfl))
          · rw [List.mem_singleton.mp new]
      · rw [if_neg same, owners]
        constructor
        · rintro ⟨held, inside, rest⟩
          exact ⟨held, List.mem_append_left _ inside, rest⟩
        · rintro ⟨held, inside, owner, rest⟩
          rcases List.mem_append.mp inside with old | new
          · exact ⟨held, old, owner, rest⟩
          · rw [List.mem_singleton.mp new] at owner
            exact absurd owner same

/-- Dispatches of prepared operations with distinct attempts rebuild their index. -/
theorem foldlM_persistDispatch (journal : DurableJournal) (history : List DispatchRecord)
    (bare : journal.dispatches = ∅ ∧ journal.operationAttempts = ∅)
    (attempts : (history.map DispatchRecord.attemptId).Nodup)
    (prepared : ∀ dispatch ∈ history, dispatch.operationId ∈ journal.intents) :
    ∃ dispatches,
      history.foldlM DurableJournal.persistDispatch journal =
        .ok { journal with
          dispatches := dispatches, operationAttempts := attemptsByOperation history } ∧
      Indexes DispatchRecord.attemptId history dispatches := by
  induction history using List.reverseRecOn with
  | nil =>
    refine ⟨∅, ?_, .empty⟩
    rw [← bare.1]
    show (Except.ok journal : Except JournalError _) = .ok { journal with operationAttempts := ∅ }
    rw [← bare.2]
  | append_singleton history dispatch ih =>
    rw [List.map_append, List.nodup_append] at attempts
    obtain ⟨dispatches, folded, indexed⟩ := ih attempts.1 fun held inside =>
      prepared held (List.mem_append_left _ inside)
    have ready := prepared dispatch (List.mem_append_right _ (List.mem_singleton.mpr rfl))
    have fresh : dispatch.attemptId ∉ dispatches := by
      rw [indexed.mem_iff]
      intro member
      exact attempts.2.2 _ member _ (List.mem_singleton.mpr rfl) rfl
    refine ⟨dispatches.insert dispatch.attemptId dispatch, ?_, indexed.push fresh⟩
    rw [List.foldlM_append, folded, attemptsByOperation_push]
    show DurableJournal.persistDispatch _ dispatch >>= _ = _
    unfold DurableJournal.persistDispatch
    rw [if_neg (not_not.mpr ready), if_neg fresh]
    rfl

/-- Outcomes of dispatched attempts, one for each, rebuild their index. -/
theorem foldlM_persistOutcome (journal : DurableJournal) (history : List OutcomeRecord)
    (bare : journal.outcomes = ∅)
    (attempts : (history.map OutcomeRecord.attemptId).Nodup)
    (sent : ∀ outcome ∈ history, outcome.operationId ∈ journal.intents ∧
      ∃ dispatch, journal.dispatches[outcome.attemptId]? = some dispatch ∧
        dispatch.operationId = outcome.operationId) :
    ∃ outcomes,
      history.foldlM DurableJournal.persistOutcome journal =
        .ok { journal with outcomes := outcomes } ∧
      Indexes OutcomeRecord.attemptId history outcomes := by
  induction history using List.reverseRecOn with
  | nil =>
    refine ⟨∅, ?_, .empty⟩
    rw [← bare]
    rfl
  | append_singleton history outcome ih =>
    rw [List.map_append, List.nodup_append] at attempts
    obtain ⟨outcomes, folded, indexed⟩ := ih attempts.1 fun held inside =>
      sent held (List.mem_append_left _ inside)
    obtain ⟨ready, dispatch, found, same⟩ :=
      sent outcome (List.mem_append_right _ (List.mem_singleton.mpr rfl))
    have fresh : outcome.attemptId ∉ outcomes := by
      rw [indexed.mem_iff]
      intro member
      exact attempts.2.2 _ member _ (List.mem_singleton.mpr rfl) rfl
    refine ⟨outcomes.insert outcome.attemptId outcome, ?_, indexed.push fresh⟩
    rw [List.foldlM_append, folded]
    show DurableJournal.persistOutcome _ outcome >>= _ = _
    unfold DurableJournal.persistOutcome
    rw [if_neg (not_not.mpr ready)]
    simp only [found, same, ne_eq, not_true_eq_false, if_false, lookup_none_of_not_mem fresh]
    rfl

/-- Distinct operations of a lineage belong to distinct tasks. -/
theorem Lineage.nodup_tasks (lineage : state.Lineage) :
    ((valuesOf state.intents).map EffectIntent.taskId).Nodup := by
  have indexed := Indexes.of_values lineage.intentKey
  have operations := indexed.unique
  rw [List.Nodup, List.pairwise_map] at operations ⊢
  refine operations.imp_of_mem fun {first second} inFirst inSecond different same => different ?_
  have one := (lineage.inverse first.taskId first.operationId).mpr
    ⟨first, indexed.lookup inFirst, rfl⟩
  have two := (lineage.inverse first.taskId second.operationId).mpr
    ⟨second, indexed.lookup inSecond, same.symm⟩
  rw [one] at two
  exact Option.some.inj two

/-- **Rebuilding the journal of a state with its lineage gives the journal it determines.** -/
theorem fromDurableState_eq (lineage : state.Lineage) :
    DurableJournal.fromDurableState state = .ok state.journal := by
  have intentIndex := Indexes.of_values lineage.intentKey
  obtain ⟨intents, taskOperations, folded, indexed, owners⟩ :=
    foldlM_persistIntent (valuesOf state.intents) intentIndex.unique lineage.nodup_tasks
  obtain rfl : intents = state.intents := indexed.eq_of_same_history intentIndex
  obtain rfl : taskOperations = state.taskOperations := by
    refine ExtTreeMap.ext_getElem? fun taskId => Option.ext fun operationId => ?_
    rw [owners, lineage.inverse]
    constructor
    · rintro ⟨intent, inside, owner, rfl⟩
      exact ⟨intent, intentIndex.lookup inside, owner⟩
    · rintro ⟨intent, found, owner⟩
      exact ⟨intent, intentIndex.mem_of_lookup found, owner, intentIndex.key_of_lookup found⟩
  obtain ⟨dispatches, sent, dispatchIndex⟩ := foldlM_persistDispatch
    ⟨state.intents, state.taskOperations, ∅, ∅, ∅⟩ state.dispatchHistory ⟨rfl, rfl⟩
    lineage.dispatches.unique fun dispatch inside => by
      obtain ⟨_, intent, _, _, prepared, _⟩ := lineage.dispatched dispatch inside
      exact mem_of_lookup prepared
  obtain rfl : dispatches = state.dispatches := dispatchIndex.eq_of_same_history lineage.dispatches
  obtain ⟨outcomes, known, outcomeIndex⟩ := foldlM_persistOutcome
    ⟨state.intents, state.taskOperations, state.dispatches,
      attemptsByOperation state.dispatchHistory, ∅⟩ state.outcomeHistory rfl
    lineage.outcomes.unique fun outcome inside => by
      obtain ⟨_, dispatch, _, _, found, same⟩ := lineage.concluded outcome inside
      obtain ⟨_, intent, _, _, prepared, _⟩ :=
        lineage.dispatched dispatch (lineage.dispatches.mem_of_lookup found)
      exact ⟨same ▸ mem_of_lookup prepared, dispatch, found, same⟩
  obtain rfl : outcomes = state.outcomes := outcomeIndex.eq_of_same_history lineage.outcomes
  unfold DurableJournal.fromDurableState
  rw [folded]
  show (state.dispatchHistory.foldlM DurableJournal.persistDispatch
    ⟨state.intents, state.taskOperations, ∅, ∅, ∅⟩ : Except JournalError DurableJournal) >>= _ = _
  rw [sent]
  exact known

end DurableRunState

/-- **The journal view agrees with the store.** However a store is driven, the journal of every state
that it loads can be rebuilt, and answers every query as the state does. -/
theorem journal_agrees_with_store [Postcard] (sequence : List StoreCall) (runId : RunId)
    (state : DurableRunState)
    (loaded : InMemoryDurableStore.loadRun runId
      (DurableStore.calls sequence InMemoryDurableStore.new).2 = .ok state) :
    ∃ journal, DurableJournal.fromDurableState state = .ok journal ∧
      (∀ operationId, journal.state operationId = state.effectState operationId ∧
        journal.latestDispatch operationId = state.latestDispatch operationId ∧
        journal.knownOutcome operationId = state.latestOutcome operationId ∧
        journal.intent operationId =
          (state.intent operationId).elim (.error (.unknownOperation operationId)) .ok) ∧
      (∀ taskId, journal.operationForTask taskId = state.operationForTask taskId) ∧
      journal.operationIds = state.operationIds := by
  have lineage := DurableRunState.lineage_of_reachable
    (InMemoryDurableStore.reachable_of_calls sequence loaded)
  refine ⟨state.journal, DurableRunState.fromDurableState_eq lineage, fun operationId => ?_,
    fun taskId => rfl, rfl⟩
  refine ⟨DurableRunState.state_journal lineage operationId,
    DurableRunState.latestDispatch_journal lineage operationId,
    DurableRunState.knownOutcome_journal state operationId, ?_⟩
  unfold DurableJournal.intent DurableRunState.intent
  show (match state.intents[operationId]? with | none => _ | some _ => _) = _
  cases state.intents[operationId]? with
  | none => rfl
  | some intent => rfl

/-- The journal of the completed sample task knows its success. -/
theorem journal_agrees_with_store_sample :
    let _ := Persisted.postcard
    ∃ state journal, InMemoryDurableStore.loadRun sampleRun
        (DurableStore.calls sampleCompletion InMemoryDurableStore.new).2 = .ok state ∧
      DurableJournal.fromDurableState state = .ok journal ∧
      journal.state sampleOperation = .outcomeKnown .succeeded := by
  intro _
  obtain ⟨state, loaded, known⟩ := exists_ok_of_any
    (show ((InMemoryDurableStore.loadRun sampleRun
      (DurableStore.calls sampleCompletion InMemoryDurableStore.new).2).toOption.any fun state =>
        state.effectState sampleOperation = .outcomeKnown .succeeded) = true by decide +kernel)
  obtain ⟨journal, rebuilt, agrees, _⟩ := journal_agrees_with_store _ _ state loaded
  exact ⟨state, journal, loaded, rebuilt, (agrees sampleOperation).1.trans (of_decide_eq_true known)⟩

end Kernis
