/-
**The states of an effect.**

An operation is prepared by its intent, unknown after a dispatch, and known after the outcome of its
latest dispatch. Only the latest dispatch counts: the outcome of an earlier one is kept, and says nothing.

* `Advances` — the moves of an effect state. `Accepted.advances` — every accepted mutation is one for
  each operation, or none; except for a dispatch of an operation whose outcome is known.
* `Later first runtime` — a runtime that comes later in the run of another one, and `Later.invariant`, the
  induction rule.
* `effect_states_advance` — in every run, an effect state only advances, and late outcomes move none.
-/

import Kernis.Runtime.Consistent

namespace Kernis

open Std Fallible

/-- **The moves of an effect state.** A known outcome is final. -/
inductive Advances : RecoveredEffectState → RecoveredEffectState → Prop
  | prepare : Advances .notPrepared .prepared
  | dispatch : Advances .prepared .outcomeUnknown
  | again : Advances .outcomeUnknown .outcomeUnknown
  | conclude (outcome : KnownEffectOutcome) : Advances .outcomeUnknown (.outcomeKnown outcome)

/-- Any number of moves. -/
abbrev Onward : RecoveredEffectState → RecoveredEffectState → Prop := Relation.ReflTransGen Advances

theorem onward_of_eq {before after : RecoveredEffectState} (same : after = before) :
    Onward before after := by
  rw [same]

theorem Onward.known {outcome : KnownEffectOutcome} {after : RecoveredEffectState}
    (onward : Onward (.outcomeKnown outcome) after) : after = .outcomeKnown outcome := by
  induction onward with
  | refl => rfl
  | tail _ moves same =>
    subst same
    cases moves

namespace DurableRunState

variable {state next : DurableRunState}

/-- What an effect state depends on. -/
theorem effectState_congr {state next : DurableRunState} {operationId : OperationId}
    (intents : operationId ∈ next.intents ↔ operationId ∈ state.intents)
    (latest : next.latestDispatch operationId = state.latestDispatch operationId)
    (outcomes : ∀ dispatch, state.latestDispatch operationId = some dispatch →
      next.outcomes[dispatch.attemptId]? = state.outcomes[dispatch.attemptId]?) :
    next.effectState operationId = state.effectState operationId := by
  unfold effectState
  rw [latest]
  cases found : state.latestDispatch operationId with
  | none => simp only [intents]
  | some dispatch => simp only [intents, outcomes dispatch found]

/-- A dispatch of another operation is not the latest one. -/
theorem latestDispatch_push_ne {history : List DispatchRecord} {dispatch : DispatchRecord}
    {operationId : OperationId} (other : dispatch.operationId ≠ operationId) :
    ((history ++ [dispatch]).filter fun sent => sent.operationId = operationId).getLast? =
      (history.filter fun sent => sent.operationId = operationId).getLast? := by
  rw [List.filter_append]
  simp [other]

/-- An attempt that was not dispatched has no outcome. -/
theorem Lineage.outcome_none (lineage : state.Lineage) {attemptId : AttemptId}
    (fresh : attemptId ∉ state.dispatches) : state.outcomes[attemptId]? = none := by
  cases found : state.outcomes[attemptId]? with
  | none => rfl
  | some outcome =>
    obtain ⟨_, dispatch, _, _, sent, _⟩ :=
      lineage.concluded outcome (lineage.outcomes.mem_of_lookup found)
    rw [lineage.outcomes.key_of_lookup found] at sent
    exact absurd (mem_of_lookup sent) fresh

/-- **What an accepted mutation does to an effect state**, unless it dispatches an operation whose
outcome is known. -/
theorem Accepted.advances {mutation : DurableMutation} (lineage : state.Lineage)
    (accepted : Accepted state mutation next)
    (open_ : ∀ dispatch, mutation = .recordDispatch dispatch → ∀ outcome,
      state.effectState dispatch.operationId ≠ .outcomeKnown outcome) (operationId : OperationId) :
    Onward (state.effectState operationId) (next.effectState operationId) := by
  cases accepted with
  | intent fact unknown =>
    by_cases same : fact.operationId = operationId
    · subst same
      have unsent : state.latestDispatch fact.operationId = none := by
        unfold latestDispatch
        rw [lineage.dispatchesOf_nil unknown]
        rfl
      have before : state.effectState fact.operationId = .notPrepared := if_pos unknown
      have after : ({ state with
          taskOperations := state.taskOperations.insert fact.taskId fact.operationId
          intents := state.intents.insert fact.operationId fact } : DurableRunState).effectState
            fact.operationId = .prepared := by
        have member : fact.operationId ∈ state.intents.insert fact.operationId fact :=
          (mem_insert_iff _ _ _ _).mpr (.inl rfl)
        unfold effectState
        rw [if_neg (not_not.mpr member)]
        unfold latestDispatch dispatchesOf at unsent ⊢
        rw [unsent]
      rw [before, after]
      exact .single .prepare
    · refine onward_of_eq (effectState_congr ?_ rfl fun _ _ => rfl)
      show operationId ∈ state.intents.insert fact.operationId fact ↔ _
      rw [mem_insert_iff]
      exact ⟨fun member => member.resolve_left fun equal => same equal.symm, .inr⟩
  | dispatch sent intent admission prepared _ _ _ _ fresh =>
    by_cases same : sent.operationId = operationId
    · subst same
      have member := mem_of_lookup prepared
      have after : ({ state with
          dispatches := state.dispatches.insert sent.attemptId sent
          dispatchHistory := state.dispatchHistory ++ [sent] } : DurableRunState).effectState
            sent.operationId = .outcomeUnknown := by
        have latest : ((state.dispatchHistory ++ [sent]).filter fun dispatch =>
            dispatch.operationId = sent.operationId).getLast? = some sent := by
          rw [List.filter_append]
          simp
        unfold effectState
        rw [if_neg (not_not.mpr member)]
        unfold latestDispatch dispatchesOf
        rw [latest]
        simp only [lineage.outcome_none fresh]
      rw [after]
      cases before : state.effectState sent.operationId with
      | notPrepared =>
        unfold effectState at before
        rw [if_neg (not_not.mpr member)] at before
        split at before
        · cases before
        · split at before <;> cases before
      | prepared => exact .single .dispatch
      | outcomeUnknown => exact .single .again
      | outcomeKnown outcome => exact absurd before (open_ sent rfl outcome)
    · exact onward_of_eq (effectState_congr .rfl (latestDispatch_push_ne same) fun _ _ => rfl)
  | outcome fact admission dispatch _ sent carried _ fresh =>
    by_cases concerns : ∃ latest, state.latestDispatch operationId = some latest ∧
        latest.attemptId = fact.attemptId
    · obtain ⟨latest, last, same⟩ := concerns
      by_cases member : operationId ∈ state.intents
      · have before : state.effectState operationId = .outcomeUnknown := by
          unfold effectState
          rw [if_neg (not_not.mpr member), last]
          simp only [same, lookup_none_of_not_mem fresh]
        have after : ({ state with
            outcomes := state.outcomes.insert fact.attemptId fact
            outcomeHistory := state.outcomeHistory ++ [fact] } : DurableRunState).effectState
              operationId = .outcomeKnown fact.outcome := by
          refine effectState_known_iff.mpr ⟨member, latest, fact, last, ?_, rfl⟩
          show (state.outcomes.insert fact.attemptId fact)[latest.attemptId]? = _
          rw [same, lookup_insert_self]
        rw [before, after]
        exact .single (.conclude _)
      · have before : state.effectState operationId = .notPrepared := if_pos member
        have after : ({ state with
            outcomes := state.outcomes.insert fact.attemptId fact
            outcomeHistory := state.outcomeHistory ++ [fact] } : DurableRunState).effectState
              operationId = .notPrepared := if_pos member
        rw [before, after]
    · refine onward_of_eq (effectState_congr .rfl rfl fun latest last => ?_)
      exact lookup_insert_ne _ _ fun same => concerns ⟨latest, last, same.symm⟩
  | _ => exact .refl

/-- **A late outcome moves no effect state.** -/
theorem Accepted.late {outcome : OutcomeRecord} (lineage : state.Lineage)
    (accepted : Accepted state (.recordOutcome outcome) next)
    (late : ∀ latest, state.latestDispatch outcome.operationId = some latest →
      latest.attemptId ≠ outcome.attemptId) :
    (∀ operationId, next.effectState operationId = state.effectState operationId) ∧
      outcome ∈ next.outcomeHistory := by
  cases accepted with
  | outcomeKnown _ existing admission dispatch _ sent carried _ known same =>
    refine ⟨fun _ => rfl, ?_⟩
    obtain ⟨_, again, _, _, sentAgain, carriedAgain⟩ :=
      lineage.concluded existing (lineage.outcomes.mem_of_lookup known)
    have attempt := lineage.outcomes.key_of_lookup known
    rw [attempt, sent] at sentAgain
    cases sentAgain
    have equal : existing = outcome := by
      obtain ⟨_, _, _⟩ := existing
      obtain ⟨_, _, _⟩ := outcome
      cases attempt
      cases same
      cases carriedAgain.symm.trans carried
      rfl
    exact equal ▸ lineage.outcomes.mem_of_lookup known
  | outcome _ admission dispatch _ sent carried _ fresh =>
    refine ⟨fun operationId => effectState_congr .rfl rfl fun latest last => ?_,
      List.mem_append_right _ (List.mem_singleton.mpr rfl)⟩
    refine lookup_insert_ne _ _ fun same => ?_
    obtain ⟨found, own⟩ := lineage.latestDispatch_lookup last
    rw [← same, sent] at found
    cases found
    exact late dispatch (by rw [← carried, own]; exact last) same.symm

end DurableRunState

namespace Runtime

variable {σ ν : Type} [Postcard] [FaithfulStore σ]

/-! ### Later in a run -/

/-- **A runtime that comes later in a run**: after more operations, and restores over the same durable
content. -/
inductive Later (first : Runtime σ ν) : Runtime σ ν → Prop
  | here : Later first first
  | performed {runtime : Runtime σ ν} (later : Later first runtime) (operation : Operation ν) :
      Later first (operation.perform runtime).2
  | restored {runtime next : Runtime σ ν} {store : σ} (later : Later first runtime)
      (same : FaithfulStore.content store = FaithfulStore.content runtime.store)
      (restored : Restored runtime.runId store next) : Later first next

/-- **What every action, every local change and every restore keep, holds later.** -/
theorem Later.invariant (Inv : Runtime σ ν → DurableRunState → Prop)
    (step : ∀ {runtime reached state next action result}, Allowed runtime action →
      Synced runtime state → Acted runtime state action result reached next →
      Inv runtime state → Inv reached next)
    (quiet : ∀ {runtime reached state}, Quiet runtime reached → Inv runtime state →
      Inv reached state)
    (restore : ∀ {runtime next state} {store : σ}, Restored runtime.runId store next →
      Synced runtime state → Synced next state → Inv runtime state → Inv next state)
    {first runtime : Runtime σ ν} (later : Later first runtime) {state : DurableRunState}
    (synced : Synced first state) (before : Inv first state) :
    ∃ next, Synced runtime next ∧ Inv runtime next := by
  induction later with
  | here => exact ⟨state, synced, before⟩
  | performed _ operation ih =>
    obtain ⟨state, synced, before⟩ := ih
    exact perform_synced Inv step quiet operation synced before
  | restored _ same restored ih =>
    obtain ⟨state, synced, before⟩ := ih
    have again := restored.synced same synced
    exact ⟨state, again, restore restored synced again before⟩

section Acted

variable {runtime reached : Runtime σ ν} {state next : DurableRunState} {action : Action}
  {result : Except RuntimeError Unit}

/-- **Every action advances effect states only.** -/
theorem Acted.onward (acted : Acted runtime state action result reached next)
    (allowed : runtime.Allowed action) (synced : Synced runtime state) (operationId : OperationId) :
    Onward (state.effectState operationId) (next.effectState operationId) := by
  have lineage := synced.coherent.owned.lineage
  cases acted with
  | refused => exact .refl
  | replayed => exact .refl
  | @fresh store candidate key room own newKey accepted =>
    show Onward _ (candidate.effectState operationId)
    refine accepted.advances lineage (fun sent same outcome known => ?_) operationId
    cases action with
    | dispatch fact journal =>
      cases same
      obtain ⟨_, _, _, _, guard, _⟩ := allowed
      rw [synced.coherent.journal, DurableRunState.state_journal lineage, known] at guard
      rcases guard with fresh | ⟨unknown, _⟩
      · cases fresh
      · cases unknown
    | _ => cases same

/-- What an outcome that is recorded late does. -/
theorem Acted.late (acted : Acted runtime state action (.ok ()) reached next) {fact : OutcomeRecord}
    {journal : DurableJournal} (records : action = .outcome fact journal)
    (allowed : runtime.Allowed action) (synced : Synced runtime state)
    (late : ∀ latest, state.latestDispatch fact.operationId = some latest →
      latest.attemptId ≠ fact.attemptId) :
    (∀ operationId, next.effectState operationId = state.effectState operationId) ∧
      fact ∈ next.outcomeHistory := by
  have lineage := synced.coherent.owned.lineage
  subst records
  generalize answered : (Except.ok () : Except RuntimeError Unit) = result at acted
  cases acted with
  | refused => cases answered
  | replayed repeated =>
    have persisted : runtime.journal.persistOutcome fact = .ok journal := allowed
    cases repeated
    rw [synced.coherent.journal] at persisted
    obtain ⟨dispatch, sent, carried, known⟩ := DurableRunState.persistOutcome_journal persisted
    obtain ⟨admission, _, admitted, own, _⟩ :=
      lineage.dispatched dispatch (lineage.dispatches.mem_of_lookup sent)
    rw [lineage.dispatches.key_of_lookup sent] at admitted
    rw [carried] at own
    rcases known with ⟨existing, found, same, _⟩ | ⟨unknown, same⟩
    · exact DurableRunState.Accepted.late lineage
        (.outcomeKnown fact existing admission dispatch admitted sent carried own found same) late
    · have outcomes : state.outcomes = state.outcomes.insert fact.attemptId fact :=
        congrArg DurableJournal.outcomes same
      rw [outcomes] at unknown
      exact absurd ((mem_insert_iff _ _ _ _).mpr (.inl rfl)) unknown
  | fresh room own newKey accepted =>
    have kept := accepted.late lineage late
    exact ⟨kept.1, kept.2⟩

end Acted

/-- **An outcome that is accepted late moves no effect state**, and is kept. -/
theorem recordEffectOutcome_late {operationId : OperationId} {attemptId : AttemptId}
    {outcome : KnownEffectOutcome} {runtime : Runtime σ ν} {state : DurableRunState}
    (synced : Synced runtime state) {reply : Reply}
    (answered : ((Command.recordEffectOutcome operationId attemptId outcome).perform runtime).1 =
      .ok reply)
    (late : ∀ latest, state.latestDispatch operationId = some latest → latest.attemptId ≠ attemptId) :
    ∃ next, Synced ((Command.recordEffectOutcome operationId attemptId outcome).perform runtime).2 next ∧
      (∀ other, next.effectState other = state.effectState other) ∧
      ⟨operationId, attemptId, outcome⟩ ∈ next.outcomeHistory := by
  have derivation := perform_performs (.recordEffectOutcome operationId attemptId outcome) runtime
  rw [answered] at derivation
  generalize ((Command.recordEffectOutcome operationId attemptId outcome).perform runtime).2 =
    reached at derivation ⊢
  cases derivation with
  | halt decided =>
    simp only [Command.decide, decideOutcome] at decided
    split at decided <;> cases decided
  | replied chosen acted =>
    have allowed := allowed_of_chooses chosen
    obtain ⟨next, after, went⟩ := act_synced synced allowed acted
    cases chosen
    exact ⟨next, after, went.late rfl allowed synced late⟩
  | again chosen => cases chosen
  | dispatched chosen => cases chosen

/-- **Effect states only advance.** From any runtime of any run, with crashes and restores, to any that
comes later in it: the state of every operation moves along, a known outcome stays what it is, and an
outcome that is then accepted for an attempt other than the latest dispatch moves the state of no
operation, and is kept. -/
theorem effect_states_advance (history : History ν) (first runtime : Runtime σ ν)
    (driven : Driven history first) (later : Later first runtime) :
    (∀ operationId, Onward (first.journal.state operationId) (runtime.journal.state operationId)) ∧
      (∀ operationId outcome, first.journal.state operationId = .outcomeKnown outcome →
        runtime.journal.state operationId = .outcomeKnown outcome) ∧
      ∀ operationId attemptId outcome reply,
        ((Command.recordEffectOutcome operationId attemptId outcome).perform runtime).1 = .ok reply →
        (∀ latest, runtime.journal.latestDispatch operationId = some latest →
          latest.attemptId ≠ attemptId) →
        let reached := ((Command.recordEffectOutcome operationId attemptId outcome).perform runtime).2
        (∀ other, reached.journal.state other = runtime.journal.state other) ∧
          ∃ state, DurableStore.loadRun reached.runId reached.store = .ok state ∧
            ⟨operationId, attemptId, outcome⟩ ∈ state.outcomeHistory := by
  obtain ⟨start, begun⟩ := driven.synced
  obtain ⟨state, synced, onward⟩ := later.invariant
    (fun _ state => ∀ operationId, Onward (start.effectState operationId)
      (state.effectState operationId))
    (fun allowed synced acted before operationId =>
      (before operationId).trans (acted.onward allowed synced operationId))
    (fun _ before => before) (fun _ _ _ before => before) begun (fun _ => .refl)
  have views {runtime : Runtime σ ν} {state : DurableRunState} (synced : Synced runtime state)
      (operationId : OperationId) :
      runtime.journal.state operationId = state.effectState operationId := by
    rw [synced.coherent.journal, DurableRunState.state_journal synced.coherent.owned.lineage]
  refine ⟨fun operationId => ?_, fun operationId outcome known => ?_, ?_⟩
  · rw [views begun, views synced]
    exact onward operationId
  · rw [views begun] at known
    rw [views synced]
    exact (known ▸ onward operationId).known
  · intro operationId attemptId outcome reply answered late
    rw [synced.coherent.journal] at late
    simp only [DurableRunState.latestDispatch_journal synced.coherent.owned.lineage] at late
    obtain ⟨next, after, same, kept⟩ := recordEffectOutcome_late synced answered late
    refine ⟨fun other => ?_, next, after.loaded, kept⟩
    rw [views after, views synced, same]

theorem Later.performAll {first runtime : Runtime σ ν} (later : Later first runtime)
    (operations : List (Operation ν)) : Later first (runtime.performAll operations) := by
  induction operations generalizing runtime with
  | nil => exact later
  | cons operation rest ih => exact ih (later.performed operation)

end Runtime

/-- The sample operation is dispatched, and dispatched again. -/
def sampleRetried : List (Operation Unit) :=
  [.command (.recordEffectIntent sampleTask sampleOperation .idempotent),
    .command (.dispatchEffect sampleOperation), .command (.dispatchEffect sampleOperation)]

/-- The outcome of the first dispatch comes late. -/
def sampleLate : Command :=
  .recordEffectOutcome sampleOperation (generatedAttemptId sampleRun 1) .succeeded

/-- After it, the outcome is still unknown. -/
theorem effect_states_advance_sample :
    let _ := Persisted.postcard
    ∃ runtime, sampleStarted = .ok runtime ∧
      (sampleLate.perform (runtime.performAll sampleRetried)).2.journal.state sampleOperation =
        .outcomeUnknown := by
  intro _
  obtain ⟨runtime, started, holds⟩ := exists_ok_of_any
    (show (sampleStarted.toOption.any fun runtime =>
      (sampleLate.perform (runtime.performAll sampleRetried)).1 = .ok .done ∧
        (runtime.performAll sampleRetried).journal.latestDispatch sampleOperation =
          some ⟨sampleOperation, generatedAttemptId sampleRun 2⟩ ∧
        (runtime.performAll sampleRetried).journal.state sampleOperation = .outcomeUnknown) = true by
      decide +kernel)
  obtain ⟨answered, latest, unknown⟩ := of_decide_eq_true holds
  have later := (Runtime.Later.here : Runtime.Later runtime runtime).performAll sampleRetried
  refine ⟨runtime, started, ?_⟩
  rw [← unknown]
  refine ((Runtime.effect_states_advance _ _ _ (sampleStarted_driven started) later).2.2 _ _ _ _
    answered fun other last => ?_).1 sampleOperation
  rw [latest] at last
  cases last
  exact fun same => absurd (generatedAttemptId_injective sampleRun same) (by decide)

end Kernis
