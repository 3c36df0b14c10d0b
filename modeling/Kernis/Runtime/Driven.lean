/-
**Runs of a runtime over a store that it owns, with crashes and restores.**

* `Driven history runtime` — a runtime reached from a start by any operations and any restores over
  the same durable content; `history` is every operation of every incarnation with its answer.
* `Driven.invariant` — the induction rule for what a run keeps.
* `perform_moves` — what one command adds to the durable dispatches and outcomes.
* `store_checks_implied` — no operation is ever refused by a store invariant or a stale revision.
* `nonIdempotent_dispatched_once` — a non-idempotent operation is dispatched at most once.
-/

import Kernis.Recovery.Persisted
import Kernis.Runtime.Incarnations

namespace Kernis

open Std Fallible

/-- Operations with their answers. -/
abbrev History (ν : Type) := List (Operation ν × Except RuntimeError Reply)

namespace Runtime

variable {σ ν : Type} [Postcard] [FaithfulStore σ]

/-- **A runtime in a run that it drives alone.** A crash may come after any operation; the store
that a restore opens has the same content. -/
inductive Driven : History ν → Runtime σ ν → Prop
  | started {store : σ} {runtime : Runtime σ ν}
      (clean : (FaithfulStore.content store).AllReachable) (started : Started store runtime) :
      Driven [] runtime
  | performed {history : History ν} {runtime : Runtime σ ν} (driven : Driven history runtime)
      (operation : Operation ν) :
      Driven (history ++ [(operation, (operation.perform runtime).1)]) (operation.perform runtime).2
  | restored {history : History ν} {runtime next : Runtime σ ν} {store : σ}
      (driven : Driven history runtime)
      (same : FaithfulStore.content store = FaithfulStore.content runtime.store)
      (restored : Restored runtime.runId store next) : Driven history next

/-- A restore over the content of a runtime in step is in step with the same state. -/
theorem Restored.synced {runtime next : Runtime σ ν} {store : σ} {state : DurableRunState}
    (same : FaithfulStore.content store = FaithfulStore.content runtime.store)
    (restored : Restored runtime.runId store next) (synced : Synced runtime state) :
    Synced next state := by
  obtain ⟨_, _, _, _, loaded, _, load, inner⟩ := restored.inner
  have held : (FaithfulStore.content store).runs[runtime.runId]? = some state := by
    rw [same]
    exact synced.backed
  rw [FaithfulStore.load, InMemoryDurableStore.loadRun, held] at load
  cases load
  exact restoreLoaded_synced synced.coherent.owned held synced.coherent.runId inner

/-- **Run induction.** What holds after a start, and what every action, every local change and every
restore keeps, holds in every run; and the runtime is in step with its store. -/
theorem Driven.invariant (Inv : Runtime σ ν → DurableRunState → Prop)
    (start : ∀ {store : σ} {runtime}, (FaithfulStore.content store).AllReachable →
      Started store runtime → ∀ {state}, Synced runtime state → Inv runtime state)
    (step : ∀ {runtime reached state next action result}, Allowed runtime action →
      Synced runtime state → Acted runtime state action result reached next →
      Inv runtime state → Inv reached next)
    (quiet : ∀ {runtime reached state}, Quiet runtime reached → Inv runtime state →
      Inv reached state)
    (restore : ∀ {runtime next state} {store : σ}, Restored runtime.runId store next →
      Synced runtime state → Synced next state → Inv runtime state → Inv next state)
    {history : History ν} {runtime : Runtime σ ν} (driven : Driven history runtime) :
    ∃ state, Synced runtime state ∧ Inv runtime state := by
  induction driven with
  | started clean started =>
    obtain ⟨_, _, _, _, identity, _, _, built, inner⟩ := started.inner
    obtain ⟨synced, _⟩ := startWithIdentity_synced clean built inner
    exact ⟨_, synced, start clean started synced⟩
  | performed _ operation ih =>
    obtain ⟨state, synced, before⟩ := ih
    exact perform_synced Inv step quiet operation synced before
  | restored _ same restored ih =>
    obtain ⟨state, synced, before⟩ := ih
    have again := restored.synced same synced
    exact ⟨state, again, restore restored synced again before⟩

theorem Driven.synced {history : History ν} {runtime : Runtime σ ν}
    (driven : Driven history runtime) : ∃ state, Synced runtime state := by
  obtain ⟨state, synced, _⟩ := driven.invariant (fun _ _ => True) (fun _ _ _ _ => trivial)
    (fun _ _ _ _ => trivial) (fun _ _ => trivial) (fun _ _ _ _ => trivial)
  exact ⟨state, synced⟩

/-! ### Refusals -/

omit [Postcard] [FaithfulStore σ] in
/-- What settling reports: an exhausted counter or a full stream. -/
theorem settle_refusal {action : Action} {runtime : Runtime σ ν} {error : RuntimeError}
    (refused : (action.settle runtime).1 = .error error) :
    error = .attemptIdExhausted ∨ (∃ sequence, error = .stream sequence) ∨
      ∃ item, error = .executionBackpressure item := by
  cases action with
  | admission attempt =>
    rw [settle_admission] at refused
    repeat' split at refused
    all_goals cases refused
    · exact .inl rfl
    · exact .inr (.inl ⟨_, rfl⟩)
    · exact .inr (.inr ⟨_, rfl⟩)
  | complete fact workflow =>
    rw [settle_complete] at refused
    repeat' split at refused
    all_goals cases refused
    · exact .inr (.inl ⟨_, rfl⟩)
    · exact .inr (.inr ⟨_, rfl⟩)
  | _ => cases refused

omit [Postcard] [FaithfulStore σ] in
/-- Settling never reports the store. -/
theorem settle_error {action : Action} {runtime : Runtime σ ν} {error : StoreError} :
    (action.settle runtime).1 ≠ .error (.store error) := by
  intro refused
  rcases settle_refusal refused with same | ⟨_, same⟩ | ⟨_, same⟩ <;> cases same

/-- What an allowed action of a runtime in step leads to. -/
theorem act_synced {runtime reached : Runtime σ ν} {state : DurableRunState} {action : Action}
    {result : Except RuntimeError Unit} (synced : Synced runtime state)
    (allowed : runtime.Allowed action) (acted : act action runtime = (result, reached)) :
    ∃ next, Synced reached next ∧ Acted runtime state action result reached next := by
  obtain ⟨next, went⟩ := act_acted allowed synced.backed synced.coherent
  rw [acted] at went
  exact ⟨next, went.synced allowed synced, went⟩

theorem Acted.harmless {runtime reached : Runtime σ ν} {state next : DurableRunState}
    {action : Action} {error : StoreError}
    (acted : Acted runtime state action (.error (.store error)) reached next) :
    error.Harmless := by
  generalize refused : (Except.error (RuntimeError.store error) : Except RuntimeError Unit) = result
    at acted
  cases acted with
  | refused harmless =>
    cases refused
    exact harmless
  | replayed => exact absurd refused.symm settle_error
  | fresh => exact absurd refused.symm settle_error

/-- **A command in step with its store is never refused by an invariant or a stale revision.** -/
theorem perform_harmless {command : Command} {runtime : Runtime σ ν} {state : DurableRunState}
    (synced : Synced runtime state) {error : StoreError}
    (failed : (command.perform runtime).1 = .error (.store error)) : error.Harmless := by
  have derivation := perform_performs command runtime
  rw [failed] at derivation
  generalize (command.perform runtime).2 = reached at derivation
  clear failed
  generalize refused : (Except.error (RuntimeError.store error) : Except RuntimeError Reply) =
    result at derivation
  induction derivation generalizing state with
  | halt decided =>
    subst refused
    have plain : error = .emptyWorkflowReplayIdentity := plain_of_halt decided
    subst plain
    exact ⟨fun _ same => (by cases same), fun _ _ same => (by cases same)⟩
  | failed chosen acted =>
    cases refused
    obtain ⟨_, _, went⟩ := act_synced synced (allowed_of_chooses chosen) acted
    exact went.harmless
  | replied => cases refused
  | again chosen acted _ ih =>
    obtain ⟨_, next, _⟩ := act_synced synced (allowed_of_chooses chosen) acted
    exact ih next refused
  | undispatched => cases refused
  | misdispatched chosen acted persisted failed =>
    cases refused
    obtain ⟨_, next, _⟩ := act_synced synced (allowed_of_chooses chosen) acted
    obtain ⟨_, _, went⟩ := act_synced next (allowed_dispatch_of_chooses chosen acted persisted) failed
    exact went.harmless
  | dispatched => cases refused

theorem runUntilBlocked_harmless {runtime : Runtime σ ν} {state : DurableRunState}
    (synced : Synced runtime state) {error : StoreError}
    (failed : (runUntilBlocked runtime).1 = .error (.store error)) : error.Harmless := by
  have run := runSteps_run (fun runtime : Runtime σ ν => ∃ state, Synced runtime state)
    (fun refusal _ => ∀ error, refusal = .store error → error.Harmless)
    (fun ⟨_, before⟩ _ _ => by
      obtain ⟨next, after, _⟩ := perform_command_synced (fun _ _ => True)
        (fun _ _ _ _ => trivial) .step before trivial
      exact ⟨next, after⟩)
    (fun ⟨_, before⟩ refusal failed error same => perform_harmless before (same ▸ failed))
    (runtime.workflow.tasks.length + 1) [] ⟨state, synced⟩
  rw [runUntilBlocked, run_bind, run_get] at failed
  exact run.2 _ failed error rfl

/-- **The runtime's own checks imply the store's checks**: in every run, no operation is refused by
a store invariant or by a stale revision, and the validator accepts every commit that a command
chooses under a new key. -/
theorem store_checks_implied (history : History ν) (runtime : Runtime σ ν)
    (driven : Driven history runtime) :
    (∀ (operation : Operation ν) (error : StoreError),
        (operation.perform runtime).1 = .error (.store error) →
        (∀ invariant, error ≠ .invariantViolation invariant) ∧
          ∀ expected actual, error ≠ .revisionConflict expected actual) ∧
      ∀ (command : Command) (action : Action) (after : After),
        command.decide runtime = .act action after →
        ∃ state, DurableStore.loadRun runtime.runId runtime.store = .ok state ∧
          ((action.request runtime).idempotencyKey ∉ state.idempotency →
            ∃ next, state.applyMutation action.mutation = .ok next) := by
  obtain ⟨state, synced⟩ := driven.synced
  refine ⟨fun operation error failed => ?_, fun command action after decided => ?_⟩
  · cases observing : operation.observes with
    | true =>
      rcases (perform_observes observing runtime).2 _ failed with same | ⟨_, same⟩
      · cases same
      · cases same
    | false =>
      cases operation with
      | command command => exact perform_harmless synced failed
      | runUntilBlocked =>
        refine runUntilBlocked_harmless synced ?_
        rw [Operation.perform, run_map] at failed
        cases result : (runUntilBlocked runtime).1 with
        | ok results =>
          rw [result] at failed
          cases failed
        | error refusal =>
          rw [result] at failed
          cases failed
          rfl
      | drainExecutionEvents => cases failed
      | retryExecutionEvent item =>
        rw [Operation.perform, run_map, retryExecutionEvent_eq] at failed
        repeat' split at failed
        all_goals cases failed
      | _ => cases observing
  · refine ⟨state, ?_, fun newKey => ?_⟩
    · rw [FaithfulStore.load, InMemoryDurableStore.loadRun, synced.backed]
    · obtain ⟨next, accepted⟩ := synced.coherent.accepts
        (allowed_of_chooses (decide_chooses decided)) (own_key action synced.coherent) newKey
      exact ⟨next, DurableRunState.accepted_iff.mpr accepted⟩

/-! ### Dispatches -/

end Runtime

namespace DurableRunState

variable {state next : DurableRunState}

/-- An accepted mutation keeps the dispatches, in order. -/
theorem Accepted.dispatches_grow {mutation : DurableMutation}
    (accepted : Accepted state mutation next) :
    state.dispatchHistory <+: next.dispatchHistory := by
  cases accepted with
  | dispatch => exact List.prefix_append _ _
  | _ => exact List.prefix_rfl

/-- Every non-idempotent operation has been dispatched at most once. -/
def Single (state : DurableRunState) : Prop :=
  ∀ (operationId : OperationId) (intent : EffectIntent),
    state.intents[operationId]? = some intent → intent.semantics = .nonIdempotent →
    (state.dispatchesOf operationId).length ≤ 1

/-- An operation without an intent was never dispatched. -/
theorem Lineage.dispatchesOf_nil (lineage : state.Lineage) {operationId : OperationId}
    (unknown : operationId ∉ state.intents) : state.dispatchesOf operationId = [] := by
  refine List.filter_eq_nil_iff.mpr fun dispatch member same => unknown ?_
  obtain ⟨_, intent, _, _, prepared, _⟩ := lineage.dispatched dispatch member
  rw [of_decide_eq_true same] at prepared
  exact mem_of_lookup prepared

/-- A prepared operation was never dispatched. -/
theorem dispatchesOf_of_prepared {operationId : OperationId}
    (prepared : state.effectState operationId = .prepared) :
    state.dispatchesOf operationId = [] := by
  unfold effectState at prepared
  split at prepared
  · cases prepared
  · split at prepared
    · exact List.getLast?_eq_none_iff.mp ‹_›
    · split at prepared <;> cases prepared

/-- **What a durable state adds to another one**: dispatches and outcomes, in order, and everything
else that it extends. -/
structure Moves (state next : DurableRunState) (dispatches : List DispatchRecord)
    (outcomes : List OutcomeRecord) : Prop where
  more : Extends state next
  dispatched : next.dispatchHistory = state.dispatchHistory ++ dispatches
  concluded : next.outcomeHistory = state.outcomeHistory ++ outcomes
  single : state.Single → next.Single

theorem Moves.refl (state : DurableRunState) : Moves state state [] [] :=
  ⟨.refl state, (List.append_nil _).symm, (List.append_nil _).symm, id⟩

theorem Moves.trans {middle : DurableRunState} {first second : List DispatchRecord}
    {earlier later : List OutcomeRecord} (one : Moves state middle first earlier)
    (two : Moves middle next second later) :
    Moves state next (first ++ second) (earlier ++ later) := by
  refine ⟨one.more.trans two.more, ?_, ?_, two.single ∘ one.single⟩
  · rw [two.dispatched, one.dispatched, List.append_assoc]
  · rw [two.concluded, one.concluded, List.append_assoc]

end DurableRunState

namespace Runtime

variable {σ ν : Type} [Postcard] [FaithfulStore σ]

section Acted

variable {runtime reached : Runtime σ ν} {state next : DurableRunState} {action : Action}
  {result : Except RuntimeError Unit}

theorem Acted.dispatches_grow (acted : Acted runtime state action result reached next) :
    state.dispatchHistory <+: next.dispatchHistory := by
  cases acted with
  | refused => exact List.prefix_rfl
  | replayed => exact List.prefix_rfl
  | fresh room own newKey accepted => exact accepted.dispatches_grow

/-- **An allowed action dispatches no non-idempotent operation twice.** -/
theorem Acted.single (acted : Acted runtime state action result reached next)
    (allowed : runtime.Allowed action) (synced : Synced runtime state) (single : state.Single) :
    next.Single := by
  cases acted with
  | refused => exact single
  | replayed => exact single
  | fresh room own newKey accepted =>
    have lineage := synced.coherent.owned.lineage
    cases action with
    | dispatch fact journal =>
      obtain ⟨intent, found, _, _, guard, _⟩ := allowed
      have stored := synced.coherent.intent found
      rw [synced.coherent.journal, DurableRunState.state_journal lineage] at guard
      cases accepted
      intro operationId other prepared exclusive
      have prepared : state.intents[operationId]? = some other := prepared
      show ((state.dispatchHistory ++ [fact]).filter fun dispatch =>
        dispatch.operationId = operationId).length ≤ 1
      rw [List.filter_append, List.length_append]
      by_cases same : fact.operationId = operationId
      · subst same
        rw [stored] at prepared
        cases prepared
        rcases guard with first | ⟨_, idempotent⟩
        · have none := DurableRunState.dispatchesOf_of_prepared first
          unfold DurableRunState.dispatchesOf at none
          rw [none]
          simp
        · exact absurd exclusive idempotent
      · have before := single operationId other prepared exclusive
        unfold DurableRunState.dispatchesOf at before
        simpa [same] using before
    | intent fact journal =>
      cases accepted with
      | intentKnown => exact single
      | intent _ unknown =>
        intro operationId other prepared exclusive
        have prepared : (state.intents.insert fact.operationId fact)[operationId]? = some other :=
          prepared
        rw [lookup_insert] at prepared
        split at prepared
        · rename_i same
          subst same
          show (state.dispatchesOf fact.operationId).length ≤ 1
          rw [lineage.dispatchesOf_nil unknown]
          exact Nat.zero_le _
        · exact single operationId other prepared exclusive
    | _ =>
      cases accepted <;> exact single

/-- What an action with its result adds to the dispatches. -/
def dispatchedBy : Action → Except RuntimeError Unit → List DispatchRecord
  | .dispatch fact _, .ok () => [fact]
  | _, _ => []

/-- What an action may add to the outcomes. -/
def OutcomeOf (action : Action) (outcomes : List OutcomeRecord) : Prop :=
  outcomes = [] ∨ ∃ fact journal, action = .outcome fact journal ∧ outcomes = [fact]

/-- **An allowed action adds the dispatch that it records, and at most the outcome that it
records.** -/
theorem Acted.moves (acted : Acted runtime state action result reached next)
    (allowed : runtime.Allowed action) (synced : Synced runtime state) :
    ∃ outcomes, DurableRunState.Moves state next (dispatchedBy action result) outcomes ∧
      OutcomeOf action outcomes := by
  have single := acted.single allowed synced
  cases acted with
  | refused =>
    refine ⟨[], ?_, .inl rfl⟩
    have nothing {error : StoreError} : dispatchedBy action (.error (.store error)) = [] := by
      cases action <;> rfl
    rw [nothing]
    exact .refl state
  | replayed repeated =>
    refine ⟨[], ?_, .inl rfl⟩
    cases action with
    | dispatch fact journal => cases repeated
    | _ => exact .refl state
  | fresh room own newKey accepted =>
    have grown := accepted.extends
    cases action with
    | dispatch fact journal =>
      cases accepted
      exact ⟨[], ⟨{ grown with }, rfl, (List.append_nil _).symm, single⟩, .inl rfl⟩
    | outcome fact journal =>
      cases accepted with
      | outcomeKnown =>
        exact ⟨[], ⟨{ grown with }, (List.append_nil _).symm, (List.append_nil _).symm, single⟩,
          .inl rfl⟩
      | outcome =>
        exact ⟨[fact], ⟨{ grown with }, (List.append_nil _).symm, rfl, single⟩,
          .inr ⟨fact, journal, rfl, rfl⟩⟩
    | _ =>
      cases accepted <;>
        exact ⟨[], ⟨{ grown with }, (List.append_nil _).symm, (List.append_nil _).symm, single⟩,
          .inl rfl⟩

end Acted

/-- Whether an entry of the history is a dispatch of an operation that succeeded. -/
def dispatchAnswered (operationId : OperationId) :
    Operation ν × Except RuntimeError Reply → Bool
  | (.command (.dispatchEffect other), .ok _) => other = operationId
  | _ => false

/-- What a command with its result adds to the dispatches. -/
def sentBy : Command → Except RuntimeError Reply → List DispatchRecord
  | .dispatchEffect operationId, .ok (.dispatched attemptId) => [⟨operationId, attemptId⟩]
  | _, _ => []

/-- What a command may add to the outcomes. -/
def ConcludedBy (command : Command) (outcomes : List OutcomeRecord) : Prop :=
  outcomes = [] ∨ ∃ operationId attemptId outcome,
    command = .recordEffectOutcome operationId attemptId outcome ∧
      outcomes = [⟨operationId, attemptId, outcome⟩]

omit [Postcard] [FaithfulStore σ] in
theorem sentBy_error (command : Command) (error : RuntimeError) :
    sentBy command (.error error) = [] := by
  cases command <;> rfl

omit [Postcard] [FaithfulStore σ] in
/-- Only the recording of an outcome chooses one. -/
theorem concludedBy_of_chooses {runtime : Runtime σ ν} {command : Command} {action : Action}
    {after : After} {outcomes : List OutcomeRecord} (chosen : Chooses runtime command action after)
    (concluded : OutcomeOf action outcomes) : ConcludedBy command outcomes := by
  rcases concluded with none | ⟨fact, journal, rfl, added⟩
  · exact .inl none
  · cases chosen with
    | outcome => exact .inr ⟨_, _, _, rfl, added⟩

omit [Postcard] [FaithfulStore σ] in
/-- An action after which a command goes on records neither a dispatch nor an outcome. -/
theorem silent_of_chooses {runtime : Runtime σ ν} {command : Command} {action : Action}
    {after : After} {outcomes : List OutcomeRecord} (chosen : Chooses runtime command action after)
    (goesOn : ∀ reply, after ≠ .reply reply) (concluded : OutcomeOf action outcomes)
    (result : Except RuntimeError Unit) : dispatchedBy action result = [] ∧ outcomes = [] := by
  cases chosen with
  | begin | retry | stepIntent | stepBegin =>
    rcases concluded with none | ⟨_, _, same, _⟩
    · exact ⟨rfl, none⟩
    · cases same
  | _ => exact absurd rfl (goesOn _)

/-- **What a command adds**: the dispatch that it answers, and at most the outcome that it records. -/
theorem perform_moves (command : Command) {runtime : Runtime σ ν} {state : DurableRunState}
    (synced : Synced runtime state) :
    ∃ next outcomes, Synced (command.perform runtime).2 next ∧
      DurableRunState.Moves state next (sentBy command (command.perform runtime).1) outcomes ∧
      ConcludedBy command outcomes := by
  have derivation := perform_performs command runtime
  generalize (command.perform runtime).1 = result at derivation ⊢
  generalize (command.perform runtime).2 = reached at derivation ⊢
  induction derivation generalizing state with
  | halt decided =>
    refine ⟨state, [], synced, ?_, .inl rfl⟩
    have nothing : sentBy command ‹_› = [] := by
      cases command with
      | dispatchEffect operationId =>
        obtain ⟨error, rfl⟩ := dispatch_halts decided
        rfl
      | _ => rfl
    rw [nothing]
    exact .refl state
  | failed chosen acted =>
    obtain ⟨next, after, went⟩ := act_synced synced (allowed_of_chooses chosen) acted
    obtain ⟨outcomes, moves, concluded⟩ := went.moves (allowed_of_chooses chosen) synced
    refine ⟨next, outcomes, after, ?_, concludedBy_of_chooses chosen concluded⟩
    have nothing {error : RuntimeError} {action : Action} : dispatchedBy action (.error error) = [] := by
      cases action <;> rfl
    rw [nothing] at moves
    rw [sentBy_error]
    exact moves
  | replied chosen acted =>
    obtain ⟨next, after, went⟩ := act_synced synced (allowed_of_chooses chosen) acted
    obtain ⟨outcomes, moves, concluded⟩ := went.moves (allowed_of_chooses chosen) synced
    refine ⟨next, outcomes, after, ?_, concludedBy_of_chooses chosen concluded⟩
    cases chosen <;> exact moves
  | again chosen acted _ ih =>
    obtain ⟨middle, between, went⟩ := act_synced synced (allowed_of_chooses chosen) acted
    obtain ⟨outcomes, moves, concluded⟩ := went.moves (allowed_of_chooses chosen) synced
    obtain ⟨nothing, rfl⟩ := silent_of_chooses chosen (fun _ same => by cases same) concluded (.ok ())
    rw [nothing] at moves
    obtain ⟨next, later, after, further, last⟩ := ih between
    exact ⟨next, later, after, moves.trans further, last⟩
  | undispatched chosen acted =>
    obtain ⟨middle, between, went⟩ := act_synced synced (allowed_of_chooses chosen) acted
    obtain ⟨outcomes, moves, concluded⟩ := went.moves (allowed_of_chooses chosen) synced
    obtain ⟨nothing, rfl⟩ := silent_of_chooses chosen (fun _ same => by cases same) concluded (.ok ())
    rw [nothing] at moves
    refine ⟨middle, [], between, ?_, .inl rfl⟩
    rw [sentBy_error]
    exact moves
  | misdispatched chosen acted persisted failed =>
    obtain ⟨middle, between, went⟩ := act_synced synced (allowed_of_chooses chosen) acted
    obtain ⟨outcomes, moves, concluded⟩ := went.moves (allowed_of_chooses chosen) synced
    obtain ⟨nothing, rfl⟩ := silent_of_chooses chosen (fun _ same => by cases same) concluded (.ok ())
    have allowed := allowed_dispatch_of_chooses chosen acted persisted
    obtain ⟨next, after, sent⟩ := act_synced between allowed failed
    obtain ⟨later, further, none | ⟨_, _, same, _⟩⟩ := sent.moves allowed between
    · rw [nothing] at moves
      rw [none] at further
      refine ⟨next, [], after, ?_, .inl rfl⟩
      rw [sentBy_error]
      exact moves.trans further
    · cases same
  | dispatched chosen acted persisted recorded =>
    obtain ⟨middle, between, went⟩ := act_synced synced (allowed_of_chooses chosen) acted
    obtain ⟨outcomes, moves, concluded⟩ := went.moves (allowed_of_chooses chosen) synced
    obtain ⟨nothing, rfl⟩ := silent_of_chooses chosen (fun _ same => by cases same) concluded (.ok ())
    have allowed := allowed_dispatch_of_chooses chosen acted persisted
    obtain ⟨next, after, sent⟩ := act_synced between allowed recorded
    obtain ⟨later, further, none | ⟨_, _, same, _⟩⟩ := sent.moves allowed between
    · rw [nothing] at moves
      rw [none] at further
      refine ⟨next, [], after, ?_, .inl rfl⟩
      cases chosen with
      | retry => exact moves.trans further
    · cases same

/-- A dispatch that succeeds leaves one more record. -/
theorem dispatch_recorded {operationId : OperationId} {runtime : Runtime σ ν}
    {state : DurableRunState} (synced : Synced runtime state) {reply : Reply}
    (answered : ((Command.dispatchEffect operationId).perform runtime).1 = .ok reply) :
    ∃ next, Synced ((Command.dispatchEffect operationId).perform runtime).2 next ∧
      (state.dispatchesOf operationId).length < (next.dispatchesOf operationId).length := by
  obtain ⟨next, _, after, moves, _⟩ := perform_moves (.dispatchEffect operationId) synced
  refine ⟨next, after, ?_⟩
  rw [Command.perform, run_map] at answered moves
  cases result : (dispatchEffect operationId runtime).1 with
  | error error =>
    rw [result] at answered
    cases answered
  | ok attemptId =>
    rw [result] at moves
    have added : next.dispatchHistory = state.dispatchHistory ++ [⟨operationId, attemptId⟩] :=
      moves.dispatched
    unfold DurableRunState.dispatchesOf
    rw [added, List.filter_append, List.length_append]
    simp

/-- The successful dispatches of all incarnations are recorded. -/
theorem Driven.counted {history : History ν} {runtime : Runtime σ ν}
    (driven : Driven history runtime) (operationId : OperationId) :
    ∃ state, Synced runtime state ∧
      history.countP (dispatchAnswered operationId) ≤ (state.dispatchesOf operationId).length := by
  induction driven with
  | started clean started =>
    obtain ⟨state, synced⟩ := (Driven.started clean started).synced
    exact ⟨state, synced, Nat.zero_le _⟩
  | @performed history runtime _ operation ih =>
    obtain ⟨state, synced, counted⟩ := ih
    rw [List.countP_append]
    cases answered : dispatchAnswered operationId (operation, (operation.perform runtime).1) with
    | false =>
      simp only [List.countP_singleton, answered, Bool.false_eq_true, if_false, Nat.add_zero]
      refine perform_synced (fun _ state => history.countP (dispatchAnswered operationId) ≤
        (state.dispatchesOf operationId).length) ?_ (fun _ => id) operation synced counted
      intro runtime reached state next action result _ _ acted before
      exact Nat.le_trans before (acted.dispatches_grow.filter _).length_le
    | true =>
      simp only [List.countP_singleton, answered, if_true]
      unfold dispatchAnswered at answered
      split at answered
      · rename_i other reply same
        obtain ⟨rfl, result⟩ := Prod.mk.inj same
        cases of_decide_eq_true answered
        obtain ⟨next, after, grown⟩ := dispatch_recorded synced result
        exact ⟨next, after, Nat.succ_le_of_lt (Nat.lt_of_le_of_lt counted grown)⟩
      · cases answered
  | restored _ same restored ih =>
    obtain ⟨state, synced, counted⟩ := ih
    exact ⟨state, restored.synced same synced, counted⟩

theorem Synced.unique {runtime : Runtime σ ν} {state other : DurableRunState}
    (synced : Synced runtime state) (second : Synced runtime other) : state = other :=
  Option.some.inj (synced.backed.symm.trans second.backed)

theorem Synced.loaded {runtime : Runtime σ ν} {state : DurableRunState}
    (synced : Synced runtime state) :
    DurableStore.loadRun runtime.runId runtime.store = .ok state := by
  rw [FaithfulStore.load, InMemoryDurableStore.loadRun, synced.backed]

/-- The run of a runtime has dispatched no non-idempotent operation twice. -/
theorem Driven.single {history : History ν} {runtime : Runtime σ ν}
    (driven : Driven history runtime) : ∃ state, Synced runtime state ∧ state.Single := by
  refine driven.invariant (fun _ state => state.Single) ?_
    (fun allowed synced acted single => acted.single allowed synced single) (fun _ => id)
    (fun _ _ _ => id)
  intro store runtime clean started state synced
  obtain ⟨_, _, _, _, identity, _, _, built, inner⟩ := started.inner
  obtain ⟨first, _⟩ := startWithIdentity_synced clean built inner
  rw [synced.unique first]
  intro operationId intent prepared
  simp [DurableRunState.started, DurableRunState.recordCommit, DurableRunState.new] at prepared

/-- **A non-idempotent effect is dispatched at most once.** Over all incarnations of a run, its
operation occurs at most once among the durable dispatches and at most one dispatch of it succeeded,
and no attempt is dispatched twice. -/
theorem nonIdempotent_dispatched_once (history : History ν) (runtime : Runtime σ ν)
    (driven : Driven history runtime) :
    ∃ state, DurableStore.loadRun runtime.runId runtime.store = .ok state ∧
      (∀ (operationId : OperationId) (intent : EffectIntent),
        state.intents[operationId]? = some intent → intent.semantics = .nonIdempotent →
        (state.dispatchHistory.filter fun dispatch => dispatch.operationId = operationId).length ≤ 1 ∧
          history.countP (dispatchAnswered operationId) ≤ 1) ∧
      (state.dispatchHistory.map DispatchRecord.attemptId).Nodup := by
  obtain ⟨state, synced, single⟩ := driven.single
  refine ⟨state, synced.loaded, fun operationId intent prepared exclusive => ?_,
    synced.coherent.owned.lineage.dispatches.unique⟩
  have once := single operationId intent prepared exclusive
  obtain ⟨other, again, counted⟩ := driven.counted operationId
  cases synced.unique again
  exact ⟨once, Nat.le_trans counted once⟩

end Runtime

/-! ### A sample run -/

namespace Runtime

variable {σ ν : Type} [Postcard] [FaithfulStore σ]

/-- The answers of operations performed one after the other. -/
def answers (runtime : Runtime σ ν) : List (Operation ν) → History ν
  | [] => []
  | operation :: rest =>
    (operation, (operation.perform runtime).1) :: (operation.perform runtime).2.answers rest

theorem Driven.performAll {history : History ν} {runtime : Runtime σ ν}
    (driven : Driven history runtime) (operations : List (Operation ν)) :
    Driven (history ++ runtime.answers operations) (runtime.performAll operations) := by
  induction operations generalizing history runtime with
  | nil =>
    rw [answers, List.append_nil]
    exact driven
  | cons operation rest ih =>
    have after := ih (driven.performed operation)
    rw [List.append_assoc] at after
    exact after

end Runtime

theorem sampleStarted_driven [Postcard] {runtime : Runtime InMemoryDurableStore Unit}
    (started : sampleStarted = .ok runtime) : Runtime.Driven [] runtime :=
  .started InMemoryDurableStore.allReachable_new
    (.run (.batch .empty sampleWorkflow_built) (Prod.ext started rfl))

/-- The sample operation, never safe to repeat, is dispatched twice. -/
def sampleExclusive : List (Operation Unit) :=
  [.command (.recordEffectIntent sampleTask sampleOperation .nonIdempotent),
    .command (.dispatchEffect sampleOperation), .command (.dispatchEffect sampleOperation)]

/-- The second dispatch needs reconciliation; it is refused by the runtime, not by the store. -/
theorem store_checks_implied_sample :
    let _ := Persisted.postcard
    ∃ runtime, sampleStarted = .ok runtime ∧
      ((Operation.command (.dispatchEffect sampleOperation) : Operation Unit).perform
        (runtime.performAll sampleExclusive)).1 = .error (.reconciliationRequired sampleOperation) ∧
      ∀ error, ((Operation.command (.dispatchEffect sampleOperation) : Operation Unit).perform
        (runtime.performAll sampleExclusive)).1 = .error (.store error) →
        (∀ invariant, error ≠ .invariantViolation invariant) ∧
          ∀ expected actual, error ≠ .revisionConflict expected actual := by
  intro _
  obtain ⟨runtime, started, holds⟩ := exists_ok_of_any
    (show (sampleStarted.toOption.any fun runtime =>
      ((Operation.command (.dispatchEffect sampleOperation) : Operation Unit).perform
        (runtime.performAll sampleExclusive)).1 =
          .error (.reconciliationRequired sampleOperation)) = true by decide +kernel)
  have driven := (sampleStarted_driven started).performAll sampleExclusive
  exact ⟨runtime, started, of_decide_eq_true holds,
    fun error => (Runtime.store_checks_implied _ _ driven).1 _ error⟩

/-- The sample operation is dispatched once. -/
theorem nonIdempotent_dispatched_once_sample :
    let _ := Persisted.postcard
    ∃ runtime, sampleStarted = .ok runtime ∧
      (runtime.answers sampleExclusive).countP (Runtime.dispatchAnswered sampleOperation) = 1 ∧
      ∃ state, InMemoryDurableStore.loadRun sampleRun (runtime.performAll sampleExclusive).store =
        .ok state ∧ (state.dispatchHistory.map DispatchRecord.attemptId).Nodup := by
  intro _
  obtain ⟨runtime, started, holds⟩ := exists_ok_of_any
    (show (sampleStarted.toOption.any fun runtime =>
      (runtime.answers sampleExclusive).countP (Runtime.dispatchAnswered sampleOperation) = 1 ∧
        (runtime.performAll sampleExclusive).runId = sampleRun) = true by decide +kernel)
  obtain ⟨counted, same⟩ := of_decide_eq_true holds
  have driven := (sampleStarted_driven started).performAll sampleExclusive
  obtain ⟨state, loaded, _, distinct⟩ := Runtime.nonIdempotent_dispatched_once _ _ driven
  rw [same] at loaded
  exact ⟨runtime, started, counted, state, loaded, distinct⟩

end Kernis
