/-
**Lost acknowledgements.**

`LossyStore` is an in-memory store that loses one acknowledgement: the commit takes effect, and the
caller gets an error. A command that met the loss is called again over the healthy store.

* `replay_commit` — the second of two equal commits answers the revision of the first and changes
  nothing, so an action whose acknowledgement was lost succeeds when it is repeated (`act_replayed`).
* `lost_acknowledgement_transparent_iff` — the repetition is indistinguishable from a run without the loss, except for
  one case: the retry of an unknown outcome admits an attempt and dispatches it, and when the
  dispatch is the lost commit, the repetition admits another attempt.
-/

import Kernis.Recovery.Persisted
import Kernis.Runtime.Performs

namespace Kernis

open Std Fallible

section Loss

variable [Postcard]

/-! ### A store that loses one acknowledgement -/

/-- An in-memory store that reports `failure` instead of one acknowledgement, after `countdown`
others. -/
structure LossyStore where
  inner : InMemoryDurableStore
  countdown : Option Nat
  failure : StoreError

namespace LossyStore

/-- Answers a commit that took effect, or loses the answer. -/
def acknowledge (store : LossyStore) (result : CommitResult) (inner : InMemoryDurableStore) :
    Except StoreError CommitResult × LossyStore :=
  match store.countdown with
  | none => (.ok result, { store with inner := inner })
  | some 0 => (.error store.failure, { store with inner := inner, countdown := none })
  | some (rest + 1) => (.ok result, { store with inner := inner, countdown := some rest })

/-- Commits, and answers or loses the answer; a refusal is answered as it is. -/
def commit (request : CommitRequest) (store : LossyStore) :
    Except StoreError CommitResult × LossyStore :=
  match store.inner.commit request with
  | (.error error, inner) => (.error error, { store with inner := inner })
  | (.ok result, inner) => store.acknowledge result inner

instance : DurableStore LossyStore where
  createRun runId store :=
    ((store.inner.createRun runId).1, { store with inner := (store.inner.createRun runId).2 })
  loadRun runId store := store.inner.loadRun runId
  commit := commit

end LossyStore

/-- **Committing the same request twice**: the second answer is the revision of the first. -/
theorem InMemoryDurableStore.replay_commit {store next : InMemoryDurableStore}
    {request : CommitRequest} {result : CommitResult}
    (committed : store.commit request = (.ok result, next)) :
    next.commit request = (.ok ⟨result.revision, true⟩, next) := by
  rcases store.commit_cases request with ⟨same, never⟩ | ⟨state, reached, found, nonempty, fresh⟩
  · rw [committed] at same never
    cases same
    rcases result with ⟨revision, replayed⟩
    cases replayed with
    | true => exact committed
    | false => exact absurd rfl (never revision)
  · rw [commit_of_fresh found nonempty fresh] at committed
    cases committed
    obtain ⟨candidate, _, rfl⟩ := fresh.applied
    unfold commit
    rw [if_neg nonempty, lookup_insert, if_pos rfl]
    simp only [DurableRunState.commit, DurableRunState.recordCommit, lookup_insert, if_true]

namespace Runtime

variable {ν : Type}

/-! ### Runtimes over another store -/

omit [Postcard] in
theorem settle_onStore {σ τ : Type} (action : Action) (runtime : Runtime σ ν) (store : τ) :
    action.settle (runtime.onStore store) =
      ((action.settle runtime).1, (action.settle runtime).2.onStore store) := by
  cases action with
  | admission attempt =>
    rw [settle_admission, settle_admission]
    simp only [onStore]
    split
    · rfl
    · split
      · rfl
      · split
        · rfl
        · rfl
  | complete fact workflow =>
    rw [settle_complete, settle_complete]
    simp only [onStore]
    split
    · rfl
    · split
      · rfl
      · rfl
  | _ => rfl

omit [Postcard] in
/-- A decision does not look at the store. -/
theorem decide_onStore {σ τ : Type} (command : Command) (runtime : Runtime σ ν) (store : τ) :
    command.decide (runtime.onStore store) = command.decide runtime := by
  cases command <;> rfl

/-- **An action whose effect is already in the store succeeds as it did.** -/
theorem act_replayed {action : Action} {runtime : Runtime InMemoryDurableStore ν}
    {result : CommitResult} {store : InMemoryDurableStore}
    (committed : runtime.store.commit (action.request runtime) = (.ok result, store)) :
    act action (runtime.onStore store) = act action runtime := by
  rw [act_eq, act_eq]
  have first : DurableStore.commit (action.request runtime) runtime.store = (.ok result, store) :=
    committed
  have second : DurableStore.commit (action.request (runtime.onStore store))
      (runtime.onStore store).store = (.ok ⟨result.revision, true⟩, store) :=
    InMemoryDurableStore.replay_commit committed
  rw [first, second]
  rfl

/-! ### Meeting a loss and calling again -/

/-- The runtime over a store that will lose an acknowledgement. -/
def losing (runtime : Runtime InMemoryDurableStore ν) (countdown : Nat) (failure : StoreError) :
    Runtime LossyStore ν :=
  runtime.onStore ⟨runtime.store, some countdown, failure⟩

/-- The runtime over the store as the loss left it. -/
def healed (runtime : Runtime LossyStore ν) : Runtime InMemoryDurableStore ν :=
  runtime.onStore runtime.store.inner

/-- The command met the loss: one of its commits took effect and was answered with an error. -/
def Lost (command : Command) (runtime : Runtime InMemoryDurableStore ν) (countdown : Nat)
    (failure : StoreError) : Prop :=
  (command.perform (runtime.losing countdown failure)).2.store.countdown = none

instance (command : Command) (runtime : Runtime InMemoryDurableStore ν) (countdown : Nat)
    (failure : StoreError) : Decidable (Lost command runtime countdown failure) :=
  inferInstanceAs (Decidable (_ = none))

/-- The command called again after the loss. -/
def repeated (command : Command) (runtime : Runtime InMemoryDurableStore ν) (countdown : Nat)
    (failure : StoreError) : Except RuntimeError Reply × Runtime InMemoryDurableStore ν :=
  command.perform (command.perform (runtime.losing countdown failure)).2.healed

/-- The repetition cannot be told from the command without the loss. -/
structure Transparent (command : Command) (runtime : Runtime InMemoryDurableStore ν)
    (countdown : Nat) (failure : StoreError) : Prop where
  reply : (repeated command runtime countdown failure).1 = (command.perform runtime).1
  store : (repeated command runtime countdown failure).2.store = (command.perform runtime).2.store
  workflow : (repeated command runtime countdown failure).2.workflow =
    (command.perform runtime).2.workflow
  journal : (repeated command runtime countdown failure).2.journal =
    (command.perform runtime).2.journal
  attempts : (repeated command runtime countdown failure).2.attempts =
    (command.perform runtime).2.attempts
  nextAttemptNumber : (repeated command runtime countdown failure).2.nextAttemptNumber =
    (command.perform runtime).2.nextAttemptNumber

/-- The lost commit is the second one of a dispatch that retries an unknown outcome. -/
def Redispatches (command : Command) (runtime : Runtime InMemoryDurableStore ν)
    (countdown : Nat) : Prop :=
  ∃ operationId, command = .dispatchEffect operationId ∧
    runtime.journal.state operationId = .outcomeUnknown ∧ countdown = 1

omit [Postcard] in
theorem settle_store {σ : Type} (action : Action) (runtime : Runtime σ ν) :
    (action.settle runtime).2.store = runtime.store := by
  have same := settle_onStore action runtime runtime.store
  exact congrArg (fun result => result.2.store) same

/-- An action over a store that will lose a later acknowledgement. -/
theorem act_losing {action : Action} {runtime : Runtime InMemoryDurableStore ν}
    {result : CommitResult} {store : InMemoryDurableStore}
    (committed : runtime.store.commit (action.request runtime) = (.ok result, store)) (rest : Nat)
    (failure : StoreError) :
    act action (runtime.losing (rest + 1) failure) =
      ((act action runtime).1, (act action runtime).2.losing rest failure) := by
  have direct : DurableStore.commit (action.request runtime) runtime.store = (.ok result, store) :=
    committed
  have lossy : DurableStore.commit (action.request (runtime.losing (rest + 1) failure))
      (runtime.losing (rest + 1) failure).store = (.ok result, ⟨store, some rest, failure⟩) := by
    show LossyStore.commit (action.request runtime) ⟨runtime.store, some (rest + 1), failure⟩ = _
    rw [LossyStore.commit, committed]
    rfl
  rw [act_eq, act_eq, lossy, direct]
  have kept := settle_store action (runtime.accepted store result.revision)
  exact (settle_onStore action (runtime.accepted store result.revision)
    (⟨store, some rest, failure⟩ : LossyStore)).trans (by rw [losing, kept]; rfl)

/-- An action whose acknowledgement is lost. -/
theorem act_lost {action : Action} {runtime : Runtime InMemoryDurableStore ν}
    {result : CommitResult} {store : InMemoryDurableStore}
    (committed : runtime.store.commit (action.request runtime) = (.ok result, store))
    (failure : StoreError) :
    act action (runtime.losing 0 failure) =
      (.error (.store failure), runtime.onStore ⟨store, none, failure⟩) := by
  have lossy : DurableStore.commit (action.request (runtime.losing 0 failure))
      (runtime.losing 0 failure).store = (.error failure, ⟨store, none, failure⟩) := by
    show LossyStore.commit (action.request runtime) ⟨runtime.store, some 0, failure⟩ = _
    rw [LossyStore.commit, committed]
    rfl
  rw [act_eq, lossy]
  rfl

/-- An action that the store refuses loses nothing. -/
theorem act_refused {action : Action} {runtime : Runtime InMemoryDurableStore ν}
    {error : StoreError} {store : InMemoryDurableStore}
    (refused : runtime.store.commit (action.request runtime) = (.error error, store))
    (countdown : Nat) (failure : StoreError) :
    act action (runtime.losing countdown failure) =
      (.error (.store error), runtime.onStore ⟨store, some countdown, failure⟩) := by
  have lossy : DurableStore.commit (action.request (runtime.losing countdown failure))
      (runtime.losing countdown failure).store =
        (.error error, ⟨store, some countdown, failure⟩) := by
    show LossyStore.commit (action.request runtime) ⟨runtime.store, some countdown, failure⟩ = _
    rw [LossyStore.commit, refused]
  rw [act_eq, lossy]
  rfl

/-- A decision carried out over a losing store. -/
theorem execute_losing {command : Command} {runtime : Runtime InMemoryDurableStore ν}
    {countdown : Nat} {failure : StoreError} {decision : Decision}
    (decided : command.decide runtime = decision) :
    command.perform (runtime.losing countdown failure) =
      command.execute decision (runtime.losing countdown failure) := by
  rw [Command.perform_eq, losing, decide_onStore, decided]

/-- **Where a loss can strike**: at the command's first action, or after that action succeeded. -/
theorem lost_cases {command : Command} {action : Action} {after : After}
    {runtime : Runtime InMemoryDurableStore ν} {countdown : Nat} {failure : StoreError}
    (lost : (command.execute (.act action after) (runtime.losing countdown failure)).2.store.countdown =
      none) :
    ∃ result store, runtime.store.commit (action.request runtime) = (.ok result, store) ∧
      ((countdown = 0 ∧ (command.execute (.act action after) (runtime.losing countdown failure)).2 =
          runtime.onStore ⟨store, none, failure⟩) ∨
        ∃ rest reached, countdown = rest + 1 ∧ act action runtime = (.ok (), reached) ∧
          command.execute (.act action after) (runtime.losing countdown failure) =
            command.follow after (reached.losing rest failure)) := by
  rw [Command.execute, run_bind] at lost ⊢
  rcases committed : runtime.store.commit (action.request runtime) with ⟨error | result, store⟩
  · rw [act_refused committed] at lost
    cases lost
  · refine ⟨result, store, rfl, ?_⟩
    rcases countdown with _ | rest
    · rw [act_lost committed]
      exact .inl ⟨rfl, rfl⟩
    · rw [act_losing committed] at lost ⊢
      rcases acted : act action runtime with ⟨_ | _, reached⟩
      · rw [acted] at lost
        cases lost
      · exact .inr ⟨rest, reached, rfl, rfl, rfl⟩


/-- Dispatching an attempt over a losing store loses at most its one commit. -/
theorem dispatch_lost {command : Command} {operationId : OperationId} {attemptId : AttemptId}
    {runtime : Runtime InMemoryDurableStore ν} {countdown : Nat} {failure : StoreError}
    (lost : (command.follow (.dispatch operationId attemptId)
      (runtime.losing countdown failure)).2.store.countdown = none) :
    countdown = 0 ∧ ∃ journal result store,
      runtime.decideDispatch operationId attemptId =
        .act (.dispatch ⟨operationId, attemptId⟩ journal) (.reply (.dispatched attemptId)) ∧
      runtime.store.commit (Action.request (.dispatch ⟨operationId, attemptId⟩ journal) runtime) =
        (.ok result, store) ∧
      (command.follow (.dispatch operationId attemptId) (runtime.losing countdown failure)).2 =
        runtime.onStore ⟨store, none, failure⟩ := by
  have same : command.follow (.dispatch operationId attemptId) (runtime.losing countdown failure) =
      command.execute (runtime.decideDispatch operationId attemptId)
        (runtime.losing countdown failure) :=
    (execute_decideDispatch command operationId attemptId
      (runtime.losing countdown failure)).symm
  rw [same] at lost ⊢
  cases decided : runtime.decideDispatch operationId attemptId with
  | halt result =>
    rw [decided] at lost
    cases lost
  | act action after =>
    have chosen : ∃ journal, action = .dispatch ⟨operationId, attemptId⟩ journal ∧
        after = .reply (.dispatched attemptId) := by
      unfold decideDispatch at decided
      split at decided
      · cases decided
      · cases decided
        exact ⟨_, rfl, rfl⟩
    obtain ⟨journal, rfl, rfl⟩ := chosen
    rw [decided] at lost
    obtain ⟨result, store, committed, ⟨zero, left⟩ | ⟨rest, reached, _, _, executed⟩⟩ :=
      lost_cases lost
    · exact ⟨zero, journal, result, store, rfl, committed, left⟩
    · rw [executed] at lost
      cases lost

/-- **Where nothing is redispatched, the repetition is the command itself.** -/
theorem repeated_eq {command : Command} {runtime : Runtime InMemoryDurableStore ν}
    {countdown : Nat} {failure : StoreError} (lost : Lost command runtime countdown failure)
    (single : ¬ Redispatches command runtime countdown) :
    repeated command runtime countdown failure = command.perform runtime := by
  induction countdown generalizing runtime with
  | zero =>
    unfold Lost at lost
    unfold repeated
    cases decided : command.decide runtime with
    | halt result =>
      rw [execute_losing decided] at lost
      cases lost
    | act action after =>
      rw [execute_losing decided] at lost ⊢
      obtain ⟨result, store, committed, ⟨_, left⟩ | ⟨rest, _, absurd, _⟩⟩ := lost_cases lost
      · rw [left, Command.perform_eq, Command.perform_eq]
        show command.execute (command.decide (runtime.onStore store)) (runtime.onStore store) = _
        rw [decide_onStore, decided, Command.execute, run_bind, run_bind, act_replayed committed]
      · cases absurd
  | succ rest ih =>
    unfold Lost at lost
    unfold repeated
    cases decided : command.decide runtime with
    | halt result =>
      rw [execute_losing decided] at lost
      cases lost
    | act action after =>
      rw [execute_losing decided] at lost ⊢
      obtain ⟨result, store, committed, ⟨absurd, _⟩ | ⟨_, reached, same, acted, executed⟩⟩ :=
        lost_cases lost
      · cases absurd
      · cases same
        rw [executed] at lost ⊢
        have followed : command.perform runtime = command.follow after reached := by
          rw [Command.perform_eq, decided, Command.execute, run_bind, acted]
        rw [followed]
        have chosen := decide_chooses decided
        cases after with
        | reply reply => cases lost
        | again =>
          refine ih lost ?_
          rintro ⟨operationId, rfl, unknown, _⟩
          cases chosen with
          | begin found live prepared missing pinned =>
            obtain ⟨_, _, _, _, rfl⟩ := act_admit_ok acted
            exact absurd (prepared.symm.trans unknown) (by decide)
        | dispatch operationId attemptId =>
          obtain ⟨rfl, _⟩ := dispatch_lost lost
          cases chosen with
          | retry found live unknown idempotent pinned =>
            exact absurd ⟨operationId, rfl, unknown, rfl⟩ single

omit [Postcard] in
/-- A dispatch that retries an unknown outcome answers the next attempt. -/
theorem redispatch_reply {σ : Type} [DurableStore σ] {operationId : OperationId}
    {attemptId : AttemptId} {runtime : Runtime σ ν}
    (unknown : runtime.journal.state operationId = .outcomeUnknown)
    (answered : ((Command.dispatchEffect operationId).perform runtime).1 =
      .ok (.dispatched attemptId)) :
    attemptId = generatedAttemptId runtime.runId runtime.nextAttemptNumber := by
  rw [Command.perform_eq] at answered
  cases decided : (Command.dispatchEffect operationId).decide runtime with
  | halt result =>
    obtain ⟨error, rfl⟩ := dispatch_halts decided
    rw [decided] at answered
    cases answered
  | act action after =>
    rw [decided, Command.execute, run_bind] at answered
    cases decide_chooses decided with
    | dispatch found live prepared => exact absurd (prepared.symm.trans unknown) (by decide)
    | begin found live prepared => exact absurd (prepared.symm.trans unknown) (by decide)
    | retry found live _ idempotent pinned =>
      split at answered
      · rename_i reached _
        rw [Command.follow, run_map] at answered
        cases recorded : (recordDispatch operationId
            (generatedAttemptId runtime.runId runtime.nextAttemptNumber) reached).1 with
        | error error =>
          rw [recorded] at answered
          cases answered
        | ok answer =>
          rw [recorded] at answered
          cases answered
          exact recordDispatch_value recorded
      · cases answered

/-- **A redispatch answers another attempt.** -/
theorem repeated_ne {command : Command} {runtime : Runtime InMemoryDurableStore ν}
    {countdown : Nat} {failure : StoreError} (lost : Lost command runtime countdown failure)
    (double : Redispatches command runtime countdown) :
    (repeated command runtime countdown failure).1 ≠ (command.perform runtime).1 := by
  obtain ⟨operationId, rfl, unknown, rfl⟩ := double
  unfold Lost at lost
  unfold repeated
  cases decided : (Command.dispatchEffect operationId).decide runtime with
  | halt result =>
    rw [execute_losing decided] at lost
    cases lost
  | act action after =>
    rw [execute_losing decided] at lost ⊢
    obtain ⟨result, store, committed, ⟨absurd, _⟩ | ⟨rest, reached, same, acted, executed⟩⟩ :=
      lost_cases lost
    · cases absurd
    · cases same
      rw [executed] at lost ⊢
      have followed : (Command.dispatchEffect operationId).perform runtime =
          (Command.dispatchEffect operationId).follow after reached := by
        rw [Command.perform_eq, decided, Command.execute, run_bind, acted]
      rw [followed]
      cases decide_chooses decided with
      | dispatch found live prepared => exact absurd (prepared.symm.trans unknown) (by decide)
      | begin found live prepared => exact absurd (prepared.symm.trans unknown) (by decide)
      | retry found live _ idempotent pinned =>
        obtain ⟨_, journal, result', store', dispatching, committed', left⟩ := dispatch_lost lost
        obtain ⟨_, _, sequencer, events, same⟩ := act_admit_ok acted
        have direct : ((Command.dispatchEffect operationId).follow (.dispatch operationId
            (generatedAttemptId runtime.runId runtime.nextAttemptNumber)) reached).1 =
            .ok (.dispatched (generatedAttemptId runtime.runId runtime.nextAttemptNumber)) := by
          have same := execute_decideDispatch (.dispatchEffect operationId) operationId
            (generatedAttemptId runtime.runId runtime.nextAttemptNumber) reached
          have effective : DurableStore.commit (Action.request (.dispatch ⟨operationId,
              generatedAttemptId runtime.runId runtime.nextAttemptNumber⟩ journal) reached)
              reached.store = (.ok result', store') := committed'
          rw [Command.follow, ← same, dispatching, execute_reply, run_map, act_eq, effective]
          rfl
        rw [direct, left]
        intro equal
        have answer := redispatch_reply (by rw [same]; exact unknown) equal
        rw [same] at answer
        have number := generatedAttemptId_injective runtime.runId answer
        exact absurd number (Nat.ne_of_lt (Nat.lt_succ_self _))

/-- **Lost acknowledgements are transparent**, except where a dispatch that retries an unknown
outcome loses its second commit. -/
theorem lost_acknowledgement_transparent_iff (command : Command) (runtime : Runtime InMemoryDurableStore ν)
    (countdown : Nat) (failure : StoreError) (lost : Lost command runtime countdown failure) :
    Transparent command runtime countdown failure ↔
      ¬ ∃ operationId, command = .dispatchEffect operationId ∧
        runtime.journal.state operationId = .outcomeUnknown ∧ countdown = 1 := by
  refine ⟨fun transparent double => repeated_ne lost double transparent.reply, fun single => ?_⟩
  have same := repeated_eq lost single
  exact ⟨by rw [same], by rw [same], by rw [same], by rw [same], by rw [same], by rw [same]⟩

end Runtime

end Loss

/-! ### A loss that is repaired, and one that is not -/

/-- Recording an intent survives the loss of its acknowledgement. -/
theorem lost_intent_transparent :
    let _ := Persisted.postcard
    ∃ runtime, sampleStarted = .ok runtime ∧
      Runtime.Lost (.recordEffectIntent sampleTask sampleOperation .idempotent) runtime 0
        .backendUnavailable ∧
      Runtime.Transparent (.recordEffectIntent sampleTask sampleOperation .idempotent) runtime 0
        .backendUnavailable := by
  intro _
  obtain ⟨runtime, started, holds⟩ := exists_ok_of_any
    (show (sampleStarted.toOption.any fun runtime =>
      Runtime.Lost (.recordEffectIntent sampleTask sampleOperation .idempotent) runtime 0
        .backendUnavailable) = true by decide +kernel)
  have lost := of_decide_eq_true holds
  refine ⟨runtime, started, lost,
    (Runtime.lost_acknowledgement_transparent_iff _ runtime 0 _ lost).mpr ?_⟩
  rintro ⟨operationId, other, _⟩
  cases other

/-- The sample operation, safe to repeat, is dispatched once and its outcome stays unknown. -/
def sampleUnknown : List (Operation Unit) :=
  [.command (.recordEffectIntent sampleTask sampleOperation .idempotent),
    .command (.dispatchEffect sampleOperation)]

/-- Dispatching it again and losing the second acknowledgement: the repetition is refused, while
without the loss it answers the second attempt. -/
theorem lost_redispatch_not_transparent :
    let _ := Persisted.postcard
    ∃ runtime, sampleStarted = .ok runtime ∧
      Runtime.Lost (.dispatchEffect sampleOperation) (runtime.performAll sampleUnknown) 1
        .backendUnavailable ∧
      ((Command.dispatchEffect sampleOperation).perform (runtime.performAll sampleUnknown)).1 =
        .ok (.dispatched ⟨⟨"run-attempt-2".toList, by decide⟩⟩) ∧
      (Runtime.repeated (.dispatchEffect sampleOperation) (runtime.performAll sampleUnknown) 1
        .backendUnavailable).1 = .error (.store (.revisionConflict 5 6)) ∧
      ¬ Runtime.Transparent (.dispatchEffect sampleOperation) (runtime.performAll sampleUnknown) 1
        .backendUnavailable := by
  intro _
  obtain ⟨runtime, started, holds⟩ := exists_ok_of_any
    (show (sampleStarted.toOption.any fun runtime =>
      Runtime.Lost (.dispatchEffect sampleOperation) (runtime.performAll sampleUnknown) 1
          .backendUnavailable ∧
        ((Command.dispatchEffect sampleOperation).perform (runtime.performAll sampleUnknown)).1 =
          .ok (.dispatched ⟨⟨"run-attempt-2".toList, by decide⟩⟩) ∧
        (Runtime.repeated (.dispatchEffect sampleOperation) (runtime.performAll sampleUnknown) 1
          .backendUnavailable).1 = .error (.store (.revisionConflict 5 6))) = true by
      decide +kernel)
  obtain ⟨lost, direct, again⟩ := of_decide_eq_true holds
  refine ⟨runtime, started, lost, direct, again, fun transparent => ?_⟩
  have same := transparent.reply
  rw [direct, again] at same
  cases same

end Kernis
