/-
**The states a durable store can reach.**

* `FreshCommit` — an accepted commit that is not an idempotent replay; `commit_iff` says that a
  commit which returns is one or the other.
* `Reachable runId state` — `state` is reached from the fresh run by fresh commits.
  `Reachable.invariant` is the induction rule.
* `DurableStore.calls` — a store driven by any sequence of calls. `reachable_of_calls`: every state
  it ever loads is reachable.
-/

import Kernis.Recovery.Accepted

namespace Kernis

open Std

namespace DurableRunState

/-! ### Commits -/

section Commits

variable [Postcard] {state next : DurableRunState} {request : CommitRequest} {result : CommitResult}

/-- A fresh commit: a new key at the head revision, whose batch the validator accepts. -/
structure FreshCommit (state : DurableRunState) (request : CommitRequest)
    (next : DurableRunState) : Prop where
  newKey : request.idempotencyKey ∉ state.idempotency
  atHead : request.expectedRevision = state.revision
  room : state.revision < u64Max
  applied : ∃ candidate, state.applyMutations request.mutations = .ok candidate ∧
    next = candidate.recordCommit request.idempotencyKey request.mutations (state.revision + 1)

/-- **What a commit that returns does**: it replays a batch stored under its key, or it is fresh. -/
theorem commit_iff :
    state.commit request = .ok (result, next) ↔
      ((∃ revision, state.idempotency[request.idempotencyKey]? =
          some (request.mutations, revision)) ∧
        result = ⟨state.revision, true⟩ ∧ next = state) ∨
      (FreshCommit state request next ∧ result = ⟨state.revision + 1, false⟩) := by
  unfold commit
  constructor
  · intro committed
    split at committed
    · rename_i existing revision found
      split at committed
      · cases committed
        subst_vars
        exact .inl ⟨⟨revision, found⟩, rfl, rfl⟩
      · cases committed
    · rename_i unknown
      split at committed
      · cases committed
      · rename_i atHead
        split at committed
        · cases committed
        · rename_i revision advanced
          obtain ⟨room, rfl⟩ := checkedNext_eq_some advanced
          split at committed
          · cases committed
          · rename_i candidate applied
            cases committed
            exact .inr ⟨⟨not_mem_of_lookup_none unknown, not_not.mp atHead, room, candidate,
              applied, rfl⟩, rfl⟩
  · rintro (⟨⟨revision, found⟩, rfl, rfl⟩ | ⟨⟨newKey, atHead, room, candidate, applied, rfl⟩, rfl⟩)
    · rw [found]
      exact if_pos rfl
    · rw [lookup_none_of_not_mem newKey]
      simp only [atHead, ne_eq, not_true_eq_false, if_false, checkedNext_of_lt room, applied]

theorem kind_of_commit_error {error : StoreError} (rejected : state.commit request = .error error) :
    error.kind = .domain := by
  unfold commit at rejected
  split at rejected
  · split at rejected <;> cases rejected
    rfl
  · split at rejected
    · cases rejected
      rfl
    · split at rejected
      · cases rejected
        rfl
      · split at rejected
        · cases rejected
          exact kind_of_applyMutations_error ‹_›
        · cases rejected

/-- **A durable state of the run, reached by fresh commits only.** -/
inductive Reachable (runId : RunId) : DurableRunState → Prop
  | new : Reachable runId (.new runId)
  | commit {state next : DurableRunState} {request : CommitRequest} :
      Reachable runId state →
      request.runId = runId →
      request.mutations ≠ [] →
      FreshCommit state request next →
      Reachable runId next

/-- **Run induction.** What holds of a fresh run, is kept by every accepted mutation and does not
depend on the head, holds in every reachable state. -/
theorem Reachable.invariant {runId : RunId} (Inv : DurableRunState → Prop)
    (fresh : Inv (.new runId))
    (step : ∀ {state mutation next}, Accepted state mutation next → Inv state → Inv next)
    (head : ∀ {state key mutations revision}, Inv state →
      Inv (state.recordCommit key mutations revision))
    (reached : Reachable runId state) : Inv state := by
  induction reached with
  | new => exact fresh
  | commit _ _ _ committed ih =>
    obtain ⟨candidate, applied, rfl⟩ := committed.applied
    exact head (applyMutations_preserves step applied ih)

theorem Reachable.runId_eq {runId : RunId} (reached : Reachable runId state) :
    state.runId = runId :=
  reached.invariant (·.runId = runId) rfl
    (fun accepted same => accepted.sameHead.runId.trans same) id

end Commits

end DurableRunState

/-! ### Calls of a durable store -/

/-- One call of the persistence port. -/
inductive StoreCall
  | createRun (runId : RunId)
  | loadRun (runId : RunId)
  | commit (request : CommitRequest)
deriving DecidableEq

/-- What the port answers. -/
inductive StoreReply
  | created (result : Except StoreError Nat)
  | loaded (result : Except StoreError DurableRunState)
  | committed (result : Except StoreError CommitResult)
deriving DecidableEq

namespace DurableStore

variable {σ : Type} [DurableStore σ]

/-- Performs one call. -/
def call : StoreCall → σ → StoreReply × σ
  | .createRun runId, store => ((.created (createRun runId store).1), (createRun runId store).2)
  | .loadRun runId, store => (.loaded (loadRun runId store), store)
  | .commit request, store => (.committed (commit request store).1, (commit request store).2)

/-- Performs a sequence of calls and collects the answers. -/
def calls : List StoreCall → σ → List StoreReply × σ
  | [], store => ([], store)
  | one :: rest, store =>
    let reply := call one store
    let others := calls rest reply.2
    (reply.1 :: others.1, others.2)

/-- **Call induction.** What every call preserves, a sequence of calls preserves. -/
theorem calls_preserves {Inv : σ → Prop} (step : ∀ one store, Inv store → Inv (call one store).2)
    (sequence : List StoreCall) (store : σ) (before : Inv store) :
    Inv (calls sequence store).2 := by
  induction sequence generalizing store with
  | nil => exact before
  | cons one rest ih => exact ih _ (step one store before)

theorem calls_append (first second : List StoreCall) (store : σ) :
    (calls (first ++ second) store).2 = (calls second (calls first store).2).2 := by
  induction first generalizing store with
  | nil => rfl
  | cons one rest ih => exact ih _

end DurableStore

namespace InMemoryDurableStore

variable [Postcard]

/-- Every run of the store is in a reachable state. -/
def AllReachable (store : InMemoryDurableStore) : Prop :=
  ∀ runId, ∀ state : DurableRunState, store.runs[runId]? = some state → state.Reachable runId

theorem allReachable_new : new.AllReachable := by
  intro runId state found
  simp [new] at found

theorem allReachable_createRun {store : InMemoryDurableStore} (runId : RunId)
    (before : store.AllReachable) : (store.createRun runId).2.AllReachable := by
  unfold createRun
  split
  · exact before
  · intro other state found
    rw [lookup_insert] at found
    split at found
    · rename_i same
      cases found
      subst same
      exact .new
    · exact before other state found

/-- A fresh commit against a stored run. -/
theorem commit_of_fresh {store : InMemoryDurableStore} {request : CommitRequest}
    {state next : DurableRunState} (found : store.runs[request.runId]? = some state)
    (nonempty : request.mutations ≠ []) (fresh : state.FreshCommit request next) :
    store.commit request =
      (.ok ⟨state.revision + 1, false⟩, ⟨store.runs.insert request.runId next⟩) := by
  unfold commit
  rw [if_neg nonempty, found]
  simp only [DurableRunState.commit_iff.mpr (.inr ⟨fresh, rfl⟩)]
  rfl

/-- **A commit of the store**: either nothing is stored and nothing fresh is reported, or the run's
state takes a fresh commit. -/
theorem commit_cases (request : CommitRequest) (store : InMemoryDurableStore) :
    ((store.commit request).2 = store ∧
        ∀ revision, (store.commit request).1 ≠ .ok ⟨revision, false⟩) ∨
      ∃ state next, store.runs[request.runId]? = some state ∧ request.mutations ≠ [] ∧
        state.FreshCommit request next := by
  by_cases empty : request.mutations = []
  · exact .inl (by simp [commit, empty])
  · cases found : store.runs[request.runId]? with
    | none => exact .inl (by simp [commit, empty, found])
    | some state =>
      cases committed : state.commit request with
      | error error => exact .inl (by simp [commit, empty, found, committed])
      | ok outcome =>
        obtain ⟨result, kept⟩ := outcome
        rcases DurableRunState.commit_iff.mp committed with ⟨_, rfl, rfl⟩ | ⟨fresh, _⟩
        · exact .inl (by simp [commit, empty, found, committed])
        · exact .inr ⟨state, kept, rfl, empty, fresh⟩

/-- **The in-memory store rejects a commit only with a domain error.** -/
theorem kind_of_commit_error {request : CommitRequest} {store : InMemoryDurableStore}
    {error : StoreError} (rejected : (store.commit request).1 = .error error) :
    error.kind = .domain := by
  unfold commit at rejected
  split at rejected
  · cases rejected
    rfl
  · split at rejected
    · cases rejected
      rfl
    · split at rejected
      · cases rejected
        exact DurableRunState.kind_of_commit_error ‹_›
      · split at rejected <;> cases rejected

theorem allReachable_commit {store : InMemoryDurableStore} (request : CommitRequest)
    (before : store.AllReachable) : (store.commit request).2.AllReachable := by
  rcases store.commit_cases request with ⟨same, _⟩ | ⟨state, next, found, nonempty, fresh⟩
  · rw [same]
    exact before
  · rw [commit_of_fresh found nonempty fresh]
    intro other held lookup
    rw [lookup_insert] at lookup
    split at lookup
    · rename_i same
      cases lookup
      subst same
      exact .commit (before _ _ found) rfl nonempty fresh
    · exact before other held lookup

/-- **Every state the store ever loads is reachable.** -/
theorem reachable_of_calls (sequence : List StoreCall) {runId : RunId} {state : DurableRunState}
    (loaded : loadRun runId (DurableStore.calls sequence new).2 = .ok state) :
    state.Reachable runId := by
  have all : (DurableStore.calls sequence new).2.AllReachable := by
    refine DurableStore.calls_preserves (fun one store before => ?_) sequence new allReachable_new
    cases one with
    | createRun other => exact allReachable_createRun other before
    | loadRun other => exact before
    | commit request => exact allReachable_commit request before
  unfold loadRun at loaded
  split at loaded
  · cases loaded
  · cases loaded
    exact all _ _ ‹_›

end InMemoryDurableStore

end Kernis
