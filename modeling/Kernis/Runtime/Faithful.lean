/-
**Faithful stores, and one action over a store that nobody else writes to.**

* `FaithfulStore` — a store with a logical content: every call acts on it as the in-memory store
  would, or fails with an error of the backend and leaves it alone. Any pattern of failures is
  allowed.
* `Flaky` — the in-memory store with a list of commits to refuse.
* `Backed runtime state` — the content of the runtime's store holds the run in that state.
* `Acted` — the three ways an action can go: refused without effect, replayed, or fresh.
  `act_acted` derives one of them for every allowed action of a coherent runtime.
-/

import Kernis.Runtime.Coherent

namespace Kernis

open Std Fallible

/-- A store whose calls act on its content as the in-memory store does, or fail without effect. -/
class FaithfulStore (σ : Type) [Postcard] extends DurableStore σ where
  content : σ → InMemoryDurableStore
  load : ∀ runId store, loadRun runId store = (content store).loadRun runId
  create : ∀ runId store,
    ((createRun runId store).1 = ((content store).createRun runId).1 ∧
        content (createRun runId store).2 = ((content store).createRun runId).2) ∨
      (∃ error, (createRun runId store).1 = .error error ∧ error.kind ≠ .domain) ∧
        content (createRun runId store).2 = content store
  commits : ∀ request store,
    ((commit request store).1 = ((content store).commit request).1 ∧
        content (commit request store).2 = ((content store).commit request).2) ∨
      (∃ error, (commit request store).1 = .error error ∧ error.kind ≠ .domain) ∧
        content (commit request store).2 = content store

instance [Postcard] : FaithfulStore InMemoryDurableStore where
  content := id
  load _ _ := rfl
  create _ _ := .inl ⟨rfl, rfl⟩
  commits _ _ := .inl ⟨rfl, rfl⟩

/-- The in-memory store, with a plan that says which of the next commits are refused. -/
structure Flaky where
  inner : InMemoryDurableStore
  plan : List Bool
deriving DecidableEq

namespace Flaky

variable [Postcard]

/-- A planned refusal has no effect; otherwise the commit is made. -/
def commit (request : CommitRequest) (store : Flaky) : Except StoreError CommitResult × Flaky :=
  match store.plan with
  | true :: rest => (.error .backendUnavailable, { store with plan := rest })
  | plan => ((store.inner.commit request).1, ⟨(store.inner.commit request).2, plan.tail⟩)

instance : FaithfulStore Flaky where
  createRun runId store :=
    ((store.inner.createRun runId).1, { store with inner := (store.inner.createRun runId).2 })
  loadRun runId store := store.inner.loadRun runId
  commit := commit
  content := inner
  load _ _ := rfl
  create _ _ := .inl ⟨rfl, rfl⟩
  commits request store := by
    unfold commit
    split
    · exact .inr ⟨⟨_, rfl, by decide⟩, rfl⟩
    · exact .inl ⟨rfl, rfl⟩

end Flaky

/-- An error that is neither a rejected invariant nor a stale revision. -/
def StoreError.Harmless (error : StoreError) : Prop :=
  (∀ invariant, error ≠ .invariantViolation invariant) ∧
    ∀ expected actual, error ≠ .revisionConflict expected actual

theorem StoreError.harmless_of_kind {error : StoreError} (backend : error.kind ≠ .domain) :
    error.Harmless := by
  constructor
  · rintro _ rfl
    exact backend rfl
  · rintro _ _ rfl
    exact backend rfl

namespace Runtime

variable {σ ν : Type} [Postcard] [FaithfulStore σ]

/-- The store of a runtime holds its run in a state. -/
def Backed (runtime : Runtime σ ν) (state : DurableRunState) : Prop :=
  (FaithfulStore.content runtime.store).runs[runtime.runId]? = some state

/-- **How an action can go.** -/
inductive Acted (runtime : Runtime σ ν) (state : DurableRunState) (action : Action) :
    Except RuntimeError Unit → Runtime σ ν → DurableRunState → Prop
  | refused {error : StoreError} {store : σ} (harmless : error.Harmless)
      (same : FaithfulStore.content store = FaithfulStore.content runtime.store) :
      Acted runtime state action (.error (.store error)) (runtime.onStore store) state
  | replayed {store : σ} (repeated : Coherent.Repeats runtime state action)
      (same : FaithfulStore.content store = FaithfulStore.content runtime.store) :
      Acted runtime state action (action.settle (runtime.accepted store state.revision)).1
        (action.settle (runtime.accepted store state.revision)).2 state
  | fresh {store : σ} {candidate : DurableRunState} {key : IdempotencyKey}
      (room : state.revision < u64Max)
      (own : key.text.val = mutationKey state.revision action.mutation)
      (newKey : key ∉ state.idempotency)
      (accepted : DurableRunState.Accepted state action.mutation candidate)
      (stored : FaithfulStore.content store = ⟨(FaithfulStore.content runtime.store).runs.insert
        runtime.runId (candidate.recordCommit key [action.mutation] (state.revision + 1))⟩) :
      Acted runtime state action (action.settle (runtime.accepted store (state.revision + 1))).1
        (action.settle (runtime.accepted store (state.revision + 1))).2
        (candidate.recordCommit key [action.mutation] (state.revision + 1))

omit [FaithfulStore σ] in
theorem own_key {runtime : Runtime σ ν} {state : DurableRunState} (action : Action)
    (coherent : Coherent runtime state) :
    (action.request runtime).idempotencyKey.text.val =
      mutationKey state.revision action.mutation := by
  rw [← coherent.revision, ← action.key_eq]
  rfl

omit [FaithfulStore σ] in
/-- **The commit of an allowed action, against the state that a coherent runtime views.** -/
theorem Coherent.commit_cases {runtime : Runtime σ ν} {state : DurableRunState} {action : Action}
    (allowed : runtime.Allowed action) (coherent : Coherent runtime state) :
    (∃ error, state.commit (action.request runtime) = .error error ∧ error.Harmless) ∨
      (state.commit (action.request runtime) = .ok (⟨state.revision, true⟩, state) ∧
        Repeats runtime state action) ∨
      ∃ candidate, state.revision < u64Max ∧
        (action.request runtime).idempotencyKey ∉ state.idempotency ∧
        DurableRunState.Accepted state action.mutation candidate ∧
        state.commit (action.request runtime) = .ok (⟨state.revision + 1, false⟩,
          candidate.recordCommit (action.request runtime).idempotencyKey [action.mutation]
            (state.revision + 1)) := by
  have own := own_key action coherent
  cases found : state.idempotency[(action.request runtime).idempotencyKey]? with
  | some entry =>
    obtain ⟨existing, revision⟩ := entry
    by_cases same : existing = [action.mutation]
    · subst same
      refine .inr (.inl ⟨?_, coherent.repeats allowed own found⟩)
      exact DurableRunState.commit_iff.mpr (.inl ⟨⟨revision, found⟩, rfl, rfl⟩)
    · refine .inl ⟨.idempotencyConflict (action.request runtime).idempotencyKey, ?_, ?_⟩
      · unfold DurableRunState.commit
        rw [found]
        exact if_neg same
      · exact ⟨fun _ => by simp, fun _ _ => by simp⟩
  | none =>
    have newKey := not_mem_of_lookup_none found
    obtain ⟨candidate, accepted⟩ := coherent.accepts allowed own newKey
    have atHead : (action.request runtime).expectedRevision = state.revision := coherent.revision
    by_cases room : state.revision < u64Max
    · refine .inr (.inr ⟨candidate, room, newKey, accepted, ?_⟩)
      refine DurableRunState.commit_iff.mpr (.inr ⟨⟨newKey, atHead, room, candidate, ?_, rfl⟩, rfl⟩)
      exact DurableRunState.applyMutations_singleton.mpr accepted
    · refine .inl ⟨.revisionExhausted state.revision, ?_, ?_⟩
      · unfold DurableRunState.commit checkedNext
        rw [found, if_neg room]
        simp only [atHead, ne_eq, not_true_eq_false, if_false]
      · exact ⟨fun _ => by simp, fun _ _ => by simp⟩

/-- **Every allowed action of a coherent runtime goes one of these ways.** -/
theorem act_acted {runtime : Runtime σ ν} {state : DurableRunState} {action : Action}
    (allowed : runtime.Allowed action) (backed : runtime.Backed state)
    (coherent : Coherent runtime state) :
    ∃ next, Acted runtime state action (act action runtime).1 (act action runtime).2 next := by
  have nonempty : (action.request runtime).mutations ≠ [] := List.cons_ne_nil _ _
  rw [act_eq]
  rcases answer : DurableStore.commit (action.request runtime) runtime.store with ⟨result, store⟩
  have faithful := FaithfulStore.commits (action.request runtime) runtime.store
  rw [answer] at faithful
  rcases faithful with ⟨answered, changed⟩ | ⟨⟨error, failed, backend⟩, same⟩
  · have found : (FaithfulStore.content runtime.store).runs[(action.request runtime).runId]? =
      some state := backed
    unfold InMemoryDurableStore.commit at answered changed
    rw [if_neg nonempty, found] at answered changed
    rcases coherent.commit_cases allowed with ⟨error, committed, harmless⟩ |
      ⟨committed, repeated⟩ | ⟨candidate, room, newKey, accepted, committed⟩
    · simp only [committed] at answered changed
      cases answered
      exact ⟨state, .refused harmless changed⟩
    · simp only [committed, if_true] at answered changed
      cases answered
      exact ⟨state, .replayed repeated changed⟩
    · simp only [committed, Bool.false_eq_true, if_false] at answered changed
      cases answered
      exact ⟨_, .fresh room (own_key action coherent) newKey accepted changed⟩
  · cases failed
    exact ⟨state, .refused (StoreError.harmless_of_kind backend) same⟩

omit [Postcard] [FaithfulStore σ] in
/-- Settling changes neither the run nor the store. -/
theorem settle_same (action : Action) (runtime : Runtime σ ν) :
    (action.settle runtime).2.runId = runtime.runId ∧
      (action.settle runtime).2.store = runtime.store := by
  cases action with
  | admission attempt =>
    rw [settle_admission]
    repeat' split
    all_goals exact ⟨rfl, rfl⟩
  | complete fact workflow =>
    rw [settle_complete]
    repeat' split
    all_goals exact ⟨rfl, rfl⟩
  | _ => exact ⟨rfl, rfl⟩

section Acted

variable {runtime reached : Runtime σ ν} {state next : DurableRunState} {action : Action}
  {result : Except RuntimeError Unit}

theorem Acted.runId (acted : Acted runtime state action result reached next) :
    reached.runId = runtime.runId := by
  cases acted with
  | refused => rfl
  | replayed => exact (settle_same action _).1
  | fresh => exact (settle_same action _).1

/-- The store of the runtime holds the run in the state that the action leaves. -/
theorem Acted.backed (acted : Acted runtime state action result reached next)
    (backed : runtime.Backed state) : reached.Backed next := by
  unfold Backed at backed ⊢
  cases acted with
  | @refused error store harmless same =>
    show (FaithfulStore.content store).runs[runtime.runId]? = some state
    rw [same]
    exact backed
  | @replayed store repeated same =>
    rw [(settle_same action _).1, (settle_same action _).2]
    show (FaithfulStore.content store).runs[runtime.runId]? = some state
    rw [same]
    exact backed
  | @fresh store candidate key room own newKey accepted stored =>
    rw [(settle_same action _).1, (settle_same action _).2]
    show (FaithfulStore.content store).runs[runtime.runId]? = _
    rw [stored]
    exact lookup_insert_self _ _ _

/-- **An action keeps the agreement of the views.** -/
theorem Acted.coherent (acted : Acted runtime state action result reached next)
    (allowed : runtime.Allowed action) (coherent : Coherent runtime state) :
    Coherent reached next := by
  cases acted with
  | refused => exact { coherent with }
  | replayed repeated => exact coherent.again repeated
  | fresh room own newKey accepted => exact coherent.fresh allowed room own newKey accepted

end Acted

end Runtime

end Kernis
