/-
**Commits are exactly-once and lose no update.**

Clients load states, prepare requests against them and submit them, in any order and as often as they
like; the store serves one call at a time, so their interleaving is one sequence of calls.

* `Continues state next` — what happens to a run: its revision only grows, a state is determined by
  its revision, and no idempotency key is forgotten.
* `Serves Content` — a store whose content is an in-memory store; only a fresh commit may fail in
  addition. Both adapters do.
* `ExactlyOnce start` — the guarantees over all sequences of calls. `commits_exactly_once` proves
  them for both adapters.
-/

import Kernis.Recovery.Physical

namespace Kernis

open Std

/-! ### One run -/

namespace DurableRunState

/-- **A later state of a run**: the same one, or one with a greater revision that remembers every key. -/
structure Continues (state next : DurableRunState) : Prop where
  head : next = state ∨ state.revision < next.revision
  keys : Grows state.idempotency next.idempotency

variable {state middle next : DurableRunState}

theorem Continues.refl (state : DurableRunState) : Continues state state :=
  ⟨.inl rfl, .refl _⟩

theorem Continues.trans (left : Continues state middle) (right : Continues middle next) :
    Continues state next := by
  refine ⟨?_, left.keys.trans right.keys⟩
  rcases left.head with rfl | first
  · exact right.head
  · rcases right.head with rfl | second
    · exact .inr first
    · exact .inr (Nat.lt_trans first second)

variable [Postcard] {request : CommitRequest}

/-- What a fresh commit remembers. -/
theorem FreshCommit.idempotency (fresh : FreshCommit state request next) :
    next.idempotency = state.idempotency.insert request.idempotencyKey
      (request.mutations, state.revision + 1) := by
  obtain ⟨candidate, applied, rfl⟩ := fresh.applied
  show candidate.idempotency.insert _ _ = _
  rw [(sameHead_of_applyMutations applied).idempotency]

theorem FreshCommit.continues (fresh : FreshCommit state request next) : Continues state next := by
  refine ⟨.inr ?_, ?_⟩
  · rw [fresh.revision]
    exact Nat.lt_succ_self _
  · rw [fresh.idempotency]
    exact .insert fresh.newKey _

/-- A commit whose key is remembered stores nothing. -/
theorem commit_of_remembered {mutations : List DurableMutation} {revision : Nat}
    (found : state.idempotency[request.idempotencyKey]? = some (mutations, revision)) :
    state.commit request =
      if mutations = request.mutations then .ok (⟨state.revision, true⟩, state)
      else .error (.idempotencyConflict request.idempotencyKey) := by
  unfold commit
  rw [found]

/-- **The ledger of a reachable state** counts from one, under distinct remembered keys. -/
theorem Reachable.ledger {runId : RunId} (reached : state.Reachable runId) :
    state.commitLedger.map (·.revision) = List.range' 1 state.revision ∧
      (state.commitLedger.map (·.idempotencyKey)).Nodup ∧
      ∀ entry ∈ state.commitLedger, entry.idempotencyKey ∈ state.idempotency := by
  induction reached with
  | new => exact ⟨rfl, .nil, fun _ member => by cases member⟩
  | @commit state next request _ _ _ fresh ih =>
    obtain ⟨revisions, distinct, remembered⟩ := ih
    rw [fresh.commitLedger, fresh.revision, fresh.idempotency]
    refine ⟨?_, ?_, ?_⟩
    · rw [List.map_append, revisions, List.range'_concat]
      simp [Nat.add_comm]
    · rw [List.map_append, List.map_singleton, ← List.concat_eq_append, List.nodup_concat]
      refine ⟨?_, distinct⟩
      intro member
      obtain ⟨entry, inside, same⟩ := List.mem_map.mp member
      have known := remembered entry inside
      rw [same] at known
      exact fresh.newKey known
    · intro entry member
      rw [mem_insert_iff]
      rcases List.mem_append.mp member with before | last
      · exact .inr (remembered entry before)
      · rw [List.mem_singleton.mp last]
        exact .inl rfl

end DurableRunState

/-! ### The in-memory store -/

namespace InMemoryDurableStore

/-- Every run of a store continues in another. -/
def Continued (store next : InMemoryDurableStore) : Prop :=
  ∀ (runId : RunId) (state : DurableRunState), store.runs[runId]? = some state →
    ∃ later : DurableRunState, next.runs[runId]? = some later ∧ state.Continues later

variable {store middle next : InMemoryDurableStore}

theorem Continued.refl (store : InMemoryDurableStore) : Continued store store :=
  fun _ state found => ⟨state, found, .refl state⟩

theorem Continued.trans (left : Continued store middle) (right : Continued middle next) :
    Continued store next := by
  intro runId state found
  obtain ⟨first, between, continues⟩ := left runId state found
  obtain ⟨later, after, further⟩ := right runId first between
  exact ⟨later, after, continues.trans further⟩

/-- Writing a run that is new, or continues. -/
theorem Continued.insert {runId : RunId} {written : DurableRunState}
    (continues : ∀ state : DurableRunState, store.runs[runId]? = some state →
      state.Continues written) :
    Continued store ⟨store.runs.insert runId written⟩ := by
  intro other state found
  simp only [lookup_insert]
  split
  · rename_i same
    subst same
    exact ⟨written, rfl, continues state found⟩
  · exact ⟨state, found, .refl state⟩

theorem continued_createRun (runId : RunId) (store : InMemoryDurableStore) :
    Continued store (store.createRun runId).2 := by
  unfold createRun
  split
  · exact .refl store
  · rename_i absent
    exact .insert fun state found => absurd (mem_of_lookup found) absent

variable [Postcard]

theorem continued_commit (request : CommitRequest) (store : InMemoryDurableStore) :
    Continued store (store.commit request).2 := by
  rcases store.commit_cases request with ⟨same, _⟩ | ⟨state, next, found, nonempty, fresh⟩
  · rw [same]
    exact .refl store
  · rw [commit_of_fresh found nonempty fresh]
    refine .insert fun held lookup => ?_
    rw [found] at lookup
    cases lookup
    exact fresh.continues

/-- **A commit that answers leaves its mutations under its key.** -/
theorem remembered_of_commit {request : CommitRequest} {result : CommitResult}
    (committed : (store.commit request).1 = .ok result) :
    request.mutations ≠ [] ∧ ∃ (state : DurableRunState) (revision : Nat),
      (store.commit request).2.runs[request.runId]? = some state ∧
        state.idempotency[request.idempotencyKey]? = some (request.mutations, revision) := by
  by_cases empty : request.mutations = []
  · simp [commit, empty] at committed
  · refine ⟨empty, ?_⟩
    rcases store.commit_cases request with ⟨same, notFresh⟩ | ⟨state, next, found, nonempty, fresh⟩
    · rw [same]
      unfold commit at committed notFresh
      rw [if_neg empty] at committed notFresh
      cases found : store.runs[request.runId]? with
      | none => simp [found] at committed
      | some state =>
        cases decided : state.commit request with
        | error error => simp [found, decided] at committed
        | ok outcome =>
          obtain ⟨reported, kept⟩ := outcome
          rcases DurableRunState.commit_iff.mp decided with ⟨⟨revision, remembered⟩, _⟩ | ⟨_, rfl⟩
          · exact ⟨state, revision, rfl, remembered⟩
          · exact absurd (by simp [found, decided]) (notFresh (state.revision + 1))
    · rw [commit_of_fresh found nonempty fresh]
      refine ⟨next, state.revision + 1, lookup_insert_self _ _ _, ?_⟩
      rw [fresh.idempotency]
      exact lookup_insert_self _ _ _

/-- A commit under a remembered key. -/
theorem commit_of_remembered {request : CommitRequest} {state : DurableRunState}
    {mutations : List DurableMutation} {revision : Nat} (nonempty : request.mutations ≠ [])
    (found : store.runs[request.runId]? = some state)
    (remembered : state.idempotency[request.idempotencyKey]? = some (mutations, revision)) :
    store.commit request =
      if mutations = request.mutations then (.ok ⟨state.revision, true⟩, store)
      else (.error (.idempotencyConflict request.idempotencyKey), store) := by
  unfold commit
  rw [if_neg nonempty, found]
  simp only [DurableRunState.commit_of_remembered remembered]
  by_cases same : mutations = request.mutations
  · simp only [same, if_true]
  · simp only [same, if_false]

/-- A fresh answer is a fresh commit. -/
theorem fresh_of_commit {request : CommitRequest} {revision : Nat}
    (committed : (store.commit request).1 = .ok ⟨revision, false⟩) :
    ∃ state next, store.runs[request.runId]? = some state ∧ state.FreshCommit request next ∧
      revision = state.revision + 1 ∧
      (store.commit request).2 = ⟨store.runs.insert request.runId next⟩ := by
  rcases store.commit_cases request with ⟨_, never⟩ | ⟨state, next, found, nonempty, fresh⟩
  · exact absurd committed (never revision)
  · rw [commit_of_fresh found nonempty fresh] at committed ⊢
    cases committed
    exact ⟨state, next, found, fresh, rfl, rfl⟩

end InMemoryDurableStore

/-! ### Stores with a content -/

section Serves

variable {σ : Type} [DurableStore σ] [Postcard]

/-- **A store whose content is an in-memory store.** Every call answers and acts as that store would;
only a fresh commit may fail in addition. What is not a fresh commit leaves the store itself. -/
structure Serves (Content : σ → InMemoryDurableStore → Prop) : Prop where
  load : ∀ {store memory}, Content store memory → ∀ runId,
    DurableStore.loadRun runId store = memory.loadRun runId
  create : ∀ {store memory}, Content store memory → ∀ runId,
    Content (DurableStore.createRun runId store).2 (memory.createRun runId).2
  commit : ∀ {store memory}, Content store memory → ∀ request,
    ((DurableStore.commit request store).1 = (memory.commit request).1 ∧
        Content (DurableStore.commit request store).2 (memory.commit request).2) ∨
      (∃ revision, (memory.commit request).1 = .ok ⟨revision, false⟩) ∧
        ∃ error, (DurableStore.commit request store).1 = .error error
  still : ∀ request (store : σ),
    (∀ revision, (DurableStore.commit request store).1 ≠ .ok ⟨revision, false⟩) →
    (DurableStore.commit request store).2 = store

variable {Content : σ → InMemoryDurableStore → Prop} {store : σ} {memory : InMemoryDurableStore}

/-- **What one call does to the content.** -/
theorem Serves.call (serves : Serves Content) (content : Content store memory)
    (reachable : memory.AllReachable) (one : StoreCall) :
    ∃ next, Content (DurableStore.call one store).2 next ∧ next.AllReachable ∧
      memory.Continued next := by
  cases one with
  | createRun runId =>
    exact ⟨_, serves.create content runId,
      InMemoryDurableStore.allReachable_createRun runId reachable,
      InMemoryDurableStore.continued_createRun runId memory⟩
  | loadRun runId => exact ⟨memory, content, reachable, .refl memory⟩
  | commit request =>
    rcases serves.commit content request with ⟨_, after⟩ | ⟨_, error, failed⟩
    · exact ⟨_, after, InMemoryDurableStore.allReachable_commit request reachable,
        InMemoryDurableStore.continued_commit request memory⟩
    · have same : (DurableStore.call (.commit request) store).2 = store :=
        serves.still request store fun revision fresh => by
          rw [failed] at fresh
          cases fresh
      rw [same]
      exact ⟨memory, content, reachable, .refl memory⟩

/-- What a sequence of calls does to the content. -/
theorem Serves.calls (serves : Serves Content) (sequence : List StoreCall)
    (content : Content store memory) (reachable : memory.AllReachable) :
    ∃ next, Content (DurableStore.calls sequence store).2 next ∧ next.AllReachable ∧
      memory.Continued next := by
  induction sequence generalizing store memory with
  | nil => exact ⟨memory, content, reachable, .refl memory⟩
  | cons one rest ih =>
    obtain ⟨middle, after, still, continued⟩ := serves.call content reachable one
    obtain ⟨next, last, reached, further⟩ := ih after still
    exact ⟨next, last, reached, continued.trans further⟩

/-! ### The guarantees -/

/-- **Commits are exactly-once and lose no update**, over all sequences of calls from a store.

* `fresh` — a fresh commit carries the revision of the state it is applied to, applies its batch to
  that state and raises the revision by one.
* `prepared` — a client that loaded a state, and whose commit at that revision is fresh, commits to
  that very state, whatever other clients did in between.
* `ledger` — the ledger of a run counts from one, under distinct keys.
* `resubmitted` — a request that was answered once is replayed at the head, at any later time and
  with any expected revision, and nothing changes.
* `conflict` — its key with another batch is a conflict, at any later time, and nothing changes.
* `unchanged` — what is not a fresh commit changes nothing.
* `others` — a commit changes no other run. -/
structure ExactlyOnce {σ : Type} [DurableStore σ] [Postcard] (start : σ) : Prop where
  fresh : ∀ (before : List StoreCall) (request : CommitRequest) (revision : Nat),
    let store := (DurableStore.calls before start).2
    (DurableStore.commit request store).1 = .ok ⟨revision, false⟩ →
    ∃ state candidate, DurableStore.loadRun request.runId store = .ok state ∧
      request.expectedRevision = state.revision ∧ revision = state.revision + 1 ∧
      state.applyMutations request.mutations = .ok candidate ∧
      DurableStore.loadRun request.runId (DurableStore.commit request store).2 =
        .ok (candidate.recordCommit request.idempotencyKey request.mutations revision)
  prepared : ∀ (before between : List StoreCall) (request : CommitRequest) (revision : Nat)
    (loaded : DurableRunState),
    let store := (DurableStore.calls (before ++ between) start).2
    DurableStore.loadRun request.runId (DurableStore.calls before start).2 = .ok loaded →
    request.expectedRevision = loaded.revision →
    (DurableStore.commit request store).1 = .ok ⟨revision, false⟩ →
    DurableStore.loadRun request.runId store = .ok loaded
  ledger : ∀ (before : List StoreCall) (runId : RunId) (state : DurableRunState),
    DurableStore.loadRun runId (DurableStore.calls before start).2 = .ok state →
    state.commitLedger.map (·.revision) = List.range' 1 state.revision ∧
      (state.commitLedger.map (·.idempotencyKey)).Nodup
  resubmitted : ∀ (before between : List StoreCall) (request : CommitRequest)
    (result : CommitResult) (expected : Nat),
    let store := (DurableStore.calls (before ++ .commit request :: between) start).2
    (DurableStore.commit request (DurableStore.calls before start).2).1 = .ok result →
    ∃ state, DurableStore.loadRun request.runId store = .ok state ∧
      DurableStore.commit { request with expectedRevision := expected } store =
        (.ok ⟨state.revision, true⟩, store)
  conflict : ∀ (before between : List StoreCall) (request : CommitRequest)
    (result : CommitResult) (expected : Nat) (mutations : List DurableMutation),
    let store := (DurableStore.calls (before ++ .commit request :: between) start).2
    (DurableStore.commit request (DurableStore.calls before start).2).1 = .ok result →
    mutations ≠ request.mutations → mutations ≠ [] →
    DurableStore.commit { request with expectedRevision := expected, mutations := mutations } store =
      (.error (.idempotencyConflict request.idempotencyKey), store)
  unchanged : ∀ (before : List StoreCall) (request : CommitRequest),
    let store := (DurableStore.calls before start).2
    (∀ revision, (DurableStore.commit request store).1 ≠ .ok ⟨revision, false⟩) →
    (DurableStore.commit request store).2 = store
  others : ∀ (before : List StoreCall) (request : CommitRequest) (runId : RunId),
    let store := (DurableStore.calls before start).2
    runId ≠ request.runId →
    DurableStore.loadRun runId (DurableStore.commit request store).2 =
      DurableStore.loadRun runId store

variable (serves : Serves Content)
include serves

/-- **A fresh answer of a store is a fresh commit on its content.** -/
theorem Serves.fresh (content : Content store memory) {request : CommitRequest} {revision : Nat}
    (committed : (DurableStore.commit request store).1 = .ok ⟨revision, false⟩) :
    ∃ state next, memory.runs[request.runId]? = some state ∧ state.FreshCommit request next ∧
      revision = state.revision + 1 ∧
      Content (DurableStore.commit request store).2 ⟨memory.runs.insert request.runId next⟩ := by
  rcases serves.commit content request with ⟨same, after⟩ | ⟨_, error, failed⟩
  · rw [committed] at same
    obtain ⟨state, next, found, fresh, reported, stored⟩ :=
      InMemoryDurableStore.fresh_of_commit same.symm
    rw [stored] at after
    exact ⟨state, next, found, fresh, reported, after⟩
  · rw [committed] at failed
    cases failed

/-- **A request that was answered is remembered forever.** -/
theorem Serves.remembered (content : Content store memory) (reachable : memory.AllReachable)
    {request : CommitRequest} {result : CommitResult} (between : List StoreCall)
    (committed : (DurableStore.commit request store).1 = .ok result) :
    request.mutations ≠ [] ∧ ∃ (next : InMemoryDurableStore) (state : DurableRunState)
      (revision : Nat),
      Content (DurableStore.calls (.commit request :: between) store).2 next ∧
        next.runs[request.runId]? = some state ∧
        state.idempotency[request.idempotencyKey]? = some (request.mutations, revision) := by
  rcases serves.commit content request with ⟨same, after⟩ | ⟨_, error, failed⟩
  · rw [committed] at same
    obtain ⟨nonempty, state, revision, found, remembered⟩ :=
      InMemoryDurableStore.remembered_of_commit same.symm
    obtain ⟨next, last, _, continued⟩ := serves.calls between after
      (InMemoryDurableStore.allReachable_commit request reachable)
    obtain ⟨later, held, continues⟩ := continued request.runId state found
    exact ⟨nonempty, next, later, revision, last, held, continues.keys remembered⟩
  · rw [committed] at failed
    cases failed

/-- A commit under a remembered key, over the content. -/
theorem Serves.commit_of_remembered (content : Content store memory) {request : CommitRequest}
    {state : DurableRunState} {mutations : List DurableMutation} {revision : Nat}
    (nonempty : request.mutations ≠ []) (found : memory.runs[request.runId]? = some state)
    (remembered : state.idempotency[request.idempotencyKey]? = some (mutations, revision)) :
    DurableStore.commit request store =
      if mutations = request.mutations then (.ok ⟨state.revision, true⟩, store)
      else (.error (.idempotencyConflict request.idempotencyKey), store) := by
  have answers := InMemoryDurableStore.commit_of_remembered nonempty found remembered
  have answer : (DurableStore.commit request store).1 = (memory.commit request).1 := by
    rcases serves.commit content request with ⟨same, _⟩ | ⟨⟨other, fresh⟩, _⟩
    · exact same
    · rw [answers] at fresh
      split at fresh <;> cases fresh
  have kept : (DurableStore.commit request store).2 = store := by
    refine serves.still request store fun other fresh => ?_
    rw [answer, answers] at fresh
    split at fresh <;> cases fresh
  refine Prod.ext ?_ ?_
  · rw [answer, answers]
    split <;> rfl
  · rw [kept]
    split <;> rfl

/-- **A store that serves gives the guarantees.** -/
theorem Serves.exactlyOnce (content : Content store memory) (reachable : memory.AllReachable) :
    ExactlyOnce store where
  fresh before request revision committed := by
    obtain ⟨held, now, _, _⟩ := serves.calls before content reachable
    obtain ⟨state, next, found, fresh, reported, after⟩ := serves.fresh now committed
    obtain ⟨candidate, applied, rfl⟩ := fresh.applied
    refine ⟨state, candidate, ?_, fresh.atHead, reported, applied, ?_⟩
    · rw [serves.load now, InMemoryDurableStore.loadRun, found]
    · rw [serves.load after, InMemoryDurableStore.loadRun, lookup_insert_self, reported]
  prepared before between request revision loaded := by
    intro store' first atRevision committed
    obtain ⟨early, now, clean, _⟩ := serves.calls before content reachable
    obtain ⟨held, later, _, continued⟩ := serves.calls between now clean
    rw [← DurableStore.calls_append] at later
    obtain ⟨state, next, found, fresh, _, _⟩ := serves.fresh later committed
    rw [serves.load now, InMemoryDurableStore.loadRun] at first
    split at first
    · cases first
    · rename_i old lookup
      cases first
      obtain ⟨last, held', continues⟩ := continued request.runId loaded lookup
      rw [found] at held'
      cases held'
      rw [serves.load later, InMemoryDurableStore.loadRun, found]
      rcases continues.head with same | grown
      · rw [same]
      · have same := fresh.atHead
        omega
  ledger before runId state loaded := by
    obtain ⟨held, now, clean, _⟩ := serves.calls before content reachable
    rw [serves.load now, InMemoryDurableStore.loadRun] at loaded
    split at loaded
    · cases loaded
    · rename_i lookup
      cases loaded
      have ledger := (clean runId state lookup).ledger
      exact ⟨ledger.1, ledger.2.1⟩
  resubmitted before between request result expected := by
    intro store' committed
    obtain ⟨early, now, clean, _⟩ := serves.calls before content reachable
    obtain ⟨nonempty, next, state, revision, later, found, remembered⟩ :=
      serves.remembered now clean between committed
    rw [← DurableStore.calls_append] at later
    refine ⟨state, ?_, ?_⟩
    · rw [serves.load later, InMemoryDurableStore.loadRun, found]
    · have again : ({ request with expectedRevision := expected } : CommitRequest).mutations ≠ [] :=
        nonempty
      rw [serves.commit_of_remembered later again found remembered, if_pos rfl]
  conflict before between request result expected mutations := by
    intro store' committed different nonempty
    obtain ⟨early, now, clean, _⟩ := serves.calls before content reachable
    obtain ⟨_, next, state, revision, later, found, remembered⟩ :=
      serves.remembered now clean between committed
    rw [← DurableStore.calls_append] at later
    have other : ({ request with expectedRevision := expected, mutations := mutations } :
      CommitRequest).mutations ≠ [] := nonempty
    rw [serves.commit_of_remembered later other found remembered, if_neg (Ne.symm different)]
  unchanged before request := serves.still request _
  others before request runId different := by
    obtain ⟨held, now, _, _⟩ := serves.calls before content reachable
    by_cases fresh : ∃ revision, (DurableStore.commit request
        (DurableStore.calls before store).2).1 = .ok ⟨revision, false⟩
    · obtain ⟨revision, committed⟩ := fresh
      obtain ⟨state, next, _, _, _, after⟩ := serves.fresh now committed
      rw [serves.load after, serves.load now, InMemoryDurableStore.loadRun,
        InMemoryDurableStore.loadRun, lookup_insert_ne _ _ (Ne.symm different)]
    · rw [serves.still request _ (not_exists.mp fresh)]

end Serves

/-! ### The adapters -/

theorem serves_memory [Postcard] :
    Serves (fun store memory : InMemoryDurableStore => store = memory) where
  load := by
    rintro store _ rfl runId
    rfl
  create := by
    rintro store _ rfl runId
    rfl
  commit := by
    rintro store _ rfl request
    exact .inl ⟨rfl, rfl⟩
  still := by
    intro request store notFresh
    rcases store.commit_cases request with ⟨same, _⟩ | ⟨state, next, found, nonempty, fresh⟩
    · exact same
    · have committed := InMemoryDurableStore.commit_of_fresh found nonempty fresh
      exact absurd (congrArg Prod.fst committed) (notFresh _)

theorem serves_file [Postcard] (roundTrips : RoundTrips) : Serves Mirrors where
  load mirrors runId := mirrors.loadRun runId
  create mirrors runId := (mirrors.createRun roundTrips runId).2
  commit := by
    intro file memory mirrors request
    rcases mirrors.commit_or_fails roundTrips request with same | ⟨⟨kept, fresh, _⟩, error, _, failed⟩
    · exact .inl same
    · exact .inr ⟨⟨_, congrArg Prod.fst fresh⟩, error, congrArg Prod.fst failed⟩
  still request store notFresh := by
    rcases store.commit_row_cases request with same | ⟨revision, fresh⟩
    · exact same
    · exact absurd fresh (notFresh revision)

/-- **Commits are exactly-once and lose no update.** Over every sequence of calls from a new store,
by any number of clients in any order, both adapters give the guarantees; the physical one with a
serializer that round-trips. -/
theorem commits_exactly_once [Postcard] :
    ExactlyOnce InMemoryDurableStore.new ∧ (RoundTrips → ExactlyOnce FileDurableStore.new) :=
  ⟨serves_memory.exactlyOnce rfl InMemoryDurableStore.allReachable_new,
    fun roundTrips => (serves_file roundTrips).exactlyOnce mirrors_new
      InMemoryDurableStore.allReachable_new⟩

/-- The admission of the sample attempt. -/
def sampleRequest (expectedRevision : Nat) : CommitRequest :=
  sampleCommit expectedRevision ⟨"admit".toList, sampleKey_solid⟩
    (.admitAttempt ⟨sampleRun, sampleTask, sampleAttempt, none, []⟩)

/-- A client resubmits its admission with a stale revision after another client's intent: the physical
store replays it at the head. -/
theorem commits_exactly_once_sample :
    let _ := Persisted.postcard
    let other := sampleCommit 1 ⟨"intent".toList, by decide⟩
      (.recordIntent ⟨sampleTask, sampleOperation, .nonIdempotent⟩)
    let store := (DurableStore.calls [.createRun sampleRun, .commit (sampleRequest 0), .commit other]
      FileDurableStore.new).2
    ∃ state, DurableStore.loadRun sampleRun store = .ok state ∧
      DurableStore.commit (sampleRequest 0) store = (.ok ⟨state.revision, true⟩, store) := by
  intro _ other store
  have first : (DurableStore.commit (sampleRequest 0)
      (DurableStore.calls [.createRun sampleRun] FileDurableStore.new).2).1 = .ok ⟨1, false⟩ := by
    decide +kernel
  have again := (commits_exactly_once.2 Persisted.postcard_round_trips).resubmitted
    [.createRun sampleRun] [.commit other] (sampleRequest 0) ⟨1, false⟩ 0 first
  exact again

end Kernis
