/-
**The ledger replayer accepts exactly the ledgers that commits produce.**

* `Produces runId state requests next` — a sequence of fresh commits on one run.
* `replayEntry_iff` — replaying one entry is one fresh commit that appends this entry.
* `replayEntries_iff` — the ledger loop is a sequence of them.
* `commits_iff` — driving the in-memory store with the requests is the same sequence.
* `fromPersistedSnapshot_persistedSnapshot` — persisting and restoring a reachable state is the
  identity.
-/

import Kernis.Recovery.Lineage
import Kernis.Recovery.Persisted

namespace Kernis

open Std

namespace DurableRunState

variable [Postcard] {state next : DurableRunState} {runId : RunId}

/-- A sequence of fresh commits on one run. -/
inductive Produces (runId : RunId) : DurableRunState → List CommitRequest → DurableRunState → Prop
  | nil (state : DurableRunState) : Produces runId state [] state
  | cons {state middle next : DurableRunState} {request : CommitRequest}
      {requests : List CommitRequest} :
      request.runId = runId →
      request.mutations ≠ [] →
      FreshCommit state request middle →
      Produces runId middle requests next →
      Produces runId state (request :: requests) next

theorem FreshCommit.revision {request : CommitRequest} (fresh : FreshCommit state request next) :
    next.revision = state.revision + 1 := by
  obtain ⟨candidate, _, rfl⟩ := fresh.applied
  rfl

theorem FreshCommit.commitLedger {request : CommitRequest}
    (fresh : FreshCommit state request next) :
    next.commitLedger = state.commitLedger ++
      [⟨request.idempotencyKey, request.mutations, state.revision + 1,
        commitBinding request.idempotencyKey request.mutations (state.revision + 1)⟩] := by
  obtain ⟨candidate, applied, rfl⟩ := fresh.applied
  show candidate.commitLedger ++ _ = _
  rw [(sameHead_of_applyMutations applied).commitLedger]

theorem Produces.own {requests : List CommitRequest}
    (produced : Produces runId state requests next) :
    ∀ request ∈ requests, request.runId = runId := by
  induction produced with
  | nil => simp
  | cons own _ _ _ ih => exact List.forall_mem_cons.mpr ⟨own, ih⟩

theorem Produces.reachable {requests : List CommitRequest}
    (produced : Produces runId state requests next) (reached : state.Reachable runId) :
    next.Reachable runId := by
  induction produced with
  | nil => exact reached
  | cons own nonempty fresh _ ih => exact ih (.commit reached own nonempty fresh)

theorem Reachable.produced (reached : state.Reachable runId) :
    ∃ requests, Produces runId (.new runId) requests state := by
  -- Peeling the last commit: the chain is extended at its end.
  have extend : ∀ {first middle last : DurableRunState} {requests : List CommitRequest}
      {request : CommitRequest}, Produces runId first requests middle → request.runId = runId →
      request.mutations ≠ [] → FreshCommit middle request last →
      Produces runId first (requests ++ [request]) last := by
    intro first middle last requests request produced own nonempty fresh
    induction produced with
    | nil => exact .cons own nonempty fresh (.nil _)
    | cons own' nonempty' fresh' _ ih => exact .cons own' nonempty' fresh' (ih fresh)
  induction reached with
  | new => exact ⟨[], .nil _⟩
  | commit _ own nonempty fresh ih =>
    obtain ⟨requests, produced⟩ := ih
    exact ⟨requests ++ [_], extend produced own nonempty fresh⟩

/-! ### Replaying the ledger -/

/-- **Replaying an entry is one fresh commit that appends it.** -/
theorem replayEntry_iff (runId : RunId) {entry : CommitLedgerEntry}
    (room : state.revision < u64Max) :
    replayEntry state (state.revision + 1) entry = .ok next ↔
      ∃ request : CommitRequest, request.runId = runId ∧ request.mutations ≠ [] ∧
        FreshCommit state request next ∧ next.commitLedger = state.commitLedger ++ [entry] := by
  unfold replayEntry
  constructor
  · intro replayed
    split at replayed
    · cases replayed
    · rename_i shape
      rw [not_or, not_or, not_not] at shape
      split at replayed
      · cases replayed
      · rename_i bound
        split at replayed
        · cases replayed
        · rename_i newKey
          split at replayed
          · cases replayed
          · rename_i middle applied
            cases replayed
            have applied' : (state.withIdempotency (state.idempotency.insert entry.idempotencyKey
                (entry.mutations, entry.revision))).applyMutations entry.mutations =
                  .ok middle := by
              unfold persistedMutationError at applied
              split at applied
              · cases applied
              · cases applied
                assumption
            have head := sameHead_of_applyMutations applied'
            have unkeyed := applyMutations_withIdempotency applied' state.idempotency
            refine ⟨⟨runId, state.revision, entry.idempotencyKey, entry.mutations⟩, rfl,
              shape.2.1, ⟨newKey, rfl, room, _, unkeyed, ?_⟩, ?_⟩
            · unfold recordCommit withIdempotency
              simp only [not_not] at bound
              rw [← shape.2.2, ← bound, head.idempotency]
              rfl
            · show middle.commitLedger ++ [entry] = _
              rw [head.commitLedger]
              rfl
  · rintro ⟨request, own, nonempty, fresh, ledger⟩
    have last := fresh.commitLedger.symm.trans ledger
    rw [List.append_cancel_left_eq, List.singleton_inj] at last
    subst last
    obtain ⟨candidate, applied, rfl⟩ := fresh.applied
    have keyed := applyMutations_withIdempotency applied (state.idempotency.insert
      request.idempotencyKey (request.mutations, state.revision + 1))
    rw [if_neg (by simp [request.idempotencyKey.text.property, nonempty]),
      if_neg (by simp), if_neg fresh.newKey]
    unfold withIdempotency at keyed
    unfold recordCommit
    simp only [keyed, persistedMutationError, (sameHead_of_applyMutations applied).idempotency]

/-- A sequence of commits appends one entry for each. -/
theorem Produces.commitLedger {requests : List CommitRequest}
    (produced : Produces runId state requests next) :
    ∃ entries, next.commitLedger = state.commitLedger ++ entries ∧
      entries.length = requests.length := by
  induction produced with
  | nil state => exact ⟨[], (List.append_nil _).symm, rfl⟩
  | cons _ _ fresh _ ih =>
    obtain ⟨entries, ledger, count⟩ := ih
    rw [fresh.commitLedger, List.append_assoc] at ledger
    exact ⟨_, ledger, congrArg Nat.succ count⟩

/-- **The ledger loop is a sequence of fresh commits.** -/
theorem replayEntries_iff (runId : RunId) {entries : List CommitLedgerEntry} {expected : Nat}
    (room : state.revision + entries.length < u64Max) :
    replayEntries state (state.revision + 1) entries = .ok (next, expected) ↔
      (∃ requests, Produces runId state requests next) ∧
        next.commitLedger = state.commitLedger ++ entries ∧ expected = next.revision + 1 := by
  induction entries generalizing state with
  | nil =>
    constructor
    · rintro ⟨⟩
      exact ⟨⟨[], .nil _⟩, (List.append_nil _).symm, rfl⟩
    · rintro ⟨⟨requests, produced⟩, ledger, rfl⟩
      obtain ⟨appended, ledger', count⟩ := produced.commitLedger
      rw [ledger, List.append_cancel_left_eq] at ledger'
      subst ledger'
      cases produced with
      | nil => rfl
      | cons => simp at count
  | cons entry rest ih =>
    simp only [List.length_cons] at room
    have here : state.revision < u64Max := by omega
    have there : checkedNext (state.revision + 1) = some (state.revision + 1 + 1) :=
      checkedNext_of_lt (by omega)
    unfold replayEntries
    constructor
    · intro replayed
      split at replayed
      · cases replayed
      · rename_i middle first
        obtain ⟨request, own, nonempty, fresh, ledger⟩ :=
          (replayEntry_iff runId here).mp first
        rw [there] at replayed
        simp only [← fresh.revision] at replayed
        obtain ⟨⟨requests, produced⟩, ledger', same⟩ :=
          (ih (by rw [fresh.revision]; omega)).mp replayed
        refine ⟨⟨request :: requests, .cons own nonempty fresh produced⟩, ?_, same⟩
        rw [ledger', ledger, List.append_assoc]
        rfl
    · rintro ⟨⟨requests, produced⟩, ledger, same⟩
      cases produced with
      | nil => simp at ledger
      | cons own nonempty fresh others =>
        rename_i middle request requests
        obtain ⟨appended, ledger', _⟩ := others.commitLedger
        have first : middle.commitLedger = state.commitLedger ++ [entry] ∧ appended = rest := by
          rw [ledger', fresh.commitLedger, List.append_assoc, List.append_cancel_left_eq,
            List.singleton_append, List.cons.injEq] at ledger
          exact ⟨by rw [fresh.commitLedger, ledger.1], ledger.2⟩
        rw [(replayEntry_iff runId here).mpr ⟨request, own, nonempty, fresh, first.1⟩]
        simp only [there]
        rw [← fresh.revision]
        exact (ih (by rw [fresh.revision]; omega)).mpr
          ⟨⟨requests, others⟩, by rw [ledger', first.2], same⟩

/-- **The replayer accepts a ledger exactly when fresh commits produce it**, and then rebuilds the
state they leave. -/
theorem replayCommitLedger_iff {entries : List CommitLedgerEntry} (room : entries.length < u64Max) :
    replayCommitLedger runId entries = .ok state ↔
      (∃ requests, Produces runId (.new runId) requests state) ∧ state.commitLedger = entries := by
  have loop : ∀ expected, replayEntries (.new runId) 1 entries = .ok (state, expected) ↔
      (∃ requests, Produces runId (.new runId) requests state) ∧
        state.commitLedger = entries ∧ expected = state.revision + 1 :=
    fun expected => replayEntries_iff runId (by rw [show (new runId).revision = 0 from rfl]; omega)
  unfold replayCommitLedger
  constructor
  · intro replayed
    split at replayed
    · cases replayed
    · rename_i reconstructed expected entriesReplayed
      split at replayed
      · cases replayed
      · cases replayed
        obtain ⟨produced, ledger, _⟩ := (loop expected).mp entriesReplayed
        exact ⟨produced, ledger⟩
  · rintro ⟨produced, ledger⟩
    rw [(loop _).mpr ⟨produced, ledger, rfl⟩]
    show (if state.revision ≠ state.revision + 1 - 1 then _ else _) = _
    rw [if_neg (by omega)]

/-! ### Persisting and restoring -/

theorem Reachable.replays (reached : state.Reachable runId)
    (room : state.commitLedger.length < u64Max) :
    replayCommitLedger runId state.commitLedger = .ok state :=
  (replayCommitLedger_iff room).mpr ⟨reached.produced, rfl⟩

omit [Postcard] in
theorem sameFacts_self (state : DurableRunState) : state.sameFacts state = true := by
  simp [sameFacts]

/-- **Every reachable state passes its own validation.** -/
theorem Reachable.validatePersisted (reached : state.Reachable runId)
    (room : state.commitLedger.length < u64Max) : state.validatePersisted = .ok () := by
  unfold DurableRunState.validatePersisted
  have identity : (state.workflowReplayIdentity.any fun identity => blank identity.text.val) =
      false := by
    cases state.workflowReplayIdentity with
    | none => rfl
    | some identity => exact identity.text.property
  have keys : (state.idempotency.keys.any fun key => blank key.text.val) = false := by
    rw [List.any_eq_false]
    intro key _
    rw [key.text.property]
    exact Bool.false_ne_true
  rw [identity, keys, reached.runId_eq, reached.replays room]
  simp only [sameFacts_self, Bool.false_eq_true, if_false, if_true]

theorem Reachable.persistedSnapshot (reached : state.Reachable runId)
    (room : state.commitLedger.length < u64Max) :
    state.persistedSnapshot = .ok ⟨runId, state.commitLedger⟩ := by
  unfold DurableRunState.persistedSnapshot
  rw [reached.validatePersisted room, reached.runId_eq]

/-- **Restoring what was persisted of a reachable state gives the state back.** -/
theorem Reachable.fromPersistedSnapshot (reached : state.Reachable runId)
    (room : state.commitLedger.length < u64Max) :
    state.persistedSnapshot.bind DurableRunState.fromPersistedSnapshot = .ok state := by
  rw [reached.persistedSnapshot room]
  exact reached.replays room

end DurableRunState

/-! ### Commits on a stored run -/

namespace InMemoryDurableStore

variable [Postcard]

/-- Every reply reports a fresh commit. -/
def AllFresh (replies : List StoreReply) : Prop :=
  ∀ reply ∈ replies, ∃ revision, reply = .committed (.ok ⟨revision, false⟩)

/-- **Commits on one run that all report fresh are exactly a sequence of fresh commits.** -/
theorem commits_iff {runId : RunId} {requests : List CommitRequest} {state next : DurableRunState}
    {store : InMemoryDurableStore} (found : store.runs[runId]? = some state)
    (own : ∀ request ∈ requests, request.runId = runId) :
    AllFresh (DurableStore.calls (requests.map .commit) store).1 ∧
        loadRun runId (DurableStore.calls (requests.map .commit) store).2 = .ok next ↔
      DurableRunState.Produces runId state requests next := by
  induction requests generalizing store state with
  | nil =>
    simp only [List.map_nil, DurableStore.calls, AllFresh, loadRun, found]
    constructor
    · rintro ⟨_, ⟨⟩⟩
      exact .nil _
    · rintro ⟨⟩
      exact ⟨by simp, rfl⟩
  | cons request rest ih =>
    obtain ⟨ownFirst, ownRest⟩ := List.forall_mem_cons.mp own
    subst ownFirst
    simp only [List.map_cons, DurableStore.calls, DurableStore.call, AllFresh,
      List.forall_mem_cons]
    have stored : ∀ {middle : DurableRunState}, state.FreshCommit request middle →
        (store.runs.insert request.runId middle)[request.runId]? = some middle := by
      intro middle _
      rw [lookup_insert, if_pos rfl]
    constructor
    · rintro ⟨⟨⟨revision, reported⟩, others⟩, loaded⟩
      rcases store.commit_cases request with ⟨_, never⟩ | ⟨held, middle, found', nonempty, fresh⟩
      · exact absurd (StoreReply.committed.inj reported) (never revision)
      · rw [found] at found'
        cases found'
        have committed := commit_of_fresh found nonempty fresh
        rw [show DurableStore.commit request store = store.commit request from rfl, committed]
          at others loaded
        exact .cons rfl nonempty fresh ((ih (stored fresh) ownRest).mp ⟨others, loaded⟩)
    · intro produced
      cases produced with
      | cons _ nonempty fresh others =>
        have committed := commit_of_fresh found nonempty fresh
        rw [show DurableStore.commit request store = store.commit request from rfl, committed]
        obtain ⟨replies, loaded⟩ := (ih (stored fresh) ownRest).mpr others
        exact ⟨⟨⟨_, rfl⟩, replies⟩, loaded⟩

/-- **The replayer accepts exactly the producible ledgers.** Below the largest revision a ledger
replays to a state exactly when fresh commits on the fresh run leave that ledger and that state;
hence every state the store can load passes its validation and survives persisting. -/
theorem replay_accepts_producible (runId : RunId) :
    (∀ ledger : List CommitLedgerEntry, ledger.length < 2 ^ 64 - 1 → ∀ state,
      (replayCommitLedger runId ledger = .ok state ↔
        ∃ requests : List CommitRequest, (∀ request ∈ requests, request.runId = runId) ∧
          AllFresh (DurableStore.calls (requests.map .commit) (createRun runId new).2).1 ∧
          loadRun runId
            (DurableStore.calls (requests.map .commit) (createRun runId new).2).2 = .ok state ∧
          state.commitLedger = ledger)) ∧
    ∀ (sequence : List StoreCall) (state : DurableRunState),
      loadRun runId (DurableStore.calls sequence new).2 = .ok state →
      state.commitLedger.length < 2 ^ 64 - 1 →
      state.validatePersisted = .ok () ∧
        state.persistedSnapshot.bind DurableRunState.fromPersistedSnapshot = .ok state := by
  have created : (createRun runId new).2.runs[runId]? = some (.new runId) := by
    show (if runId ∈ new.runs then _ else _ : _ × InMemoryDurableStore).2.runs[runId]? = _
    rw [if_neg (by simp [new])]
    exact (lookup_insert _ _ _ _).trans (if_pos rfl)
  refine ⟨fun ledger room state => ?_, fun sequence state loaded room => ?_⟩
  · rw [DurableRunState.replayCommitLedger_iff room]
    constructor
    · rintro ⟨⟨requests, produced⟩, same⟩
      have own := produced.own
      obtain ⟨fresh, loaded⟩ := (commits_iff created own).mpr produced
      exact ⟨requests, own, fresh, loaded, same⟩
    · rintro ⟨requests, own, fresh, loaded, same⟩
      exact ⟨⟨requests, (commits_iff created own).mp ⟨fresh, loaded⟩⟩, same⟩
  · have reached := reachable_of_calls sequence loaded
    exact ⟨reached.validatePersisted room, reached.fromPersistedSnapshot room⟩

end InMemoryDurableStore

/-- The sample run after one admission. -/
def sampleAdmission : List StoreCall :=
  [.createRun sampleRun, .commit (sampleCommit 0 ⟨"admit".toList, sampleKey_solid⟩
    (.admitAttempt ⟨sampleRun, sampleTask, sampleAttempt, none, []⟩))]

/-- The sample task driven through its operation to completion. The last commit but one repeats an
outcome under another key. -/
def sampleCommits : List CommitRequest :=
  [⟨sampleRun, 0, ⟨"admit".toList, sampleKey_solid⟩,
    [.recordIntent ⟨sampleTask, sampleOperation, .nonIdempotent⟩,
      .admitAttempt ⟨sampleRun, sampleTask, sampleAttempt, some sampleOperation, []⟩]⟩,
    sampleCommit 1 ⟨"dispatch".toList, by decide⟩ (.recordDispatch ⟨sampleOperation, sampleAttempt⟩),
    sampleCommit 2 ⟨"outcome".toList, by decide⟩
      (.recordOutcome ⟨sampleOperation, sampleAttempt, .succeeded⟩),
    sampleCommit 3 ⟨"repeated".toList, by decide⟩
      (.recordOutcome ⟨sampleOperation, sampleAttempt, .succeeded⟩),
    sampleCommit 4 ⟨"completion".toList, by decide⟩ (.recordCompletion ⟨sampleTask, sampleAttempt⟩)]

/-- Five fresh commits leave a ledger that replays to their state, and the state survives
persisting. -/
theorem replay_accepts_sample_commits :
    let _ := Persisted.postcard
    ∃ state, InMemoryDurableStore.loadRun sampleRun (DurableStore.calls
        (.createRun sampleRun :: sampleCommits.map .commit) InMemoryDurableStore.new).2 = .ok state ∧
      state.commitLedger.length = 5 ∧ state.completionHistory = [⟨sampleTask, sampleAttempt⟩] ∧
      replayCommitLedger sampleRun state.commitLedger = .ok state ∧
      state.validatePersisted = .ok () ∧
      state.persistedSnapshot.bind DurableRunState.fromPersistedSnapshot = .ok state := by
  intro _
  have fresh : ∀ reply ∈ (DurableStore.calls (sampleCommits.map .commit)
      (InMemoryDurableStore.createRun sampleRun .new).2).1,
      ∃ revision < 6, reply = .committed (.ok ⟨revision, false⟩) := by
    decide +kernel
  obtain ⟨state, loaded, holds⟩ := exists_ok_of_any
    (show ((InMemoryDurableStore.loadRun sampleRun (DurableStore.calls
      (.createRun sampleRun :: sampleCommits.map .commit) InMemoryDurableStore.new).2).toOption.any
        fun state => state.commitLedger.length = 5 ∧
          state.completionHistory = [⟨sampleTask, sampleAttempt⟩]) = true by decide +kernel)
  obtain ⟨length, completed⟩ := of_decide_eq_true holds
  have room : state.commitLedger.length < 2 ^ 64 - 1 := by
    rw [length]
    decide
  obtain ⟨accepts, persists⟩ := InMemoryDurableStore.replay_accepts_producible sampleRun
  have replays := (accepts state.commitLedger room state).mpr ⟨sampleCommits, by decide,
    fun reply member => (fresh reply member).imp fun _ answered => answered.2, loaded, rfl⟩
  obtain ⟨valid, survives⟩ := persists _ state loaded room
  exact ⟨state, loaded, length, completed, replays, valid, survives⟩

end Kernis
