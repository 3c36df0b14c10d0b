/-
**The physical store, and that it refines the in-memory store.**

The database is one table from run texts to bytes whose transactions are atomic and always succeed.
A row is a header (magic, format version, checksum) and the serialized snapshot of the ledger; every
load and every commit rebuilds the state from that ledger.

* `FileDurableStore` — the table and the three operations of the port.
* `decodeState_encodeState` — a row written for a reachable state reads back as that state.
* `Mirrors` — every row holds its run's in-memory state; kept by each call, with equal answers.
* `physical_refines_memory` — equal answers over every sequence of calls.
-/

import Kernis.Lib.Wire
import Kernis.Recovery.Ledger

namespace Kernis

open Std

/-! ### The row format -/

/-- Little-endian bytes of a fixed-width integer. -/
def toLeBytes : Nat → Nat → List UInt8
  | 0, _ => []
  | width + 1, n => UInt8.ofNat (n % 256) :: toLeBytes width (n / 256)

/-- The integer of little-endian bytes. -/
def fromLeBytes : List UInt8 → Nat
  | [] => 0
  | byte :: rest => byte.toNat + 256 * fromLeBytes rest

theorem length_toLeBytes (width n : Nat) : (toLeBytes width n).length = width := by
  induction width generalizing n with
  | zero => rfl
  | succ width ih => rw [toLeBytes, List.length_cons, ih]

theorem fromLeBytes_toLeBytes (width n : Nat) (fits : n < 256 ^ width) :
    fromLeBytes (toLeBytes width n) = n := by
  induction width generalizing n with
  | zero =>
    rw [Nat.pow_zero] at fits
    obtain rfl : n = 0 := by omega
    rfl
  | succ width ih =>
    have high : n / 256 < 256 ^ width := by
      rw [Nat.pow_succ] at fits
      omega
    have low : (UInt8.ofNat (n % 256)).toNat = n % 256 := by
      rw [UInt8.toNat_ofNat']
      omega
    rw [toLeBytes, fromLeBytes, low, ih _ high]
    omega

def formatMagic : List UInt8 := Wire.utf8 "KERNIS-DURABLE-STATE".toList

def formatVersion : Nat := 5

def checksumLen : Nat := 8

def headerLen : Nat := formatMagic.length + 2 + checksumLen

section Rows

variable [Postcard]

/-- Writes a row: the header, then the serialized snapshot. -/
def encodeState (state : DurableRunState) : Except StoreError (List UInt8) :=
  match state.persistedSnapshot with
  | .error error => .error error
  | .ok snapshot =>
    match Postcard.snapshotBytes snapshot with
    | .error error => .error (.ioFailure ("durable state encoding failed: ".toList ++ error))
    | .ok payload =>
      .ok (formatMagic ++ (toLeBytes 2 formatVersion ++
        (toLeBytes checksumLen (fnv1a payload).toNat ++ payload)))

/-- Reads a row: the header, the checksum, the snapshot, and the ledger it holds. -/
def decodeState (encoded : List UInt8) : Except StoreError DurableRunState :=
  if encoded.length < headerLen ∨ ¬ formatMagic.isPrefixOf encoded then
    .error (.dataCorruption "durable state schema header is invalid".toList)
  else
    let version := fromLeBytes ((encoded.drop formatMagic.length).take 2)
    if version ≠ formatVersion then
      .error (.dataCorruption
        ("unsupported durable state schema version ".toList ++ digits version))
    else
      let expectedChecksum :=
        fromLeBytes ((encoded.drop (formatMagic.length + 2)).take checksumLen)
      if expectedChecksum ≠ (fnv1a (encoded.drop headerLen)).toNat then
        .error (.dataCorruption "durable state checksum mismatch".toList)
      else
        match Postcard.takeSnapshot (encoded.drop headerLen) with
        | .error error =>
          .error (.dataCorruption ("durable state payload is invalid: ".toList ++ error))
        | .ok (snapshot, remainder) =>
          if remainder ≠ [] then
            .error (.dataCorruption "durable state payload has trailing bytes".toList)
          else DurableRunState.fromPersistedSnapshot snapshot

/-- The serializer writes every snapshot and reads it back without a remainder. -/
def RoundTrips : Prop :=
  ∀ snapshot, ∃ bytes, Postcard.snapshotBytes snapshot = .ok bytes ∧
    Postcard.takeSnapshot bytes = .ok (snapshot, [])

/-- A row with a right header is read from its payload. -/
theorem decodeState_of_payload {payload : List UInt8} {snapshot : PersistedRunSnapshot}
    (read : Postcard.takeSnapshot payload = .ok (snapshot, [])) :
    decodeState (formatMagic ++ (toLeBytes 2 formatVersion ++
      (toLeBytes checksumLen (fnv1a payload).toNat ++ payload))) =
        DurableRunState.fromPersistedSnapshot snapshot := by
  have fits : (fnv1a payload).toNat < 256 ^ checksumLen := (fnv1a payload).toNat_lt
  have afterMagic : ∀ tail : List UInt8, (formatMagic ++ tail).drop formatMagic.length = tail :=
    fun tail => List.drop_left
  have afterVersion : ∀ tail : List UInt8,
      (formatMagic ++ (toLeBytes 2 formatVersion ++ tail)).drop (formatMagic.length + 2) = tail := by
    intro tail
    rw [← List.drop_drop, afterMagic]
    exact List.drop_left' (length_toLeBytes 2 formatVersion)
  have afterHeader : (formatMagic ++ (toLeBytes 2 formatVersion ++
      (toLeBytes checksumLen (fnv1a payload).toNat ++ payload))).drop headerLen = payload := by
    unfold headerLen
    rw [← List.drop_drop, afterVersion]
    exact List.drop_left' (length_toLeBytes _ _)
  unfold decodeState
  simp only [afterMagic, afterVersion, afterHeader]
  rw [if_neg, if_neg, if_neg]
  · simp only [read]
    rfl
  · rw [List.take_left' (length_toLeBytes _ _), fromLeBytes_toLeBytes _ _ fits]
    simp
  · rw [List.take_left' (length_toLeBytes _ _), fromLeBytes_toLeBytes _ _ (by decide)]
    simp
  · rw [not_or, not_not]
    constructor
    · simp only [List.length_append, length_toLeBytes, headerLen]
      omega
    · exact List.isPrefixOf_iff_prefix.mpr (List.prefix_append _ _)

/-- **A row written for a reachable state reads back as that state.** -/
theorem decodeState_encodeState (roundTrips : RoundTrips) {runId : RunId} {state : DurableRunState}
    (reached : state.Reachable runId) (room : state.commitLedger.length < u64Max) :
    ∃ encoded, encodeState state = .ok encoded ∧ decodeState encoded = .ok state := by
  obtain ⟨payload, written, read⟩ := roundTrips ⟨runId, state.commitLedger⟩
  unfold encodeState
  rw [reached.persistedSnapshot room]
  simp only [written]
  refine ⟨_, rfl, ?_⟩
  rw [decodeState_of_payload read]
  exact reached.replays room

/-- The ledger loop counts below the largest revision. -/
theorem replayEntries_bound {state : DurableRunState} {expected : Nat}
    {entries : List CommitLedgerEntry} {result : DurableRunState × Nat}
    (inside : expected ≤ u64Max) (replayed : replayEntries state expected entries = .ok result) :
    expected + entries.length ≤ u64Max := by
  induction entries generalizing state expected with
  | nil => exact inside
  | cons entry rest ih =>
    rw [replayEntries] at replayed
    split at replayed
    · cases replayed
    · split at replayed
      · cases replayed
      · rename_i advanced
        obtain ⟨room, rfl⟩ := checkedNext_eq_some advanced
        have bound := ih room replayed
        rw [List.length_cons]
        omega

/-- A rejected ledger is a corruption. -/
theorem kind_of_replayEntries_error {state : DurableRunState} {expected : Nat}
    {entries : List CommitLedgerEntry} {error : StoreError}
    (rejected : replayEntries state expected entries = .error error) :
    error.kind = .dataCorruption := by
  induction entries generalizing state expected with
  | nil => cases rejected
  | cons entry rest ih =>
    rw [replayEntries] at rejected
    split at rejected
    · rename_i invalid
      cases rejected
      unfold replayEntry persistedMutationError at invalid
      split at invalid
      · cases invalid
        rfl
      · split at invalid
        · cases invalid
          rfl
        · split at invalid
          · cases invalid
            rfl
          · split at invalid
            · rename_i wrapped
              cases invalid
              split at wrapped <;> cases wrapped
              rfl
            · cases invalid
    · split at rejected
      · cases rejected
        rfl
      · exact ih rejected

/-- A state that is not encoded is corrupt, or the serializer failed. -/
theorem kind_of_encodeState_error {state : DurableRunState} {error : StoreError}
    (rejected : encodeState state = .error error) : error.kind ≠ .domain := by
  have corrupt : ∀ {error : StoreError}, state.validatePersisted = .error error →
      error.kind = .dataCorruption := by
    intro error invalid
    unfold DurableRunState.validatePersisted at invalid
    split at invalid
    · cases invalid
      rfl
    · split at invalid
      · cases invalid
        rfl
      · split at invalid
        · rename_i refused
          cases invalid
          unfold replayCommitLedger at refused
          split at refused
          · cases refused
            exact kind_of_replayEntries_error ‹_›
          · split at refused <;> cases refused
            rfl
        · split at invalid <;> cases invalid
          rfl
  unfold encodeState DurableRunState.persistedSnapshot at rejected
  cases valid : state.validatePersisted with
  | error other =>
    rw [valid] at rejected
    cases rejected
    rw [corrupt valid]
    decide
  | ok _ =>
    rw [valid] at rejected
    simp only at rejected
    split at rejected <;> cases rejected
    exact fun same => by cases same

/-- A state that is encoded has a ledger below the largest revision. -/
theorem ledger_of_encodeState {state : DurableRunState} {encoded : List UInt8}
    (written : encodeState state = .ok encoded) : state.commitLedger.length < u64Max := by
  unfold encodeState DurableRunState.persistedSnapshot at written
  cases valid : state.validatePersisted with
  | error error =>
    rw [valid] at written
    cases written
  | ok _ =>
    unfold DurableRunState.validatePersisted at valid
    split at valid
    · cases valid
    · split at valid
      · cases valid
      · split at valid
        · cases valid
        · rename_i reconstructed replayed
          unfold replayCommitLedger at replayed
          split at replayed
          · cases replayed
          · rename_i ended
            have bound := replayEntries_bound (by decide) ended
            omega

end Rows

/-! ### The store -/

/-- Physical durable store: one table of encoded rows. -/
structure FileDurableStore where
  rows : BTreeMap Text (List UInt8)
deriving DecidableEq

namespace FileDurableStore

/-- The row key of a run. -/
def rowKey (runId : RunId) : Text := runId.id.asStr

theorem rowKey_injective : Function.Injective rowKey := by
  intro first second same
  exact RunId.id_injective (Id.text_injective (Subtype.val_injective same))

/-- A freshly initialized table. -/
def new : FileDurableStore := ⟨∅⟩

/-- A row whose key is not the run of the state it holds. -/
def foreignRow (runId held : RunId) : StoreError :=
  .dataCorruption ("run row key ".toList ++ rowKey runId ++ " contains state for ".toList ++
    rowKey held)

variable [Postcard]

/-- Encodes an empty run and inserts it under a new key. -/
def createRun (runId : RunId) (store : FileDurableStore) :
    Except StoreError Nat × FileDurableStore :=
  match encodeState (.new runId) with
  | .error error => (.error error, store)
  | .ok encoded =>
    if (store.rows[rowKey runId]?).isSome then (.error (.runAlreadyExists runId), store)
    else (.ok 0, ⟨store.rows.insert (rowKey runId) encoded⟩)

/-- Reads and decodes the row of a run. -/
def loadRun (runId : RunId) (store : FileDurableStore) : Except StoreError DurableRunState :=
  match store.rows[rowKey runId]? with
  | none => .error (.runNotFound runId)
  | some encoded =>
    match decodeState encoded with
    | .error error => .error error
    | .ok state =>
      if state.runId ≠ runId then .error (foreignRow runId state.runId) else .ok state

/-- The write transaction of a commit on a decoded row: the result and the row to write. -/
def commitRow (request : CommitRequest) (state : DurableRunState) :
    Except StoreError (CommitResult × Option (List UInt8)) :=
  match state.idempotency[request.idempotencyKey]? with
  | some (existing, _) =>
    if existing = request.mutations then .ok (⟨state.revision, true⟩, none)
    else .error (.idempotencyConflict request.idempotencyKey)
  | none =>
    if request.expectedRevision ≠ state.revision then
      .error (.revisionConflict request.expectedRevision state.revision)
    else
      match checkedNext state.revision with
      | none => .error (.revisionExhausted state.revision)
      | some revision =>
        match state.applyMutations request.mutations with
        | .error error => .error error
        | .ok candidate =>
          match encodeState
              (candidate.recordCommit request.idempotencyKey request.mutations revision) with
          | .error error => .error error
          | .ok encoded => .ok (⟨revision, false⟩, some encoded)

/-- Applies one mutation batch to the decoded row inside one transaction. -/
def commit (request : CommitRequest) (store : FileDurableStore) :
    Except StoreError CommitResult × FileDurableStore :=
  if request.mutations = [] then (.error .emptyCommit, store)
  else
    match store.rows[rowKey request.runId]? with
    | none => (.error (.runNotFound request.runId), store)
    | some encoded =>
      match decodeState encoded with
      | .error error => (.error error, store)
      | .ok state =>
        if state.runId ≠ request.runId then
          (.error (foreignRow request.runId state.runId), store)
        else
          match commitRow request state with
          | .error error => (.error error, store)
          | .ok (result, none) => (.ok result, store)
          | .ok (result, some row) => (.ok result, ⟨store.rows.insert (rowKey request.runId) row⟩)

instance : DurableStore FileDurableStore where
  createRun := createRun
  loadRun := loadRun
  commit := commit

/-- The transaction decides like the in-memory commit, and then encodes the state to keep. -/
theorem commitRow_eq (request : CommitRequest) (state : DurableRunState) :
    commitRow request state =
      match state.commit request with
      | .error error => .error error
      | .ok (result, kept) =>
        if result.replayed then .ok (result, none)
        else
          match encodeState kept with
          | .error error => .error error
          | .ok encoded => .ok (result, some encoded) := by
  unfold commitRow DurableRunState.commit
  cases state.idempotency[request.idempotencyKey]? with
  | some held =>
    by_cases same : held.1 = request.mutations
    · simp only [same, if_true]
    · simp only [same, if_false]
  | none =>
    by_cases atHead : request.expectedRevision = state.revision
    · cases checkedNext state.revision with
      | none => simp only [atHead, ne_eq, not_true_eq_false, if_false]
      | some revision =>
        cases state.applyMutations request.mutations with
        | error error => simp only [atHead, ne_eq, not_true_eq_false, if_false]
        | ok candidate =>
          simp only [atHead, ne_eq, not_true_eq_false, if_false, Bool.false_eq_true]
    · simp only [ne_eq, atHead, not_false_eq_true, if_true]

/-- A commit writes the row of a fresh answer, or nothing. -/
theorem commit_row_cases (request : CommitRequest) (store : FileDurableStore) :
    (store.commit request).2 = store ∨
      ∃ revision, (store.commit request).1 = .ok ⟨revision, false⟩ := by
  unfold commit
  split
  · exact .inl rfl
  · split
    · exact .inl rfl
    · split
      · exact .inl rfl
      · split
        · exact .inl rfl
        · split
          · exact .inl rfl
          · exact .inl rfl
          · rename_i state _ _ _ result row decided
            rw [commitRow_eq] at decided
            cases committed : state.commit request with
            | error error =>
              rw [committed] at decided
              cases decided
            | ok outcome =>
              obtain ⟨reported, kept⟩ := outcome
              rw [committed] at decided
              rcases DurableRunState.commit_iff.mp committed with ⟨_, rfl, _⟩ | ⟨_, rfl⟩
              · cases decided
              · simp only [Bool.false_eq_true, if_false] at decided
                split at decided <;> cases decided
                exact .inr ⟨_, rfl⟩

end FileDurableStore

/-! ### Refinement -/

section Refinement

variable [Postcard]

/-- A row that holds the given state, or no row for no state. -/
def RowHolds (row : Option (List UInt8)) (state : Option DurableRunState) : Prop :=
  match row, state with
  | none, none => True
  | some encoded, some held => decodeState encoded = .ok held
  | _, _ => False

/-- **Every row of the file holds its run's in-memory state**, which is reachable. -/
structure Mirrors (file : FileDurableStore) (memory : InMemoryDurableStore) : Prop where
  rows : ∀ runId, RowHolds file.rows[FileDurableStore.rowKey runId]? memory.runs[runId]?
  reachable : memory.AllReachable

/-- No run of the store has reached the largest revision. -/
def BelowMax (store : InMemoryDurableStore) : Prop :=
  ∀ runId state, InMemoryDurableStore.loadRun runId store = .ok state → state.revision < u64Max

variable {file : FileDurableStore} {memory : InMemoryDurableStore}

theorem mirrors_new : Mirrors .new .new where
  rows := by
    intro runId
    simp [FileDurableStore.new, InMemoryDurableStore.new, RowHolds]
  reachable := InMemoryDurableStore.allReachable_new

/-- Writing a state of a run and the row that holds it. -/
theorem RowHolds.insert {runId : RunId} {encoded : List UInt8} {state : DurableRunState}
    (rows : ∀ other, RowHolds file.rows[FileDurableStore.rowKey other]? memory.runs[other]?)
    (holds : decodeState encoded = .ok state) (other : RunId) :
    RowHolds (file.rows.insert (FileDurableStore.rowKey runId) encoded)[
        FileDurableStore.rowKey other]? (memory.runs.insert runId state)[other]? := by
  rw [lookup_insert, lookup_insert]
  by_cases same : runId = other
  · subst same
    rw [if_pos rfl, if_pos rfl]
    exact holds
  · rw [if_neg same, if_neg fun equal => same (FileDurableStore.rowKey_injective equal)]
    exact rows other

/-- A run is unknown to both stores, or its row holds its in-memory state. -/
theorem Mirrors.run_cases (mirrors : Mirrors file memory) (runId : RunId) :
    (file.rows[FileDurableStore.rowKey runId]? = none ∧ memory.runs[runId]? = none) ∨
      ∃ encoded state, file.rows[FileDurableStore.rowKey runId]? = some encoded ∧
        memory.runs[runId]? = some state ∧ decodeState encoded = .ok state ∧
        state.runId = runId := by
  have row := mirrors.rows runId
  cases found : file.rows[FileDurableStore.rowKey runId]? with
  | none =>
    cases lookup : memory.runs[runId]? with
    | none => exact .inl ⟨rfl, rfl⟩
    | some state =>
      rw [found, lookup] at row
      exact row.elim
  | some encoded =>
    cases lookup : memory.runs[runId]? with
    | none =>
      rw [found, lookup] at row
      exact row.elim
    | some state =>
      rw [found, lookup] at row
      exact .inr ⟨encoded, state, rfl, rfl, row, (mirrors.reachable runId state lookup).runId_eq⟩

theorem Mirrors.createRun (roundTrips : RoundTrips) (mirrors : Mirrors file memory)
    (runId : RunId) :
    (file.createRun runId).1 = (memory.createRun runId).1 ∧
      Mirrors (file.createRun runId).2 (memory.createRun runId).2 := by
  obtain ⟨encoded, written, holds⟩ := decodeState_encodeState roundTrips
    (.new : (DurableRunState.new runId).Reachable runId) (by show 0 < u64Max; decide)
  have reachable := InMemoryDurableStore.allReachable_createRun runId mirrors.reachable
  unfold FileDurableStore.createRun
  unfold InMemoryDurableStore.createRun at reachable ⊢
  rw [written]
  rcases mirrors.run_cases runId with ⟨noRow, noState⟩ | ⟨held, state, row, found, _⟩
  · rw [if_neg (not_mem_of_lookup_none noState)] at reachable ⊢
    simp only [noRow, Option.isSome_none, Bool.false_eq_true, if_false]
    exact ⟨trivial, RowHolds.insert mirrors.rows holds, reachable⟩
  · rw [if_pos (mem_of_lookup found)]
    simp only [row, Option.isSome_some, if_true]
    exact ⟨trivial, mirrors⟩

theorem Mirrors.loadRun (mirrors : Mirrors file memory) (runId : RunId) :
    file.loadRun runId = memory.loadRun runId := by
  unfold FileDurableStore.loadRun InMemoryDurableStore.loadRun
  rcases mirrors.run_cases runId with ⟨noRow, noState⟩ | ⟨held, state, row, found, holds, own⟩
  · rw [noRow, noState]
  · rw [row, found]
    simp only [holds, own, ne_eq, not_true_eq_false, if_false]

/-- **A commit of the physical store**: as the in-memory store, or a fresh one that would reach the
largest revision and fails. -/
theorem Mirrors.commit_or_fails (roundTrips : RoundTrips) (mirrors : Mirrors file memory)
    (request : CommitRequest) :
    ((file.commit request).1 = (memory.commit request).1 ∧
        Mirrors (file.commit request).2 (memory.commit request).2) ∨
      (∃ kept : DurableRunState, memory.commit request =
          (.ok ⟨kept.revision, false⟩, ⟨memory.runs.insert request.runId kept⟩) ∧
        u64Max ≤ kept.revision) ∧
      ∃ error : StoreError, error.kind ≠ .domain ∧ file.commit request = (.error error, file) := by
  have reachable := InMemoryDurableStore.allReachable_commit request mirrors.reachable
  unfold FileDurableStore.commit
  unfold InMemoryDurableStore.commit at reachable ⊢
  by_cases empty : request.mutations = []
  · simp only [empty, if_true]
    exact .inl ⟨trivial, mirrors⟩
  · rw [if_neg empty] at reachable ⊢
    rw [if_neg empty]
    rcases mirrors.run_cases request.runId with
      ⟨noRow, noState⟩ | ⟨encoded, state, row, found, holds, own⟩
    · rw [noRow, noState]
      exact .inl ⟨rfl, mirrors⟩
    · rw [found] at reachable ⊢
      rw [row]
      simp only [holds, own, ne_eq, not_true_eq_false, if_false, FileDurableStore.commitRow_eq]
      cases decided : state.commit request with
      | error error => exact .inl ⟨rfl, mirrors⟩
      | ok outcome =>
        obtain ⟨result, kept⟩ := outcome
        simp only [decided] at reachable ⊢
        by_cases replayed : result.replayed = true
        · simp only [replayed, if_true]
          exact .inl ⟨trivial, mirrors⟩
        · rw [if_neg replayed] at reachable ⊢
          rw [if_neg replayed]
          have keptReachable := reachable request.runId kept (lookup_insert_self _ _ _)
          have counted := DurableRunState.revision_of_reachable keptReachable
          cases written : encodeState kept with
          | ok rewritten =>
            obtain ⟨again, same, decodes⟩ := decodeState_encodeState roundTrips keptReachable
              (ledger_of_encodeState written)
            rw [written] at same
            cases same
            exact .inl ⟨rfl, RowHolds.insert mirrors.rows decodes, reachable⟩
          | error error =>
            refine .inr ⟨⟨kept, ?_, ?_⟩, error, kind_of_encodeState_error written, rfl⟩
            · rcases DurableRunState.commit_iff.mp decided with ⟨_, rfl, _⟩ | ⟨fresh, rfl⟩
              · exact absurd rfl replayed
              · rw [fresh.revision]
            · rw [counted]
              refine Nat.le_of_not_lt fun room => ?_
              obtain ⟨_, same, _⟩ := decodeState_encodeState roundTrips keptReachable room
              rw [written] at same
              cases same

theorem Mirrors.commit (roundTrips : RoundTrips) (mirrors : Mirrors file memory)
    (request : CommitRequest) (below : BelowMax (memory.commit request).2) :
    (file.commit request).1 = (memory.commit request).1 ∧
      Mirrors (file.commit request).2 (memory.commit request).2 := by
  rcases mirrors.commit_or_fails roundTrips request with same | ⟨⟨kept, fresh, full⟩, _⟩
  · exact same
  · rw [fresh] at below
    have room := below request.runId kept
      (by rw [InMemoryDurableStore.loadRun, lookup_insert_self])
    exact absurd full (Nat.not_le_of_lt room)

/-- **One call**: equal answers, and the row of every run still holds its state. -/
theorem Mirrors.call (roundTrips : RoundTrips) (mirrors : Mirrors file memory) (one : StoreCall)
    (below : BelowMax (DurableStore.call one memory).2) :
    (DurableStore.call one file).1 = (DurableStore.call one memory).1 ∧
      Mirrors (DurableStore.call one file).2 (DurableStore.call one memory).2 := by
  cases one with
  | createRun runId =>
    obtain ⟨same, after⟩ := mirrors.createRun roundTrips runId
    exact ⟨congrArg StoreReply.created same, after⟩
  | loadRun runId => exact ⟨congrArg StoreReply.loaded (mirrors.loadRun runId), mirrors⟩
  | commit request =>
    obtain ⟨same, after⟩ := mirrors.commit roundTrips request below
    exact ⟨congrArg StoreReply.committed same, after⟩

/-- Equal answers over a whole sequence of calls, from any mirrored pair of stores. -/
theorem Mirrors.calls (roundTrips : RoundTrips) (mirrors : Mirrors file memory)
    (sequence : List StoreCall)
    (below : ∀ n, BelowMax (DurableStore.calls (sequence.take n) memory).2) :
    (DurableStore.calls sequence file).1 = (DurableStore.calls sequence memory).1 := by
  induction sequence generalizing file memory with
  | nil => rfl
  | cons one rest ih =>
    obtain ⟨same, after⟩ := mirrors.call roundTrips one (below 1)
    have others := ih after fun n => below (n + 1)
    simp only [DurableStore.calls, same, others]

end Refinement

/-- The answer is a data corruption. -/
def StoreReply.corrupt : StoreReply → Bool
  | .created (.error error) => error.kind = .dataCorruption
  | .loaded (.error error) => error.kind = .dataCorruption
  | .committed (.error error) => error.kind = .dataCorruption
  | _ => false

/-- The in-memory store never answers with a corruption. -/
theorem memory_calls_not_corrupt [Postcard] (sequence : List StoreCall)
    (store : InMemoryDurableStore) :
    ∀ reply ∈ (DurableStore.calls sequence store).1, reply.corrupt = false := by
  induction sequence generalizing store with
  | nil => simp [DurableStore.calls]
  | cons one rest ih =>
    refine List.forall_mem_cons.mpr ⟨?_, ih _⟩
    cases one with
    | createRun runId =>
      show (StoreReply.created (store.createRun runId).1).corrupt = false
      unfold InMemoryDurableStore.createRun
      split <;> rfl
    | loadRun runId =>
      show (StoreReply.loaded (store.loadRun runId)).corrupt = false
      unfold InMemoryDurableStore.loadRun
      split <;> rfl
    | commit request =>
      show (StoreReply.committed (store.commit request).1).corrupt = false
      cases answered : (store.commit request).1 with
      | ok result => rfl
      | error error =>
        show decide (error.kind = .dataCorruption) = false
        rw [InMemoryDurableStore.kind_of_commit_error answered]
        rfl

/-- **The physical store refines the in-memory store.** With a serializer that round-trips, every
sequence of calls in which no run reaches the largest revision gets the same answers from both, and
none of them is a corruption. -/
theorem physical_refines_memory [Postcard] (roundTrips : RoundTrips) (sequence : List StoreCall)
    (below : ∀ n, BelowMax (DurableStore.calls (sequence.take n) InMemoryDurableStore.new).2) :
    (DurableStore.calls sequence FileDurableStore.new).1 =
        (DurableStore.calls sequence InMemoryDurableStore.new).1 ∧
      ∀ reply ∈ (DurableStore.calls sequence FileDurableStore.new).1, reply.corrupt = false := by
  have same := mirrors_new.calls roundTrips sequence below
  refine ⟨same, ?_⟩
  rw [same]
  exact memory_calls_not_corrupt sequence _

/-- A sequence of calls raises a revision by at most its length. -/
theorem revision_le_calls [Postcard] (sequence : List StoreCall) (start : Nat)
    {store : InMemoryDurableStore}
    (before : ∀ (runId : RunId) (state : DurableRunState),
      store.runs[runId]? = some state → state.revision ≤ start)
    (runId : RunId) (state : DurableRunState)
    (found : (DurableStore.calls sequence store).2.runs[runId]? = some state) :
    state.revision ≤ start + sequence.length := by
  induction sequence generalizing store start with
  | nil => exact before runId state found
  | cons one rest ih =>
    have after : ∀ (runId : RunId) (state : DurableRunState),
        (DurableStore.call one store).2.runs[runId]? = some state →
          state.revision ≤ start + 1 := by
      intro other held lookup
      cases one with
      | createRun created =>
        change (store.createRun created).2.runs[other]? = some held at lookup
        unfold InMemoryDurableStore.createRun at lookup
        split at lookup
        · exact Nat.le_succ_of_le (before other held lookup)
        · rw [lookup_insert] at lookup
          split at lookup
          · cases lookup
            exact Nat.zero_le _
          · exact Nat.le_succ_of_le (before other held lookup)
      | loadRun _ => exact Nat.le_succ_of_le (before other held lookup)
      | commit request =>
        change (store.commit request).2.runs[other]? = some held at lookup
        rcases store.commit_cases request with ⟨same, _⟩ | ⟨old, next, known, nonempty, fresh⟩
        · rw [same] at lookup
          exact Nat.le_succ_of_le (before other held lookup)
        · rw [InMemoryDurableStore.commit_of_fresh known nonempty fresh, lookup_insert] at lookup
          split at lookup
          · cases lookup
            rw [fresh.revision]
            exact Nat.succ_le_succ (before _ old known)
          · exact Nat.le_succ_of_le (before other held lookup)
    have bound := ih (start + 1) after found
    rw [List.length_cons]
    omega

theorem physical_refines_memory_sample :
    let _ := Persisted.postcard
    (DurableStore.calls sampleLateDispatch FileDurableStore.new).1 =
      (DurableStore.calls sampleLateDispatch InMemoryDurableStore.new).1 := by
  intro _
  refine (physical_refines_memory Persisted.postcard_round_trips sampleLateDispatch ?_).1
  intro n runId state loaded
  have found : (DurableStore.calls (sampleLateDispatch.take n)
      InMemoryDurableStore.new).2.runs[runId]? = some state := by
    unfold InMemoryDurableStore.loadRun at loaded
    split at loaded
    · cases loaded
    · cases loaded
      assumption
  have bound := revision_le_calls _ 0 (by simp [InMemoryDurableStore.new]) runId state
    found
  have short : (sampleLateDispatch.take n).length ≤ 3 := List.length_take_le' n _
  unfold u64Max
  omega

end Kernis
