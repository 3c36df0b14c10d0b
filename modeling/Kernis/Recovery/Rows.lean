/-
**Stores with a row for every run.**

`RowStore` — a call about a run reads the row of that run only, and changes no other row. The physical
store is one whatever bytes its rows hold: a row that is not decoded fails the calls of its own run.
-/

import Kernis.Recovery.Physical

namespace Kernis

open Std

/-- **A store with a row for every run.** A call about a run depends on the row of that run, and leaves the
other rows as they are. -/
class RowStore (σ : Type) extends DurableStore σ where
  Row : Type
  row : σ → RunId → Option Row
  create_own : ∀ {store other : σ} {runId : RunId}, row store runId = row other runId →
    (createRun runId store).1 = (createRun runId other).1 ∧
      row (createRun runId store).2 runId = row (createRun runId other).2 runId
  load_own : ∀ {store other : σ} {runId : RunId}, row store runId = row other runId →
    loadRun runId store = loadRun runId other
  commit_own : ∀ {store other : σ} {request : CommitRequest},
    row store request.runId = row other request.runId →
    (commit request store).1 = (commit request other).1 ∧
      row (commit request store).2 request.runId = row (commit request other).2 request.runId
  create_apart : ∀ {store : σ} {runId : RunId} (other : RunId), other ≠ runId →
    row (createRun runId store).2 other = row store other
  commit_apart : ∀ {store : σ} {request : CommitRequest} (other : RunId), other ≠ request.runId →
    row (commit request store).2 other = row store other

variable [Postcard]

/-! ### The physical store -/

namespace FileDurableStore

variable {store other : FileDurableStore} {runId : RunId} {request : CommitRequest}

theorem createRun_own (same : store.rows[rowKey runId]? = other.rows[rowKey runId]?) :
    (store.createRun runId).1 = (other.createRun runId).1 ∧
      (store.createRun runId).2.rows[rowKey runId]? = (other.createRun runId).2.rows[rowKey runId]? := by
  unfold createRun
  rw [same]
  split
  · exact ⟨rfl, same⟩
  · split
    · exact ⟨rfl, same⟩
    · rw [lookup_insert_self, lookup_insert_self]
      exact ⟨rfl, rfl⟩

theorem commit_own
    (same : store.rows[rowKey request.runId]? = other.rows[rowKey request.runId]?) :
    (store.commit request).1 = (other.commit request).1 ∧
      (store.commit request).2.rows[rowKey request.runId]? =
        (other.commit request).2.rows[rowKey request.runId]? := by
  unfold commit
  rw [same]
  split
  · exact ⟨rfl, same⟩
  · split
    · exact ⟨rfl, same⟩
    · split
      · exact ⟨rfl, same⟩
      · split
        · exact ⟨rfl, same⟩
        · split
          · exact ⟨rfl, same⟩
          · exact ⟨rfl, same⟩
          · rw [lookup_insert_self, lookup_insert_self]
            exact ⟨rfl, rfl⟩

theorem createRun_apart (another : RunId) (differs : another ≠ runId) :
    (store.createRun runId).2.rows[rowKey another]? = store.rows[rowKey another]? := by
  unfold createRun
  split
  · rfl
  · split
    · rfl
    · exact lookup_insert_ne _ _ fun equal => differs (rowKey_injective equal).symm

theorem commit_apart (another : RunId) (differs : another ≠ request.runId) :
    (store.commit request).2.rows[rowKey another]? = store.rows[rowKey another]? := by
  unfold commit
  repeat' split
  all_goals first
    | rfl
    | exact lookup_insert_ne _ _ fun equal => differs (rowKey_injective equal).symm

instance : RowStore FileDurableStore where
  Row := List UInt8
  row store runId := store.rows[rowKey runId]?
  create_own := createRun_own
  load_own same := by
    show FileDurableStore.loadRun _ _ = FileDurableStore.loadRun _ _
    unfold loadRun
    rw [same]
  commit_own := commit_own
  create_apart := createRun_apart
  commit_apart := commit_apart

end FileDurableStore

end Kernis
