/-
**The commit ledger of a run is its history.**

A run is a machine that logs its commits (`DurableRunState.history`). So the states of a run that commits
can reach, whichever clients sent them, are ordered as their ledgers are: a later state is one whose
ledger goes on, every earlier part of a ledger replays to the state that the run had then, and two copies
of a run that went on apart from each other part at one commit, which their ledgers name.
-/

import Kernis.Lib.History
import Kernis.Recovery.Ledger
import Kernis.Recovery.Reflected

namespace Kernis

open Std

namespace DurableRunState

variable [Postcard]

/-- The entry determines the commit. -/
theorem FreshCommit.determined {state first second : DurableRunState} {request other : CommitRequest}
    (one : FreshCommit state request first) (two : FreshCommit state other second)
    (key : request.idempotencyKey = other.idempotencyKey)
    (mutations : request.mutations = other.mutations) : first = second := by
  obtain ⟨candidate, applied, rfl⟩ := one.applied
  obtain ⟨again, reapplied, rfl⟩ := two.applied
  rw [mutations, reapplied] at applied
  cases applied
  rw [key, mutations]

/-- **A run as a machine that logs its commits.** -/
def history (runId : RunId) : EventSourced DurableRunState CommitLedgerEntry where
  root := .new runId
  Step state entry next := ∃ request, request.runId = runId ∧ request.mutations ≠ [] ∧
    FreshCommit state request next ∧ next.commitLedger = state.commitLedger ++ [entry]
  log := commitLedger
  log_root := rfl
  log_step := by
    rintro state entry next ⟨_, _, _, _, logged⟩
    exact logged
  determined := by
    rintro state entry first second ⟨request, _, _, one, logged⟩ ⟨other, _, _, two, again⟩
    have named := List.append_cancel_left (one.commitLedger.symm.trans logged)
    have renamed := List.append_cancel_left (two.commitLedger.symm.trans again)
    have same := List.cons.inj (named.trans renamed.symm) |>.1
    exact one.determined two (congrArg CommitLedgerEntry.idempotencyKey same)
      (congrArg CommitLedgerEntry.mutations same)

variable {runId : RunId} {state next : DurableRunState}

/-- Sequences of commits are what the machine can do. -/
theorem leads_iff_produces :
    (history runId).Leads state next ↔ ∃ requests, Produces runId state requests next := by
  constructor
  · intro leads
    induction leads using Relation.ReflTransGen.head_induction_on with
    | refl => exact ⟨[], .nil _⟩
    | head step _ ih =>
      obtain ⟨_, request, own, nonempty, fresh, _⟩ := step
      obtain ⟨requests, produced⟩ := ih
      exact ⟨request :: requests, .cons own nonempty fresh produced⟩
  · rintro ⟨requests, produced⟩
    induction produced with
    | nil => exact .refl
    | cons own nonempty fresh _ ih => exact .head ⟨_, _, own, nonempty, fresh, fresh.commitLedger⟩ ih

theorem Reachable.leads (reached : state.Reachable runId) : (history runId).Leads (.new runId) state :=
  leads_iff_produces.mpr reached.produced

theorem reachable_of_leads (leads : (history runId).Leads (.new runId) state) :
    state.Reachable runId := by
  obtain ⟨requests, produced⟩ := leads_iff_produces.mp leads
  exact produced.reachable .new

/-- A commit keeps the facts. -/
theorem FreshCommit.extends {request : CommitRequest} (fresh : FreshCommit state request next) :
    Extends state next := by
  obtain ⟨candidate, applied, rfl⟩ := fresh.applied
  exact (extends_of_applyMutations applied).trans (.recordCommit _ _ _ _)

theorem Produces.extends {requests : List CommitRequest} (produced : Produces runId state requests next) :
    Extends state next := by
  induction produced with
  | nil state => exact .refl state
  | cons _ _ fresh _ ih => exact fresh.extends.trans ih

/-- **The ledger is the history.** For any two states that commits on a run can reach: the second is later
than the first exactly when its ledger goes on, and then it keeps every fact of the first; every earlier
part of a ledger replays to the state that the run had at that revision; and the two parted at the state
that the common part of their ledgers replays to, the last one that leads to both. -/
theorem ledger_is_history (runId : RunId) (first second : DurableRunState)
    (reached : first.Reachable runId) (again : second.Reachable runId)
    (room : first.commitLedger.length < u64Max) :
    ((∃ requests, Produces runId first requests second) ↔
        first.commitLedger <+: second.commitLedger) ∧
      (first.commitLedger <+: second.commitLedger → Extends first second) ∧
      (∀ revision ≤ first.revision, ∃ past requests,
        replayCommitLedger runId (first.commitLedger.take revision) = .ok past ∧
          past.revision = revision ∧ Produces runId past requests first) ∧
      ∃ fork requests others,
        replayCommitLedger runId (commonPrefix first.commitLedger second.commitLedger) = .ok fork ∧
          Produces runId fork requests first ∧ Produces runId fork others second ∧
          ∀ other, other.Reachable runId → (∃ more, Produces runId other more first) →
            (∃ more, Produces runId other more second) → ∃ more, Produces runId other more fork := by
  have later : (∃ requests, Produces runId first requests second) ↔
      first.commitLedger <+: second.commitLedger :=
    leads_iff_produces.symm.trans (EventSourced.leads_iff reached.leads again.leads)
  refine ⟨later, fun goesOn => ?_, fun revision known => ?_, ?_⟩
  · obtain ⟨requests, produced⟩ := later.mpr goesOn
    exact produced.extends
  · obtain ⟨past, began, logged, onward⟩ :=
      EventSourced.exists_at reached.leads (List.take_prefix revision first.commitLedger)
    obtain ⟨requests, produced⟩ := leads_iff_produces.mp onward
    have counted := revision_of_reachable reached
    have length : past.commitLedger.length = revision := by
      rw [show past.commitLedger = first.commitLedger.take revision from logged, List.length_take]
      omega
    have before := reachable_of_leads began
    have replayed := before.replays (by omega)
    rw [show past.commitLedger = first.commitLedger.take revision from logged] at replayed
    exact ⟨past, requests, replayed, by rw [revision_of_reachable before, length], produced⟩
  · obtain ⟨fork, began, logged, left, right, last⟩ :=
      EventSourced.exists_fork reached.leads again.leads
    obtain ⟨requests, toFirst⟩ := leads_iff_produces.mp left
    obtain ⟨others, toSecond⟩ := leads_iff_produces.mp right
    have short := left.prefix_log.length_le
    have replayed := (reachable_of_leads began).replays (Nat.lt_of_le_of_lt short room)
    rw [show fork.commitLedger = commonPrefix first.commitLedger second.commitLedger from logged]
      at replayed
    refine ⟨fork, requests, others, replayed, toFirst, toSecond, fun other known one two => ?_⟩
    exact leads_iff_produces.mp (last other known.leads (leads_iff_produces.mpr one)
      (leads_iff_produces.mpr two))

end DurableRunState

/-- Two copies of the sample run go on apart: one records an intent, the other a cancellation. -/
def sampleCopies : List StoreCall × List StoreCall :=
  (sampleAdmission ++ [.commit (.single sampleRun 1 ⟨⟨"one".toList, by decide⟩⟩
      (.recordIntent ⟨sampleTask, sampleOperation, .idempotent⟩))],
    sampleAdmission ++ [.commit (.single sampleRun 1 ⟨⟨"two".toList, by decide⟩⟩
      (.recordCancellation ⟨sampleRun, sampleTask, none, none⟩))])

theorem ledger_is_history_sample :
    let _ := Persisted.postcard
    ∃ first second fork,
      InMemoryDurableStore.loadRun sampleRun
          (DurableStore.calls sampleCopies.1 InMemoryDurableStore.new).2 = .ok first ∧
        InMemoryDurableStore.loadRun sampleRun
          (DurableStore.calls sampleCopies.2 InMemoryDurableStore.new).2 = .ok second ∧
        (¬ ∃ requests, DurableRunState.Produces sampleRun first requests second) ∧
        replayCommitLedger sampleRun (commonPrefix first.commitLedger second.commitLedger) = .ok fork ∧
        (∃ requests, DurableRunState.Produces sampleRun fork requests first) ∧
        ∃ requests, DurableRunState.Produces sampleRun fork requests second := by
  intro _
  obtain ⟨first, one, copies⟩ := exists_ok_of_any
    (show ((InMemoryDurableStore.loadRun sampleRun
      (DurableStore.calls sampleCopies.1 InMemoryDurableStore.new).2).toOption.any fun first =>
        (InMemoryDurableStore.loadRun sampleRun
          (DurableStore.calls sampleCopies.2 InMemoryDurableStore.new).2).toOption.any fun second =>
            first.commitLedger.length = 2 ∧
              ¬ first.commitLedger.isPrefixOf second.commitLedger) = true by decide +kernel)
  obtain ⟨second, two, holds⟩ := exists_ok_of_any copies
  obtain ⟨count, apart⟩ := of_decide_eq_true holds
  obtain ⟨later, _, _, fork, requests, others, replayed, toFirst, toSecond, _⟩ :=
    DurableRunState.ledger_is_history sampleRun first second (InMemoryDurableStore.reachable_of_calls _ one)
      (InMemoryDurableStore.reachable_of_calls _ two) (by rw [count]; decide)
  refine ⟨first, second, fork, one, two, fun produced => apart ?_, replayed, ⟨_, toFirst⟩, _, toSecond⟩
  exact List.isPrefixOf_iff_prefix.mpr (later.mp produced)

end Kernis
