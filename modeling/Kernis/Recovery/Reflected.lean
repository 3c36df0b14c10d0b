/-
**What is stored under an idempotency key is a fact of the state.**

* `Reflected state mutation` — the fact of a mutation is in the state.
* `reflected_of_reachable` — in every reachable state this holds of every mutation that the
  idempotency index remembers. A replayed commit therefore answers for facts that are there.
-/

import Kernis.Recovery.Lineage

namespace Kernis

open Std

namespace DurableRunState

variable {state next : DurableRunState} {mutation : DurableMutation}

/-- The fact of a mutation is in the state. A replay identity may have been superseded. -/
def Reflected (state : DurableRunState) : DurableMutation → Prop
  | .recordWorkflowReplayIdentity _ => True
  | .admitAttempt admission => state.admissions[admission.attemptId]? = some admission
  | .recordIntent intent => state.intents[intent.operationId]? = some intent
  | .recordCancellation cancellation =>
    state.cancellations[cancellation.taskId]? = some cancellation
  | .recordDispatch dispatch => state.dispatches[dispatch.attemptId]? = some dispatch
  | .recordOutcome outcome => ∃ existing, state.outcomes[outcome.attemptId]? = some existing ∧
      existing.outcome = outcome.outcome
  | .recordCompletion completion => state.completions[completion.taskId]? = some completion

/-- An accepted mutation leaves its fact. -/
theorem Accepted.reflected (accepted : Accepted state mutation next) : Reflected next mutation := by
  cases accepted with
  | identity => trivial
  | admission => exact lookup_insert_self _ _ _
  | intentKnown _ known => exact known
  | intent => exact lookup_insert_self _ _ _
  | cancellationKnown _ _ known => exact known
  | cancellation => exact lookup_insert_self _ _ _
  | dispatch => exact lookup_insert_self _ _ _
  | outcomeKnown _ existing _ _ _ _ _ _ known same => exact ⟨existing, known, same⟩
  | outcome fact => exact ⟨fact, lookup_insert_self _ _ _, rfl⟩
  | completionKnown _ _ _ _ _ known => exact known
  | completion => exact lookup_insert_self _ _ _

/-- A fact stays. -/
theorem Reflected.mono (held : Reflected state mutation) (more : Extends state next) :
    Reflected next mutation := by
  cases mutation with
  | recordWorkflowReplayIdentity => trivial
  | admitAttempt => exact more.admissions held
  | recordIntent => exact more.intents held
  | recordCancellation => exact more.cancellations held
  | recordDispatch => exact more.dispatches held
  | recordOutcome =>
    obtain ⟨existing, found, same⟩ := held
    exact ⟨existing, more.outcomes found, same⟩
  | recordCompletion => exact more.completions held

theorem extends_of_applyMutations {mutations : List DurableMutation}
    (applied : state.applyMutations mutations = .ok next) : Extends state next :=
  applyMutations_preserves (fun accepted before => before.trans accepted.extends) applied (.refl _)

/-- An accepted batch leaves the facts of all its mutations. -/
theorem reflected_of_applyMutations {mutations : List DurableMutation}
    (applied : state.applyMutations mutations = .ok next) :
    ∀ mutation ∈ mutations, Reflected next mutation := by
  induction mutations generalizing state with
  | nil => exact fun _ member => absurd member List.not_mem_nil
  | cons first rest ih =>
    unfold applyMutations at applied
    split at applied
    · cases applied
    · rename_i middle accepted
      refine List.forall_mem_cons.mpr ⟨?_, ih applied⟩
      exact (accepted_iff.mp accepted).reflected.mono (extends_of_applyMutations applied)

variable [Postcard]

/-- **A remembered mutation is a fact.** -/
theorem reflected_of_reachable {runId : RunId} (reached : state.Reachable runId)
    {key : IdempotencyKey} {mutations : List DurableMutation} {revision : Nat}
    (remembered : state.idempotency[key]? = some (mutations, revision)) :
    ∀ mutation ∈ mutations, Reflected state mutation := by
  induction reached with
  | new => simp [DurableRunState.new] at remembered
  | @commit state _ request _ _ _ committed ih =>
    obtain ⟨candidate, applied, rfl⟩ := committed.applied
    have more : Extends candidate (candidate.recordCommit request.idempotencyKey request.mutations
      (state.revision + 1)) := .recordCommit candidate _ _ _
    simp only [recordCommit] at remembered
    rw [lookup_insert] at remembered
    split at remembered
    · cases remembered
      exact fun mutation member => (reflected_of_applyMutations applied mutation member).mono more
    · rw [(sameHead_of_applyMutations applied).idempotency] at remembered
      exact fun mutation member => (ih remembered mutation member).mono
        ((extends_of_applyMutations applied).trans more)

end DurableRunState

end Kernis
