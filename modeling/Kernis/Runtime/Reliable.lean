/-
**Commits that go through.**

Over the in-memory store nothing refuses a commit but an exhausted revision, or an idempotency key that is
there for something else.

* `Action.New` — an action records what is not recorded yet. `Coherent.newKey`: its key is then unused.
* `act_new` — an allowed action that is new goes through while there is a revision left.
* `Took` — what it leaves; `admit_ok` — an admission is announced when the lifecycle stream is empty.
* `perform_of_reply`, `perform_of_again` — a command whose decision is known.
-/

import Kernis.Runtime.Canonical
import Kernis.Runtime.Doomed

namespace Kernis

open Std Fallible

/-- An action records something that is not recorded yet. -/
def Action.New (state : DurableRunState) : Action → Prop
  | .outcome fact _ => fact.attemptId ∉ state.outcomes
  | .cancel fact => fact.taskId ∉ state.cancellations
  | _ => True

namespace DurableJournal

variable {journal : DurableJournal}

theorem persistIntent_of {intent : EffectIntent} (unknown : intent.operationId ∉ journal.intents)
    (free : journal.operationForTask intent.taskId = none) :
    ∃ next, journal.persistIntent intent = .ok next := by
  unfold operationForTask at free
  unfold persistIntent
  rw [if_neg unknown, free]
  exact ⟨_, rfl⟩

theorem persistDispatch_of {dispatch : DispatchRecord}
    (prepared : dispatch.operationId ∈ journal.intents)
    (fresh : dispatch.attemptId ∉ journal.dispatches) :
    ∃ next, journal.persistDispatch dispatch = .ok next := by
  unfold persistDispatch
  rw [if_neg (not_not.mpr prepared), if_neg fresh]
  exact ⟨_, rfl⟩

theorem persistOutcome_of {outcome : OutcomeRecord} {dispatch : DispatchRecord}
    (prepared : outcome.operationId ∈ journal.intents)
    (sent : journal.dispatches[outcome.attemptId]? = some dispatch)
    (carried : dispatch.operationId = outcome.operationId)
    (fresh : outcome.attemptId ∉ journal.outcomes) :
    ∃ next, journal.persistOutcome outcome = .ok next := by
  unfold persistOutcome
  rw [if_neg (not_not.mpr prepared), sent]
  simp only [carried, ne_eq, not_true_eq_false, if_false, lookup_none_of_not_mem fresh]
  exact ⟨_, rfl⟩

end DurableJournal

/-- The task of a completion is read back from its key. -/
theorem completion_subject_task {runId : RunId} {first second : Nat} {taskId other : Id}
    (same : taskId.asStr ++ ":".toList ++ (generatedAttemptId runId first).id.asStr =
      other.asStr ++ ":".toList ++ (generatedAttemptId runId second).id.asStr) : taskId = other := by
  have regroup : ∀ (owner : Id) (number : Nat),
      owner.asStr ++ ":".toList ++ (generatedAttemptId runId number).id.asStr =
        (owner.asStr ++ ":".toList ++ runId.id.asStr ++ "-attempt".toList) ++
          '-' :: digits number := by
    intro owner number
    show owner.asStr ++ ":".toList ++ (runId.id.asStr ++ "-attempt-".toList ++ digits number) = _
    simp [List.append_assoc]
  rw [regroup, regroup] at same
  obtain ⟨front, _⟩ := append_digits_cancel (by decide) same
  exact Id.asStr_injective (List.append_cancel_right (List.append_cancel_right
    (List.append_cancel_right front)))

namespace Runtime

variable {σ ν : Type} [Postcard]

section Keys

variable {runtime : Runtime σ ν} {state : DurableRunState}

/-- The attempt of an allowed completion is admitted. -/
theorem Coherent.completion_admitted (coherent : Coherent runtime state) {fact : CompletionRecord}
    {workflow : WorkflowGraph} (allowed : runtime.Allowed (.complete fact workflow)) :
    fact.attemptId ∈ state.admissions := by
  rcases allowed.2 with ⟨_, holds⟩ | ⟨operationId, outcome, success⟩
  · obtain ⟨admission, admitted, _⟩ := coherent.admitted holds
    exact mem_of_lookup admitted
  · obtain ⟨admission, admitted, _⟩ := coherent.effectSucceeded success
    exact mem_of_lookup admitted

/-- A stored completion under the key of an allowed one is of the same task. -/
theorem Coherent.completion_task (coherent : Coherent runtime state) {fact other : CompletionRecord}
    {workflow : WorkflowGraph} (allowed : runtime.Allowed (.complete fact workflow))
    (stored : state.completions[other.taskId]? = some other)
    (same : other.taskId.asStr ++ ":".toList ++ other.attemptId.id.asStr =
      fact.taskId.asStr ++ ":".toList ++ fact.attemptId.id.asStr) : other.taskId = fact.taskId := by
  have lineage := coherent.owned.lineage
  obtain ⟨admission, admitted, _⟩ := lineage.completed other (lineage.completions.mem_of_lookup stored)
  obtain ⟨first, _, _, named⟩ := coherent.owned.generated (mem_of_lookup admitted)
  obtain ⟨second, _, _, own⟩ := coherent.owned.generated (coherent.completion_admitted allowed)
  rw [named, own] at same
  exact completion_subject_task same

/-- **The key of a new action is unused.** -/
theorem Coherent.newKey (coherent : Coherent runtime state) {action : Action}
    (allowed : runtime.Allowed action) (new : action.New state) {key : IdempotencyKey}
    (own : key.text.val = mutationKey state.revision action.mutation) : key ∉ state.idempotency := by
  intro member
  obtain ⟨⟨mutations, revision⟩, found⟩ := exists_lookup_of_mem member
  obtain ⟨stored, rfl, fact, kinds, earlier, before, subjects⟩ := coherent.owned.replayed own found
  cases action with
  | intent intent journal =>
    have persisted : runtime.journal.persistIntent intent = .ok journal := allowed.2.2
    rw [coherent.journal] at persisted
    obtain ⟨unknown, _⟩ := DurableRunState.persistIntent_journal persisted
    cases stored with
    | recordIntent other =>
      have same : other.operationId = intent.operationId :=
        OperationId.id_injective (Id.asStr_injective subjects)
      exact unknown (same ▸ mem_of_lookup fact)
    | _ => cases kinds
  | admission attempt =>
    obtain ⟨taskId, operationId, pins, _, rfl⟩ := allowed
    cases stored with
    | admitAttempt other =>
      have same : other.attemptId = generatedAttemptId runtime.runId runtime.nextAttemptNumber :=
        AttemptId.id_injective (Id.asStr_injective subjects)
      have there : generatedAttemptId runtime.runId runtime.nextAttemptNumber ∈ state.admissions :=
        same ▸ mem_of_lookup fact
      rw [coherent.number, ← coherent.runId] at there
      exact coherent.owned.next_not_admitted there
    | _ => cases kinds
  | dispatch dispatch journal =>
    obtain ⟨_, _, _, _, _, persisted⟩ := allowed
    rw [coherent.journal] at persisted
    obtain ⟨_, fresh, _⟩ := DurableRunState.persistDispatch_journal persisted
    cases stored with
    | recordDispatch other =>
      have same : other.attemptId = dispatch.attemptId :=
        AttemptId.id_injective (Id.asStr_injective subjects)
      exact fresh (same ▸ mem_of_lookup fact)
    | _ => cases kinds
  | outcome outcome journal =>
    cases stored with
    | recordOutcome other =>
      have same : other.attemptId = outcome.attemptId :=
        AttemptId.id_injective (Id.asStr_injective subjects)
      obtain ⟨existing, concluded, _⟩ := fact
      exact new (same ▸ mem_of_lookup concluded)
    | _ => cases kinds
  | cancel cancellation =>
    cases stored with
    | recordCancellation other =>
      have same : other.taskId = cancellation.taskId := Id.asStr_injective subjects
      exact new (same ▸ mem_of_lookup fact)
    | _ => cases kinds
  | complete completion workflow =>
    cases stored with
    | recordCompletion other =>
      have same := coherent.completion_task allowed fact subjects
      obtain ⟨_, unfinished, _⟩ := WorkflowGraph.complete_eq_ok allowed.1
      have done := (coherent.completed completion.taskId).mpr (same ▸ mem_of_lookup fact)
      cases unfinished.symm.trans done
    | _ => cases kinds
  | configure taskConfigs identity =>
    cases stored with
    | recordWorkflowReplayIdentity other =>
      rw [digits_of_colon subjects] at before
      exact Nat.lt_irrefl _ before
    | _ => cases kinds
  | mutate workflow identity =>
    cases stored with
    | recordWorkflowReplayIdentity other =>
      rw [digits_of_colon subjects] at before
      exact Nat.lt_irrefl _ before
    | _ => cases kinds

end Keys

/-! ### Acting over the in-memory store -/

section Acting

variable {runtime : Runtime InMemoryDurableStore ν} {state : DurableRunState} {action : Action}

/-- **A new action goes through** while there is a revision left. -/
theorem act_new (allowed : runtime.Allowed action) (synced : Synced runtime state)
    (new : action.New state) (room : state.revision < u64Max) :
    ∃ (store : InMemoryDurableStore) (candidate : DurableRunState) (key : IdempotencyKey),
      act action runtime = action.settle (runtime.accepted store (state.revision + 1)) ∧
      DurableRunState.Accepted state action.mutation candidate ∧
      Synced (act action runtime).2
        (candidate.recordCommit key [action.mutation] (state.revision + 1)) := by
  have coherent := synced.coherent
  have own := own_key action coherent
  have newKey := coherent.newKey allowed new own
  obtain ⟨candidate, accepted⟩ := coherent.accepts allowed own newKey
  have committed : state.commit (action.request runtime) = .ok (⟨state.revision + 1, false⟩,
      candidate.recordCommit (action.request runtime).idempotencyKey [action.mutation]
        (state.revision + 1)) :=
    DurableRunState.commit_iff.mpr (.inr ⟨⟨newKey, coherent.revision, room, candidate,
      DurableRunState.applyMutations_singleton.mpr accepted, rfl⟩, rfl⟩)
  have found : runtime.store.runs[(action.request runtime).runId]? = some state := synced.backed
  have nonempty : (action.request runtime).mutations ≠ [] := List.cons_ne_nil _ _
  have answer : DurableStore.commit (action.request runtime) runtime.store =
      (.ok ⟨state.revision + 1, false⟩, ⟨runtime.store.runs.insert runtime.runId
        (candidate.recordCommit (action.request runtime).idempotencyKey [action.mutation]
          (state.revision + 1))⟩) := by
    show InMemoryDurableStore.commit (action.request runtime) runtime.store = _
    unfold InMemoryDurableStore.commit
    rw [if_neg nonempty, found]
    simp only [committed, Bool.false_eq_true, if_false]
    rfl
  have acted := act_eq action runtime
  rw [answer] at acted
  have went : Acted runtime state action
      (action.settle (runtime.accepted _ (state.revision + 1))).1
      (action.settle (runtime.accepted _ (state.revision + 1))).2 _ :=
    .fresh room own newKey accepted rfl
  refine ⟨_, candidate, (action.request runtime).idempotencyKey, acted, accepted, ?_⟩
  rw [acted]
  exact went.synced allowed synced

/-- **What an action that went through leaves.** Only an admission that finds the lifecycle stream full
parks anything. -/
structure Took (runtime reached : Runtime InMemoryDurableStore ν) (state next : DurableRunState)
    (action : Action) : Prop where
  synced : Synced reached next
  accepted : ∃ (candidate : DurableRunState) (key : IdempotencyKey),
    DurableRunState.Accepted state action.mutation candidate ∧
      next = candidate.recordCommit key [action.mutation] (state.revision + 1)
  workflow : reached.workflow = action.workflowAfter runtime.workflow
  taskConfigs : reached.taskConfigs = action.configsAfter runtime.taskConfigs
  scope : reached.scope = runtime.scope
  idle : runtime.pendingStarted = none →
    runtime.executionEvents.items = [] ∨ (∀ attempt, action ≠ .admission attempt) →
      reached.pendingStarted = none

omit [Postcard] in
/-- A runtime with an empty lifecycle stream parks nothing. -/
theorem settle_idle (action : Action) (runtime : Runtime σ ν) (idle : runtime.pendingStarted = none)
    (calm : runtime.executionEvents.items = [] ∨ ∀ attempt, action ≠ .admission attempt) :
    (action.settle runtime).2.pendingStarted = none := by
  cases action with
  | admission attempt =>
    have empty := calm.resolve_right fun other => other attempt rfl
    rw [settle_admission]
    split
    · exact idle
    · split
      · exact idle
      · rename_i item sequencer emitted
        obtain ⟨events, pushed⟩ := runtime.executionEvents.tryPush_of_empty empty item
        rw [pushed]
        exact idle
  | complete fact workflow =>
    rw [settle_complete]
    repeat' split
    all_goals exact idle
  | _ => exact idle

theorem act_took (allowed : runtime.Allowed action) (synced : Synced runtime state)
    (new : action.New state) (room : state.revision < u64Max) :
    ∃ next, Took runtime (act action runtime).2 state next action := by
  obtain ⟨store, candidate, key, acted, accepted, after⟩ := act_new allowed synced new room
  obtain ⟨workflow, taskConfigs, _, scope⟩ :=
    settle_views action (runtime.accepted store (state.revision + 1))
  refine ⟨_, after, ⟨candidate, key, accepted, rfl⟩, ?_, ?_, ?_, fun idle calm => ?_⟩
  · rw [acted]
    exact workflow
  · rw [acted]
    exact taskConfigs
  · rw [acted]
    exact scope
  · rw [acted]
    exact settle_idle action (runtime.accepted store (state.revision + 1)) idle calm

/-- **An admission is announced** when the lifecycle stream is empty. -/
theorem admit_ok {attempt : TaskAttempt} (allowed : runtime.Allowed (.admission attempt))
    (synced : Synced runtime state) (room : state.revision < u64Max)
    (empty : runtime.executionEvents.items = []) :
    (act (.admission attempt) runtime).1 = .ok () := by
  have coherent := synced.coherent
  obtain ⟨store, candidate, key, acted, _⟩ := act_new allowed synced trivial room
  have number : runtime.nextAttemptNumber < u64Max := by
    have := coherent.owned.room
    rw [coherent.number]
    omega
  rw [acted]
  rcases Coherent.settle_admit_cases attempt (runtime.accepted store (state.revision + 1)) number
    coherent.live (Nat.lt_of_le_of_lt coherent.sequence room) with ⟨events, settled⟩ | ⟨_, full, _⟩
  · rw [settled]
  · have full : runtime.executionEvents.items.length = runtime.executionEvents.capacity := full
    have := runtime.executionEvents.positive
    rw [empty, List.length_nil] at full
    omega

end Acting

/-! ### Commands whose decision is known -/

section Commands

variable {σ : Type} [DurableStore σ] {runtime : Runtime σ ν} {command : Command} {action : Action}

omit [Postcard] in
/-- A command that answers after its action leaves what the action leaves. -/
theorem perform_of_reply {reply : Reply} (decided : command.decide runtime = .act action (.reply reply)) :
    (command.perform runtime).2 = (act action runtime).2 := by
  rw [command.perform_eq, decided, execute_reply, run_map]

omit [Postcard] in
/-- A command that starts over goes on from what its action leaves. -/
theorem perform_of_again {middle : Runtime σ ν} (decided : command.decide runtime = .act action .again)
    (acted : act action runtime = (.ok (), middle)) :
    command.perform runtime = command.perform middle := by
  rw [command.perform_eq runtime, decided]
  simp only [Command.execute, run_bind, acted]
  rfl

end Commands

end Runtime

end Kernis
