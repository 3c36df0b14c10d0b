/-
**Starts and restores are in step with the store.**

* `Started.synced` — a start over a store of reachable runs leaves its run with one commit, the
  identity, and a runtime in step with it.
* `Restored.synced` — a restore over a run that runtimes own is in step with it. Nothing is written.
-/

import Kernis.Runtime.Synced

namespace Kernis

open Std Fallible

namespace DurableRunState

variable [Postcard]

/-- The state of a run that was just started. -/
def started (runId : RunId) (replayIdentity : WorkflowReplayIdentity) : DurableRunState :=
  { DurableRunState.new runId with workflowReplayIdentity := some replayIdentity }.recordCommit
    ⟨⟨"workflow-replay-identity".toList, startKey_solid⟩⟩
    [.recordWorkflowReplayIdentity replayIdentity] 1

/-- A reachable state at the first revision is new. -/
theorem Reachable.eq_new {runId : RunId} {state : DurableRunState} (reached : state.Reachable runId)
    (first : state.revision = 0) : state = .new runId := by
  cases reached with
  | new => rfl
  | commit _ _ _ committed =>
    obtain ⟨_, _, rfl⟩ := committed.applied
    cases first

theorem fresh_started (runId : RunId) (replayIdentity : WorkflowReplayIdentity) :
    FreshCommit (.new runId) (.single runId 0
      ⟨⟨"workflow-replay-identity".toList, by decide⟩⟩
      (.recordWorkflowReplayIdentity replayIdentity)) (started runId replayIdentity) :=
  ⟨by simp [DurableRunState.new], rfl, (by decide : 0 < u64Max), _,
    applyMutations_singleton.mpr (.identity replayIdentity), rfl⟩

theorem owned_started (runId : RunId) (replayIdentity : WorkflowReplayIdentity) :
    (started runId replayIdentity).Owned where
  reachable := .commit .new rfl (List.cons_ne_nil _ _) (fresh_started runId replayIdentity)
  keyed key mutations revision found := by
    simp only [started, recordCommit, DurableRunState.new] at found
    rw [lookup_insert] at found
    split at found
    · rename_i same
      cases found
      exact ⟨_, rfl, .inl (same ▸ rfl)⟩
    · simp at found
  cancelled taskId member := by
    simp [started, recordCommit, DurableRunState.new] at member
  numbered := rfl
  room := Nat.zero_lt_one

end DurableRunState

namespace Runtime

variable {σ ν : Type} [Postcard] [FaithfulStore σ]

/-! ### Starting -/

/-- A bootstrap leaves an empty run. -/
theorem bootstrapRun_ok {runId : RunId} {store middle : σ} {created : Nat}
    (clean : (FaithfulStore.content store).AllReachable)
    (bootstrapped : bootstrapRun runId store = (.ok created, middle)) :
    created = 0 ∧ (FaithfulStore.content middle).runs[runId]? = some (.new runId) := by
  unfold bootstrapRun at bootstrapped
  rcases answer : DurableStore.createRun runId store with ⟨result, reached⟩
  have faithful := FaithfulStore.create runId store
  rw [answer] at faithful bootstrapped
  rcases faithful with ⟨answered, changed⟩ | ⟨⟨error, failed, backend⟩, same⟩
  · simp only at answered changed
    unfold InMemoryDurableStore.createRun at answered changed
    split at answered
    · rename_i exists_
      rw [if_pos exists_] at changed
      subst answered
      simp only [FaithfulStore.load] at bootstrapped
      split at bootstrapped
      · cases bootstrapped
      · rename_i state loaded
        split at bootstrapped
        · rename_i pristine
          cases bootstrapped
          refine ⟨rfl, ?_⟩
          unfold InMemoryDurableStore.loadRun at loaded
          split at loaded
          · cases loaded
          · rename_i held found
            cases loaded
            have first : state.revision = 0 := by
              unfold DurableRunState.isPristineBootstrap at pristine
              simp only [Bool.and_eq_true, beq_iff_eq] at pristine
              exact pristine.1.1.1.1.1.1.1.1.1.1.1.1.1.1
            rw [changed] at found
            have new := (clean runId state found).eq_new first
            rw [changed, found, new]
        · cases bootstrapped
    · rename_i missing
      rw [if_neg missing] at changed
      subst answered
      cases bootstrapped
      rw [changed]
      exact ⟨rfl, lookup_insert_self _ _ _⟩
  · simp only at failed
    subst failed
    cases error <;> first | cases bootstrapped | exact absurd rfl backend

/-- Recording the identity of an empty run. -/
theorem recordIdentity_ok {runId : RunId} {replayIdentity : WorkflowReplayIdentity}
    {middle reached : σ} {revision : Nat}
    (empty : (FaithfulStore.content middle).runs[runId]? = some (.new runId))
    (recorded : recordIdentity runId 0 replayIdentity middle = (.ok revision, reached)) :
    revision = 1 ∧ (FaithfulStore.content reached).runs[runId]? =
      some (.started runId replayIdentity) := by
  unfold recordIdentity at recorded
  have faithful := FaithfulStore.commits (CommitRequest.single runId 0
    ⟨⟨"workflow-replay-identity".toList, by decide⟩⟩
    (.recordWorkflowReplayIdentity replayIdentity)) middle
  have committed := InMemoryDurableStore.commit_of_fresh empty (List.cons_ne_nil _ _)
    (DurableRunState.fresh_started runId replayIdentity)
  split at recorded
  · cases recorded
  · rename_i result store answer
    cases recorded
    rw [answer, committed] at faithful
    rcases faithful with ⟨answered, changed⟩ | ⟨⟨error, failed, _⟩, _⟩
    · simp only at answered changed
      cases answered
      rw [changed]
      exact ⟨rfl, lookup_insert_self _ _ _⟩
    · cases failed

omit [Postcard] in
theorem completedIds_of_unfinished {workflow : WorkflowGraph}
    (unfinished : ensureUnfinishedWorkflow workflow = .ok ()) : workflow.completedIds = [] := by
  unfold ensureUnfinishedWorkflow at unfinished
  split at unfinished
  · cases unfinished
  · rename_i none
    rw [WorkflowGraph.completedIds, List.head?_eq_none_iff.mp none]
    rfl

omit [Postcard] in
/-- An unfinished workflow that was built has completed nothing. -/
theorem not_completed_of_unfinished {workflow : WorkflowGraph} (built : workflow.Built)
    (unfinished : ensureUnfinishedWorkflow workflow = .ok ()) (taskId : Id) :
    workflow.isCompleted taskId = false := by
  have listed := (WorkflowGraph.invariant_of_built built).listed taskId
  rw [completedIds_of_unfinished unfinished] at listed
  exact Bool.eq_false_iff.mpr fun done => absurd (listed.mpr done) List.not_mem_nil

/-- **A start is in step with its store.** -/
theorem startWithIdentity_synced {runId : RunId} {workflow : WorkflowGraph} {scope : Scope ν}
    {taskConfigs : BTreeMap Id TaskConfig} {replayIdentity : WorkflowReplayIdentity}
    {identityProvenance : IdentityProvenance} {store reached : σ} {runtime : Runtime σ ν}
    (clean : (FaithfulStore.content store).AllReachable) (built : workflow.Built)
    (started : startWithIdentity runId workflow scope taskConfigs replayIdentity
      identityProvenance store = (.ok runtime, reached)) :
    Synced runtime (.started runId replayIdentity) ∧
      ∃ store, runtime = build runId workflow scope taskConfigs .new store 1
        identityProvenance := by
  obtain ⟨unfinished, created, middle, revision, bootstrapped, recorded, rfl⟩ :=
    startWithIdentity_ok.mp started
  obtain ⟨rfl, empty⟩ := bootstrapRun_ok clean bootstrapped
  obtain ⟨rfl, stored⟩ := recordIdentity_ok empty recorded
  have nothing := not_completed_of_unfinished built unfinished
  refine ⟨⟨stored, DurableRunState.owned_started runId replayIdentity, rfl, rfl, rfl, ?_, ?_, rfl,
    ?_, rfl, Nat.le_refl 1⟩, reached, rfl⟩
  · intro taskId
    simp [build, DurableRunState.started, DurableRunState.recordCommit, DurableRunState.new]
  · intro taskId
    have none := nothing taskId
    simp [build, DurableRunState.started, DurableRunState.recordCommit, DurableRunState.new, none]
  · intro attempt member
    simp [known, build] at member

/-! ### Restoring -/

omit [Postcard] in
/-- The tasks of a list of cancellations. -/
theorem mem_cancelled {taskId : Id} (cancellations : List CancellationRecord) :
    taskId ∈ cancellations.foldl (fun (cancelled : BTreeSet Id) cancellation =>
        cancelled.insert cancellation.taskId) ∅ ↔
      ∃ cancellation ∈ cancellations, cancellation.taskId = taskId := by
  induction cancellations using List.reverseRecOn with
  | nil => simp
  | append_singleton cancellations last ih =>
    rw [List.foldl_append, List.foldl_cons, List.foldl_nil, ExtTreeSet.mem_insert,
      Std.compare_eq_iff_eq, ih]
    simp only [List.mem_append, List.mem_singleton]
    constructor
    · rintro (same | ⟨held, member, same⟩)
      · exact ⟨last, .inr rfl, same⟩
      · exact ⟨held, .inl member, same⟩
    · rintro ⟨held, member | rfl, same⟩
      · exact .inr ⟨held, member, same⟩
      · exact .inl same

omit [Postcard] in
/-- A restored attempt and its admission. -/
def Restores (admission : AttemptAdmission) (attempt : TaskAttempt) : Prop :=
  attempt.runId = admission.runId ∧ attempt.taskId = admission.taskId ∧
    attempt.attemptId = admission.attemptId ∧ attempt.operationId = admission.operationId

omit [Postcard] in
/-- Restored attempts are those of the admissions, in order. -/
theorem restoreAttempts_ok {scope : Scope ν} {taskConfigs : BTreeMap Id TaskConfig}
    {admissions : List AttemptAdmission} {attempts : List TaskAttempt}
    (restored : restoreAttempts scope taskConfigs admissions = .ok attempts) :
    List.Forall₂ Restores admissions attempts := by
  refine (forall₂_of_mapM restored).imp fun admission attempt one => ?_
  split at one
  · cases one
  · cases one
    exact ⟨rfl, rfl, rfl, rfl⟩

omit [Postcard] in
theorem exists_of_forall₂ {α β : Type} {Related : α → β → Prop} {first : List α} {second : List β}
    (related : List.Forall₂ Related first second) {value : β} (member : value ∈ second) :
    ∃ other ∈ first, Related other value := by
  induction related with
  | nil => cases member
  | cons one _ ih =>
    rcases List.mem_cons.mp member with rfl | later
    · exact ⟨_, List.mem_cons_self, one⟩
    · obtain ⟨other, inside, same⟩ := ih later
      exact ⟨other, List.mem_cons_of_mem _ inside, same⟩

/-- **A restore of a run that runtimes own is in step with it.** -/
theorem restoreLoaded_synced {runId : RunId} {workflow : WorkflowGraph} {scope : Scope ν}
    {taskConfigs : BTreeMap Id TaskConfig} {store : σ} {identityProvenance : IdentityProvenance}
    {state : DurableRunState} {runtime : Runtime σ ν} (owned : state.Owned)
    (held : (FaithfulStore.content store).runs[runId]? = some state) (same : state.runId = runId)
    (restored : restoreLoaded runId workflow scope taskConfigs store identityProvenance state =
      .ok runtime) : Synced runtime state := by
  obtain ⟨replayed, journal, attempts, replay, rebuilt, repinned, rfl⟩ :=
    restoreLoaded_ok.mp restored
  have lineage := owned.lineage
  rw [DurableRunState.fromDurableState_eq lineage] at rebuilt
  cases rebuilt
  refine ⟨held, owned, same, rfl, rfl, ?_, ?_, rfl, ?_, rfl, Nat.one_le_of_lt owned.room⟩
  · intro taskId
    show taskId ∈ (valuesOf state.cancellations).foldl _ ∅ ↔ _
    rw [mem_cancelled]
    constructor
    · rintro ⟨cancellation, member, rfl⟩
      obtain ⟨key, found⟩ := mem_valuesOf.mp member
      rw [lineage.cancellationKey key cancellation found]
      exact mem_of_lookup found
    · intro member
      obtain ⟨cancellation, found⟩ := exists_lookup_of_mem member
      exact ⟨cancellation, mem_valuesOf.mpr ⟨taskId, found⟩,
        lineage.cancellationKey taskId cancellation found⟩
  · intro taskId
    show replayed.isCompleted taskId = true ↔ _
    unfold replayWorkflow at replay
    split at replay
    · cases replay
    · rename_i graph rebuilt
      cases replay
      rw [WorkflowGraph.isCompleted_of_replayWithFacts rebuilt, lineage.completions.mem_iff,
        List.map_map]
      rfl
  · intro attempt member
    have member : attempt ∈ attempts := by simpa [known, build] using member
    obtain ⟨admission, inside, _, task, identity, operation⟩ :=
      exists_of_forall₂ (restoreAttempts_ok repinned) member
    refine ⟨admission, ?_, task.symm, operation.symm⟩
    rw [identity]
    exact lineage.admissions.lookup inside

end Runtime

end Kernis
