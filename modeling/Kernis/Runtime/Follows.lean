/-
**The live workflow and the durable completions tell the same story.**

* `Action.workflowAfter`, `configsAfter`, `identityAfter`, `completionsAfter` — what an action that
  goes through leaves of the workflow, the configurations, the identity and the completion history.
  `Acted.changes`: an action goes through, or changes none of these.
* `Follows runtime state` — the live workflow was built, and it completed its tasks in the order of
  the durable completions. `Follows.replays`: a restore over its topology rebuilds it.
-/

import Kernis.Runtime.Driven

namespace Kernis

open Std Fallible

/-! ### What an action changes -/

namespace Action

/-- The workflow after an action went through. -/
def workflowAfter (workflow : WorkflowGraph) : Action → WorkflowGraph
  | .complete _ next => next
  | .mutate next _ => next
  | _ => workflow

/-- The task configurations after an action went through. -/
def configsAfter (taskConfigs : BTreeMap Id TaskConfig) : Action → BTreeMap Id TaskConfig
  | .configure next _ => next
  | _ => taskConfigs

/-- The stored identity after an action went through. -/
def identityAfter (identity : Option WorkflowReplayIdentity) :
    Action → Option WorkflowReplayIdentity
  | .configure _ next => some next
  | .mutate _ next => some next
  | _ => identity

/-- The durable completions after an action went through. -/
def completionsAfter (completions : List CompletionRecord) : Action → List CompletionRecord
  | .complete fact _ => completions ++ [fact]
  | _ => completions

end Action

namespace Runtime

variable {σ ν : Type}

/-- What settling does to the workflow, the configurations, the provenance and the scope. -/
theorem settle_views (action : Action) (runtime : Runtime σ ν) :
    (action.settle runtime).2.workflow = action.workflowAfter runtime.workflow ∧
      (action.settle runtime).2.taskConfigs = action.configsAfter runtime.taskConfigs ∧
      (action.settle runtime).2.identityProvenance = runtime.identityProvenance ∧
      (action.settle runtime).2.scope = runtime.scope := by
  cases action with
  | admission attempt =>
    rw [settle_admission]
    repeat' split
    all_goals exact ⟨rfl, rfl, rfl, rfl⟩
  | complete fact workflow =>
    rw [settle_complete]
    repeat' split
    all_goals exact ⟨rfl, rfl, rfl, rfl⟩
  | _ => exact ⟨rfl, rfl, rfl, rfl⟩

/-- What a runtime and its state have in common with those after an action. -/
structure Changes (runtime : Runtime σ ν) (state : DurableRunState) (reached : Runtime σ ν)
    (next : DurableRunState) (action : Action) : Prop where
  workflow : reached.workflow = action.workflowAfter runtime.workflow
  taskConfigs : reached.taskConfigs = action.configsAfter runtime.taskConfigs
  identity : next.workflowReplayIdentity = action.identityAfter state.workflowReplayIdentity
  completions : next.completionHistory = action.completionsAfter state.completionHistory

/-- Nothing of the workflow, the configurations, the identity and the completions changed. -/
structure Unchanged (runtime : Runtime σ ν) (state : DurableRunState) (reached : Runtime σ ν)
    (next : DurableRunState) : Prop where
  workflow : reached.workflow = runtime.workflow
  taskConfigs : reached.taskConfigs = runtime.taskConfigs
  identity : next.workflowReplayIdentity = state.workflowReplayIdentity
  completions : next.completionHistory = state.completionHistory

variable [Postcard] [FaithfulStore σ]

section Acted

variable {runtime reached : Runtime σ ν} {state next : DurableRunState} {action : Action}
  {result : Except RuntimeError Unit}

/-- An action never changes how the identity was made, nor the scope. -/
theorem Acted.keeps (acted : Acted runtime state action result reached next) :
    reached.identityProvenance = runtime.identityProvenance ∧ reached.scope = runtime.scope := by
  cases acted with
  | refused => exact ⟨rfl, rfl⟩
  | replayed => exact (settle_views action _).2.2
  | fresh => exact (settle_views action _).2.2

/-- **An action goes through, or changes nothing.** -/
theorem Acted.changes (acted : Acted runtime state action result reached next)
    (allowed : runtime.Allowed action) (synced : Synced runtime state) :
    Changes runtime state reached next action ∨ Unchanged runtime state reached next := by
  cases acted with
  | refused => exact .inr ⟨rfl, rfl, rfl, rfl⟩
  | replayed repeated =>
    refine .inr ?_
    cases repeated with
    | outcome fact => exact ⟨rfl, rfl, rfl, rfl⟩
    | cancel fact => exact ⟨rfl, rfl, rfl, rfl⟩
  | @fresh store candidate key room own newKey accepted =>
    obtain ⟨workflow, taskConfigs, _⟩ :=
      settle_views action (runtime.accepted store (state.revision + 1))
    refine .inl ⟨workflow, taskConfigs, ?_, ?_⟩
    · show candidate.workflowReplayIdentity = _
      cases action <;> cases accepted <;> rfl
    · show candidate.completionHistory = _
      cases action with
      | complete fact workflow =>
        cases accepted with
        | completion => rfl
        | completionKnown _ _ _ _ _ known =>
          -- The workflow completes the task now, so the store does not know it yet.
          have unfinished := (WorkflowGraph.complete_eq_ok allowed.1).2.1
          have finished := (synced.coherent.completed fact.taskId).mpr (mem_of_lookup known)
          rw [unfinished] at finished
          cases finished
      | _ => cases accepted <;> rfl

end Acted

/-! ### Replaying -/

omit [Postcard] [FaithfulStore σ] in
/-- A restore completes the durable tasks over the supplied topology. -/
theorem replayWorkflow_iff {supplied replayed : WorkflowGraph} {completions : List CompletionRecord}
    (built : supplied.Built) :
    replayWorkflow supplied completions = .ok replayed ↔
      supplied.unfinished.completeAll (completions.map CompletionRecord.taskId) = .ok replayed := by
  rw [replayWorkflow, WorkflowGraph.replayWithFacts, WorkflowGraph.replay_unfinished built,
    List.map_map]
  have facts : (WorkflowCompletionRecord.taskId ∘ fun completion : CompletionRecord =>
    WorkflowCompletionRecord.mk completion.taskId) = CompletionRecord.taskId := rfl
  split
  · rename_i error failed
    rw [← facts, show supplied.unfinished.completeAll _ = _ from failed]
    simp
  · rename_i workflow completed
    rw [← facts, show supplied.unfinished.completeAll _ = _ from completed]
    simp

/-- **The live workflow completed its tasks in the order of the durable completions.** -/
structure Follows (runtime : Runtime σ ν) (state : DurableRunState) : Prop where
  built : runtime.workflow.Built
  log : runtime.workflow.completedIds = state.completionHistory.map CompletionRecord.taskId

omit [Postcard] [FaithfulStore σ] in
/-- A restore over the topology of the live workflow rebuilds it. -/
theorem Follows.replays {runtime : Runtime σ ν} {state : DurableRunState}
    (follows : Follows runtime state) {supplied : WorkflowGraph} (built : supplied.Built)
    (same : supplied.unfinished = runtime.workflow.unfinished) :
    replayWorkflow supplied state.completionHistory = .ok runtime.workflow := by
  rw [replayWorkflow_iff built, same, ← follows.log]
  exact WorkflowGraph.completeAll_unfinished follows.built

theorem Acted.follows {runtime reached : Runtime σ ν} {state next : DurableRunState}
    {action : Action} {result : Except RuntimeError Unit}
    (acted : Acted runtime state action result reached next) (allowed : runtime.Allowed action)
    (synced : Synced runtime state) (follows : Follows runtime state) :
    Follows reached next := by
  obtain ⟨built, log⟩ := follows
  rcases acted.changes allowed synced with changed | same
  · cases action with
    | complete fact workflow =>
      have completed : runtime.workflow.complete fact.taskId = .ok workflow := allowed.1
      have after : reached.workflow = workflow := changed.workflow
      refine ⟨after ▸ built.complete completed, ?_⟩
      rw [after, changed.completions, Action.completionsAfter, List.map_append, ← log]
      exact WorkflowGraph.completedIds_of_complete completed
    | mutate workflow identity =>
      obtain ⟨_, _, _, _, _, applied⟩ := allowed
      have after : reached.workflow = workflow := changed.workflow
      refine ⟨after ▸ built.batch applied, ?_⟩
      have kept : next.completionHistory = state.completionHistory := changed.completions
      rw [after, kept, ← log]
      exact WorkflowGraph.completedIds_of_applyBatch applied
    | _ =>
      refine ⟨?_, ?_⟩
      · rw [changed.workflow]
        exact built
      · rw [changed.workflow, changed.completions]
        exact log
  · refine ⟨?_, ?_⟩
    · rw [same.workflow]
      exact built
    · rw [same.workflow, same.completions]
      exact log

theorem Started.follows {store : σ} {runtime : Runtime σ ν} {state : DurableRunState}
    (clean : (FaithfulStore.content store).AllReachable) (started : Started store runtime)
    (synced : Synced runtime state) : Follows runtime state := by
  obtain ⟨runId, workflow, scope, configs, identity, provenance, reached, built, inner⟩ :=
    started.inner
  obtain ⟨first, _, rfl⟩ := startWithIdentity_synced clean built inner
  rw [synced.unique first]
  exact ⟨built, completedIds_of_unfinished (startWithIdentity_ok.mp inner).1⟩

omit [Postcard] [FaithfulStore σ] in
theorem Quiet.follows {runtime reached : Runtime σ ν} {state : DurableRunState}
    (quiet : Quiet runtime reached) (follows : Follows runtime state) : Follows reached state := by
  refine ⟨?_, ?_⟩
  · rw [quiet.workflow]
    exact follows.built
  · rw [quiet.workflow]
    exact follows.log

theorem Restored.follows {runId : RunId} {store : σ} {runtime : Runtime σ ν}
    {state : DurableRunState} (loaded : DurableStore.loadRun runId store = .ok state)
    (restored : Restored runId store runtime) : Follows runtime state := by
  obtain ⟨workflow, scope, configs, provenance, found, built, load, inner⟩ := restored.inner
  cases Except.ok.inj (load.symm.trans loaded)
  obtain ⟨replayed, journal, attempts, replay, rebuilt, repinned, rfl⟩ :=
    restoreLoaded_ok.mp inner
  have completed := (replayWorkflow_iff built).mp replay
  exact ⟨WorkflowGraph.built_of_completeAll built.unfinished completed,
    (WorkflowGraph.completeAll_eq_ok completed).1⟩

/-- The state that a restore loaded. -/
theorem Restored.loaded {runId : RunId} {store : σ} {runtime : Runtime σ ν}
    {state : DurableRunState} (restored : Restored runId store runtime)
    (synced : Synced runtime state) : DurableStore.loadRun runId store = .ok state := by
  obtain ⟨workflow, scope, configs, provenance, found, built, load, inner⟩ := restored.inner
  obtain ⟨replayed, journal, attempts, replay, rebuilt, repinned, rfl⟩ :=
    restoreLoaded_ok.mp inner
  exact synced.loaded

end Runtime

end Kernis
