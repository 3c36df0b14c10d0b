/-
**Created runtimes.**

A runtime comes from a start or from a restore. A start ends with one commit, the run's identity,
and an empty runtime; a restore rebuilds the views of the facts it loaded. Either way the streams
are fresh and nothing is parked.

* `startWithIdentity_ok`, `restoreLoaded_ok` — what a success went through.
* `Created` — the runtimes that the public constructors return.
-/

import Kernis.Runtime.Performs
import Kernis.Workflow.Runs

namespace Kernis

open Std Fallible

namespace Runtime

variable {σ ν : Type}

/-- Fresh lifecycle stream, nothing parked. -/
structure Fresh (runtime : Runtime σ ν) : Prop where
  sequencer : runtime.executionSequencer = .new executionStream
  events : runtime.executionEvents.items = []
  pending : runtime.pendingStarted = none

theorem build_fresh (runId : RunId) (workflow : WorkflowGraph) (scope : Scope ν)
    (taskConfigs : BTreeMap Id TaskConfig) (journal : DurableJournal) (store : σ)
    (storeRevision : Nat) (identityProvenance : IdentityProvenance) :
    Fresh (build runId workflow scope taskConfigs journal store storeRevision
      identityProvenance) := ⟨rfl, rfl, rfl⟩

/-- **What a restore rebuilds.** -/
theorem restoreLoaded_ok {runId : RunId} {workflow : WorkflowGraph} {scope : Scope ν}
    {taskConfigs : BTreeMap Id TaskConfig} {store : σ} {identityProvenance : IdentityProvenance}
    {state : DurableRunState} {runtime : Runtime σ ν} :
    restoreLoaded runId workflow scope taskConfigs store identityProvenance state = .ok runtime ↔
      ∃ replayed journal attempts, replayWorkflow workflow state.completionHistory = .ok replayed ∧
        DurableJournal.fromDurableState state = .ok journal ∧
        restoreAttempts scope taskConfigs state.admissionHistory = .ok attempts ∧
        runtime = { build runId replayed scope taskConfigs journal store state.revision
            identityProvenance with
          cancelled := (valuesOf state.cancellations).foldl (fun cancelled cancellation =>
            cancelled.insert cancellation.taskId) ∅
          attempts := attempts
          nextAttemptNumber := state.admissionHistory.length + 1 } := by
  unfold restoreLoaded
  simp only [except_bind_ok, except_mapError_ok]
  constructor
  · rintro ⟨replayed, first, journal, second, attempts, third, same⟩
    exact ⟨replayed, journal, attempts, first, second, third, (Except.ok.inj same).symm⟩
  · rintro ⟨replayed, journal, attempts, first, second, third, rfl⟩
    exact ⟨replayed, first, journal, second, attempts, third, rfl⟩

theorem restoreLoaded_fresh {runId : RunId} {workflow : WorkflowGraph} {scope : Scope ν}
    {taskConfigs : BTreeMap Id TaskConfig} {store : σ} {identityProvenance : IdentityProvenance}
    {state : DurableRunState} {runtime : Runtime σ ν}
    (restored : restoreLoaded runId workflow scope taskConfigs store identityProvenance state =
      .ok runtime) : Fresh runtime := by
  obtain ⟨_, _, _, _, _, _, rfl⟩ := restoreLoaded_ok.mp restored
  exact ⟨rfl, rfl, rfl⟩

variable [DurableStore σ]

/-- **What a start goes through.** -/
theorem startWithIdentity_ok {runId : RunId} {workflow : WorkflowGraph} {scope : Scope ν}
    {taskConfigs : BTreeMap Id TaskConfig} {replayIdentity : WorkflowReplayIdentity}
    {identityProvenance : IdentityProvenance} {store reached : σ} {runtime : Runtime σ ν} :
    startWithIdentity runId workflow scope taskConfigs replayIdentity identityProvenance store =
        (.ok runtime, reached) ↔
      ensureUnfinishedWorkflow workflow = .ok () ∧ ∃ created middle revision,
        bootstrapRun runId store = (.ok created, middle) ∧
        recordIdentity runId created replayIdentity middle = (.ok revision, reached) ∧
        runtime = build runId workflow scope taskConfigs .new reached revision
          identityProvenance := by
  unfold startWithIdentity
  simp only [bind_ok, run_lift, run_get, run_pure, Prod.mk.injEq, Except.ok.injEq]
  constructor
  · rintro ⟨_, _, ⟨unfinished, rfl⟩, created, middle, bootstrapped, revision, _, recorded, _, _,
      ⟨rfl, rfl⟩, rfl, rfl⟩
    exact ⟨unfinished, created, middle, revision, bootstrapped, recorded, rfl⟩
  · rintro ⟨unfinished, created, middle, revision, bootstrapped, recorded, rfl⟩
    exact ⟨_, _, ⟨unfinished, rfl⟩, created, middle, bootstrapped, revision, _, recorded, _, _,
      ⟨rfl, rfl⟩, rfl, rfl⟩

/-- What a start from a definition goes through. -/
theorem startFromDefinition_ok {runId : RunId} {definition : RunDefinition}
    {factories : FactoryRegistry ν} {firstEntry : Nat} {store reached : σ} {runtime : Runtime σ ν} :
    startFromDefinitionWithStore runId definition factories firstEntry store =
        (.ok runtime, reached) ↔
      ∃ validated workflow taskConfigs scope, definition.validated = .ok validated ∧
        factories.validate validated = .ok () ∧
        runtimeInputs validated = .ok (workflow, taskConfigs) ∧
        reconstructScope validated factories firstEntry = .ok scope ∧
        startWithIdentity runId workflow scope taskConfigs validated.identity
          .declarativeDefinition store = (.ok runtime, reached) := by
  unfold startFromDefinitionWithStore
  simp only [bind_ok, run_lift, except_mapError_ok, Prod.mk.injEq]
  constructor
  · rintro ⟨validated, _, ⟨valid, rfl⟩, _, _, ⟨available, rfl⟩, ⟨workflow, taskConfigs⟩, _,
      ⟨inputs, rfl⟩, scope, _, ⟨reconstructed, rfl⟩, started⟩
    exact ⟨validated, workflow, taskConfigs, scope, valid, available, inputs, reconstructed,
      started⟩
  · rintro ⟨validated, workflow, taskConfigs, scope, valid, available, inputs, reconstructed,
      started⟩
    exact ⟨validated, _, ⟨valid, rfl⟩, _, _, ⟨available, rfl⟩, (workflow, taskConfigs), _,
      ⟨inputs, rfl⟩, scope, _, ⟨reconstructed, rfl⟩, started⟩

/-- What a start from live objects goes through. -/
theorem startRun_ok {runId : RunId} {workflow : WorkflowGraph} {scope : Scope ν}
    {taskConfigs : List (Id × TaskConfig)} {store reached : σ} {runtime : Runtime σ ν}
    (started : startRunWithStore runId workflow scope taskConfigs store = (.ok runtime, reached)) :
    ∃ configs replayIdentity, collectTaskConfigs workflow ∅ taskConfigs = .ok configs ∧
      legacyWorkflowReplayIdentity workflow configs = .ok replayIdentity ∧
      startWithIdentity runId workflow scope configs replayIdentity .legacyLiveObject store =
        (.ok runtime, reached) := by
  unfold startRunWithStore at started
  simp only [bind_ok, run_lift, except_mapError_ok, Prod.mk.injEq] at started
  obtain ⟨_, _, ⟨_, rfl⟩, configs, _, ⟨collected, rfl⟩, replayIdentity, _, ⟨identified, rfl⟩,
    started⟩ := started
  exact ⟨configs, replayIdentity, collected, identified, started⟩

/-- What a restore from a definition goes through. -/
theorem restoreFromDefinition_ok {runId : RunId} {definition : RunDefinition}
    {factories : FactoryRegistry ν} {firstEntry : Nat} {store : σ} {runtime : Runtime σ ν} :
    restoreFromDefinition runId definition factories firstEntry store = .ok runtime ↔
      ∃ validated state workflow taskConfigs scope, definition.validated = .ok validated ∧
        factories.validate validated = .ok () ∧ DurableStore.loadRun runId store = .ok state ∧
        ensureRestorableDefinitionIdentity validated.identity state.workflowReplayIdentity =
          .ok () ∧
        runtimeInputs validated = .ok (workflow, taskConfigs) ∧
        reconstructScope validated factories firstEntry = .ok scope ∧
        restoreLoaded runId workflow scope taskConfigs store .declarativeDefinition state =
          .ok runtime := by
  unfold restoreFromDefinition
  simp only [except_bind_ok, except_mapError_ok]
  constructor
  · rintro ⟨validated, valid, _, available, state, loaded, _, same, ⟨workflow, taskConfigs⟩,
      inputs, scope, reconstructed, restored⟩
    exact ⟨validated, state, workflow, taskConfigs, scope, valid, available, loaded, same, inputs,
      reconstructed, restored⟩
  · rintro ⟨validated, state, workflow, taskConfigs, scope, valid, available, loaded, same, inputs,
      reconstructed, restored⟩
    exact ⟨validated, valid, _, available, state, loaded, _, same, (workflow, taskConfigs),
      inputs, scope, reconstructed, restored⟩

/-- What a restore from live objects goes through. -/
theorem restoreRun_ok {runId : RunId} {workflow : WorkflowGraph} {scope : Scope ν}
    {taskConfigs : List (Id × TaskConfig)} {store : σ} {runtime : Runtime σ ν} :
    restoreRun runId workflow scope taskConfigs store = .ok runtime ↔
      ensureUnfinishedWorkflow workflow = .ok () ∧ ∃ configs state expected,
        collectTaskConfigs workflow ∅ taskConfigs = .ok configs ∧
        DurableStore.loadRun runId store = .ok state ∧
        legacyWorkflowReplayIdentity workflow configs = .ok expected ∧
        state.workflowReplayIdentity = some expected ∧
        restoreLoaded runId workflow scope configs store .legacyLiveObject state = .ok runtime := by
  unfold restoreRun
  simp only [except_bind_ok, except_mapError_ok]
  constructor
  · rintro ⟨_, unfinished, configs, collected, state, loaded, expected, identified, rest⟩
    split at rest
    · cases rest
    · exact ⟨unfinished, configs, state, expected, collected, loaded, identified, not_not.mp ‹_›,
        rest⟩
  · rintro ⟨unfinished, configs, state, expected, collected, loaded, identified, same, rest⟩
    refine ⟨(), unfinished, configs, collected, state, loaded, expected, identified, ?_⟩
    rw [if_neg (not_not.mpr same)]
    exact rest

omit [DurableStore σ] in
/-- The workflow of a definition is built by one batch. -/
theorem built_of_runtimeInputs {validated : ValidatedRunDefinition} {workflow : WorkflowGraph}
    {taskConfigs : BTreeMap Id TaskConfig}
    (inputs : runtimeInputs validated = .ok (workflow, taskConfigs)) : workflow.Built := by
  unfold runtimeInputs at inputs
  simp only at inputs
  split at inputs
  · cases inputs
    exact .empty
  · split at inputs
    · cases inputs
    · rename_i applied
      cases inputs
      exact .batch .empty applied

/-! ### The public constructors -/

/-- The runtimes that a start over a store returns. -/
inductive Started (store : σ) : Runtime σ ν → Prop
  | fromDefinition {runId : RunId} {definition : RunDefinition} {factories : FactoryRegistry ν}
      {firstEntry : Nat} {reached : σ} {runtime : Runtime σ ν}
      (started : startFromDefinitionWithStore runId definition factories firstEntry store =
        (.ok runtime, reached)) : Started store runtime
  | run {runId : RunId} {workflow : WorkflowGraph} {scope : Scope ν}
      {taskConfigs : List (Id × TaskConfig)} {reached : σ} {runtime : Runtime σ ν}
      (built : workflow.Built)
      (started : startRunWithStore runId workflow scope taskConfigs store =
        (.ok runtime, reached)) : Started store runtime

/-- The runtimes that a restore of a run returns. -/
inductive Restored (runId : RunId) (store : σ) : Runtime σ ν → Prop
  | fromDefinition {definition : RunDefinition} {factories : FactoryRegistry ν} {firstEntry : Nat}
      {runtime : Runtime σ ν}
      (restored : restoreFromDefinition runId definition factories firstEntry store =
        .ok runtime) : Restored runId store runtime
  | run {workflow : WorkflowGraph} {scope : Scope ν} {taskConfigs : List (Id × TaskConfig)}
      {runtime : Runtime σ ν} (built : workflow.Built)
      (restored : restoreRun runId workflow scope taskConfigs store = .ok runtime) :
      Restored runId store runtime

/-- A start bootstraps its run and records an identity. -/
theorem Started.inner {store : σ} {runtime : Runtime σ ν} (started : Started store runtime) :
    ∃ runId workflow scope taskConfigs replayIdentity provenance reached,
      WorkflowGraph.Built workflow ∧
      startWithIdentity runId workflow scope taskConfigs replayIdentity provenance store =
        (.ok runtime, reached) := by
  cases started with
  | fromDefinition started =>
    obtain ⟨_, _, _, _, _, _, inputs, _, inner⟩ := startFromDefinition_ok.mp started
    exact ⟨_, _, _, _, _, _, _, built_of_runtimeInputs inputs, inner⟩
  | run built started =>
    obtain ⟨_, _, _, _, inner⟩ := startRun_ok started
    exact ⟨_, _, _, _, _, _, _, built, inner⟩

/-- A restore rebuilds the views of the state it loads. -/
theorem Restored.inner {runId : RunId} {store : σ} {runtime : Runtime σ ν}
    (restored : Restored runId store runtime) :
    ∃ workflow scope taskConfigs provenance state, WorkflowGraph.Built workflow ∧
      DurableStore.loadRun runId store = .ok state ∧
      restoreLoaded runId workflow scope taskConfigs store provenance state = .ok runtime := by
  cases restored with
  | fromDefinition restored =>
    obtain ⟨_, state, _, _, _, _, _, loaded, _, inputs, _, inner⟩ :=
      restoreFromDefinition_ok.mp restored
    exact ⟨_, _, _, _, state, built_of_runtimeInputs inputs, loaded, inner⟩
  | run built restored =>
    obtain ⟨_, _, state, _, _, loaded, _, _, inner⟩ := restoreRun_ok.mp restored
    exact ⟨_, _, _, _, state, built, loaded, inner⟩

/-- **A runtime fresh from a constructor.** -/
inductive Created : Runtime σ ν → Prop
  | started {store : σ} {runtime : Runtime σ ν} (started : Started store runtime) : Created runtime
  | restored {runId : RunId} {store : σ} {runtime : Runtime σ ν}
      (restored : Restored runId store runtime) : Created runtime

theorem Created.fresh {runtime : Runtime σ ν} (created : Created runtime) : Fresh runtime := by
  cases created with
  | started started =>
    obtain ⟨_, _, _, _, _, _, _, _, inner⟩ := started.inner
    obtain ⟨_, _, _, _, _, _, rfl⟩ := startWithIdentity_ok.mp inner
    exact build_fresh ..
  | restored restored =>
    obtain ⟨_, _, _, _, _, _, _, inner⟩ := restored.inner
    exact restoreLoaded_fresh inner

end Runtime

end Kernis
