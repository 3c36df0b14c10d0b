/-
**The stored identity of live objects is current.**

Every change of the topology or of a configuration records the identity of the new objects first, under
a key that names the revision and the identity. The revision grows with every commit, so a return to
earlier objects is a commit of its own.

* `Current runtime state` — the stored identity is that of the live objects.
* `Acted.current`, `Restored.current` — actions and restores keep it.
* `reidentify_commits` — a change that is accepted was a fresh commit.
* `legacy_identity_current` — both, in every run.
-/

import Kernis.Runtime.Described
import Kernis.Runtime.Restorable

namespace Kernis

open Std Fallible

/-- The identity of live objects does not see what is completed. -/
theorem legacyIdentity_of_topology {workflow other : WorkflowGraph}
    (same : workflow.topology = other.topology) (taskConfigs : BTreeMap Id TaskConfig) :
    legacyWorkflowReplayIdentity workflow taskConfigs =
      legacyWorkflowReplayIdentity other taskConfigs := by
  unfold legacyWorkflowReplayIdentity WorkflowGraph.tasks
  rw [same]

/-- The commands that change the live objects. -/
def Command.reidentifies : Command → Bool
  | .configureTask _ _ | .applyWorkflowMutation _ _ => true
  | _ => false

namespace Runtime

variable {σ ν : Type} [Postcard] [FaithfulStore σ]

omit [Postcard] [FaithfulStore σ] in
/-- **The stored identity of a run of live objects is theirs.** -/
def Current (runtime : Runtime σ ν) (state : DurableRunState) : Prop :=
  runtime.identityProvenance = .legacyLiveObject →
    ∃ identity, legacyWorkflowReplayIdentity runtime.workflow runtime.taskConfigs = .ok identity ∧
      state.workflowReplayIdentity = some identity

omit [Postcard] [FaithfulStore σ] in
theorem Quiet.current {runtime reached : Runtime σ ν} {state : DurableRunState}
    (quiet : Quiet runtime reached) (current : Current runtime state) : Current reached state := by
  unfold Current
  rw [quiet.identityProvenance, quiet.workflow, quiet.taskConfigs]
  exact current

theorem Started.current {store : σ} {runtime : Runtime σ ν} {state : DurableRunState}
    (clean : (FaithfulStore.content store).AllReachable) (started : Started store runtime)
    (synced : Synced runtime state) : Current runtime state := by
  intro legacy
  cases started with
  | fromDefinition started =>
    obtain ⟨_, _, _, _, _, _, inputs, _, inner⟩ := startFromDefinition_ok.mp started
    obtain ⟨_, _, rfl⟩ := startWithIdentity_synced clean (built_of_runtimeInputs inputs) inner
    cases legacy
  | run built started =>
    obtain ⟨configs, identity, _, identified, inner⟩ := startRun_ok started
    obtain ⟨first, _, rfl⟩ := startWithIdentity_synced clean built inner
    cases synced.unique first
    exact ⟨identity, identified, rfl⟩

theorem Restored.current {runId : RunId} {store : σ} {runtime : Runtime σ ν}
    {state : DurableRunState} (loaded : DurableStore.loadRun runId store = .ok state)
    (restored : Restored runId store runtime) : Current runtime state := by
  intro legacy
  cases restored with
  | fromDefinition restored =>
    obtain ⟨_, _, _, _, _, _, _, _, _, _, _, inner⟩ := restoreFromDefinition_ok.mp restored
    obtain ⟨_, _, _, _, _, _, rfl⟩ := restoreLoaded_ok.mp inner
    cases legacy
  | run built restored =>
    obtain ⟨_, configs, found, expected, _, load, identified, same, inner⟩ :=
      restoreRun_ok.mp restored
    cases Except.ok.inj (load.symm.trans loaded)
    obtain ⟨replayed, _, _, replay, _, _, rfl⟩ := restoreLoaded_ok.mp inner
    have topology := (WorkflowGraph.completeAll_eq_ok ((replayWorkflow_iff built).mp replay)).2
    exact ⟨expected, (legacyIdentity_of_topology topology configs).trans identified, same⟩

section Acted

variable {runtime reached : Runtime σ ν} {state next : DurableRunState} {action : Action}
  {result : Except RuntimeError Unit}

/-- **Every action keeps the stored identity that of the live objects.** -/
theorem Acted.current (acted : Acted runtime state action result reached next)
    (allowed : runtime.Allowed action) (synced : Synced runtime state)
    (current : Current runtime state) : Current reached next := by
  intro legacy
  have before := current (acted.keeps.1.symm.trans legacy)
  rcases acted.changes allowed synced with changed | same
  · rw [changed.workflow, changed.taskConfigs, changed.identity]
    cases action with
    | configure configs identity => exact ⟨identity, allowed.2.1, rfl⟩
    | mutate workflow identity => exact ⟨identity, allowed.2.1, rfl⟩
    | complete fact workflow =>
      have topology := WorkflowGraph.topology_of_complete allowed.1
      obtain ⟨identity, identified, stored⟩ := before
      exact ⟨identity, (legacyIdentity_of_topology topology _).trans identified, stored⟩
    | _ => exact before
  · rw [same.workflow, same.taskConfigs, same.identity]
    exact before

/-- A change of live objects that goes through is a fresh commit. -/
theorem Acted.advances (acted : Acted runtime state action (.ok ()) reached next)
    (changes : (∃ configs identity, action = .configure configs identity) ∨
      ∃ workflow identity, action = .mutate workflow identity) :
    next.revision = state.revision + 1 := by
  generalize answered : (Except.ok () : Except RuntimeError Unit) = result at acted
  cases acted with
  | refused => cases answered
  | replayed repeated =>
    rcases changes with ⟨_, _, rfl⟩ | ⟨_, _, rfl⟩
    · cases repeated
    · cases repeated
  | fresh => rfl

end Acted

omit [Postcard] [FaithfulStore σ] in
/-- A change of live objects that commits nothing fails. -/
theorem reidentify_halts {command : Command} (reidentifies : command.reidentifies = true)
    {runtime : Runtime σ ν} {reply : Reply} : command.decide runtime ≠ .halt (.ok reply) := by
  cases command with
  | configureTask taskId config =>
    intro halted
    simp only [Command.decide, decideConfigure] at halted
    repeat' split at halted
    all_goals cases halted
  | applyWorkflowMutation revision batch =>
    intro halted
    simp only [Command.decide, decideMutate] at halted
    repeat' split at halted
    all_goals cases halted
  | _ => cases reidentifies

/-- **A change of live objects that is accepted is a fresh commit**, never a replay of an earlier
one. -/
theorem reidentify_commits {command : Command} (reidentifies : command.reidentifies = true)
    {runtime : Runtime σ ν} {state : DurableRunState} (synced : Synced runtime state) {reply : Reply}
    (answered : (command.perform runtime).1 = .ok reply) :
    ∃ next, Synced (command.perform runtime).2 next ∧ next.revision = state.revision + 1 ∧
      (command.perform runtime).2.runId = runtime.runId := by
  have derivation := perform_performs command runtime
  rw [answered] at derivation
  generalize (command.perform runtime).2 = reached at derivation ⊢
  have chosen_changes {action : Action} {after : After} (chosen : Chooses runtime command action after) :
      (∃ reply, after = .reply reply) ∧ ((∃ configs identity, action = .configure configs identity) ∨
        ∃ workflow identity, action = .mutate workflow identity) := by
    cases chosen with
    | configure => exact ⟨⟨_, rfl⟩, .inl ⟨_, _, rfl⟩⟩
    | mutate => exact ⟨⟨_, rfl⟩, .inr ⟨_, _, rfl⟩⟩
    | _ => cases reidentifies
  cases derivation with
  | halt decided => exact absurd decided (reidentify_halts reidentifies)
  | replied chosen acted =>
    obtain ⟨next, after, went⟩ := act_synced synced (allowed_of_chooses chosen) acted
    exact ⟨next, after, went.advances (chosen_changes chosen).2, went.runId⟩
  | again chosen =>
    obtain ⟨⟨_, same⟩, _⟩ := chosen_changes chosen
    cases same
  | dispatched chosen =>
    obtain ⟨⟨_, same⟩, _⟩ := chosen_changes chosen
    cases same

/-- **The stored identity of live objects is current.** In every run, the identity of the durable state
is that of the live workflow and configurations; and every change of them that is accepted is a fresh
commit, one revision further. -/
theorem legacy_identity_current (history : History ν) (runtime : Runtime σ ν)
    (driven : Driven history runtime) (legacy : runtime.identityProvenance = .legacyLiveObject) :
    ∃ state identity, DurableStore.loadRun runtime.runId runtime.store = .ok state ∧
      legacyWorkflowReplayIdentity runtime.workflow runtime.taskConfigs = .ok identity ∧
      state.workflowReplayIdentity = some identity ∧
      ∀ (command : Command) (reply : Reply), command.reidentifies = true →
        (command.perform runtime).1 = .ok reply →
        ∃ next, DurableStore.loadRun runtime.runId (command.perform runtime).2.store = .ok next ∧
          next.revision = state.revision + 1 := by
  obtain ⟨state, synced, current⟩ := driven.invariant Current
    (fun clean started _ synced => started.current clean synced)
    (fun allowed synced acted current => acted.current allowed synced current)
    (fun quiet current => quiet.current current)
    (fun restored _ again _ => restored.current (restored.loaded again))
  obtain ⟨identity, identified, stored⟩ := current legacy
  refine ⟨state, identity, synced.loaded, identified, stored, ?_⟩
  intro command reply reidentifies answered
  obtain ⟨next, after, revision, sameRun⟩ := reidentify_commits reidentifies synced answered
  refine ⟨next, ?_, revision⟩
  rw [← sameRun]
  exact after.loaded

end Runtime

/-- A task is configured to require a capability, and back again, twice. -/
def sampleToggled : List (Operation Unit) :=
  [.command (.configureTask sampleTask (TaskConfig.new.requireCapabilityWithIdentity
      sampleCapability "provider".toList)),
    .command (.configureTask sampleTask .new),
    .command (.configureTask sampleTask (TaskConfig.new.requireCapabilityWithIdentity
      sampleCapability "provider".toList)),
    .command (.configureTask sampleTask .new)]

/-- The stored identity follows, back and forth. -/
theorem legacy_identity_current_sample :
    let _ := Persisted.postcard
    ∃ runtime state, sampleStarted = .ok runtime ∧
      InMemoryDurableStore.loadRun sampleRun (runtime.performAll sampleToggled).store = .ok state ∧
      state.workflowReplayIdentity = (legacyWorkflowReplayIdentity sampleWorkflow
        ((∅ : BTreeMap Id TaskConfig).insert sampleTask .new)).toOption := by
  intro _
  obtain ⟨runtime, started, holds⟩ := exists_ok_of_any
    (show (sampleStarted.toOption.any fun runtime =>
      (runtime.performAll sampleToggled).runId = sampleRun ∧
        (runtime.performAll sampleToggled).identityProvenance = .legacyLiveObject ∧
        (runtime.performAll sampleToggled).workflow = sampleWorkflow ∧
        (runtime.performAll sampleToggled).taskConfigs =
          (∅ : BTreeMap Id TaskConfig).insert sampleTask .new) = true by decide +kernel)
  obtain ⟨own, legacy, workflow, configs⟩ := of_decide_eq_true holds
  have driven := (sampleStarted_driven started).performAll sampleToggled
  obtain ⟨state, identity, loaded, identified, stored, _⟩ :=
    Runtime.legacy_identity_current _ _ driven legacy
  rw [own] at loaded
  rw [workflow, configs] at identified
  exact ⟨runtime, state, started, loaded, by rw [stored, identified]; rfl⟩

end Kernis
