/-
**Restoring a run that was started from live objects.**

Such a run may change its topology and its configurations; each change records the identity of the
new objects first. A restore is given the objects as they are now, and pins every admitted attempt
again: it refuses when a capability is missing, or has another identity than the admitted one.

* `Live` — the stored identity is that of the live objects, and every configured task exists.
* `Repins` — an admission can be pinned again with its identities.
* `legacy_restart` — a restore from the live objects succeeds exactly when every admission can; then
  it reproduces the views. In a `Steady` run it succeeds.
* `reconfigured_run_not_restored` — not in every run.
-/

import Kernis.Runtime.Guarded
import Kernis.Runtime.Restart

namespace Kernis

open Std Fallible

/-! ### Configurations -/

/-- **What collecting configurations goes through.** -/
theorem collectTaskConfigs_iff {workflow : WorkflowGraph} {entries : List (Id × TaskConfig)}
    {configs collected : BTreeMap Id TaskConfig} :
    collectTaskConfigs workflow configs entries = .ok collected ↔
      (∀ entry ∈ entries, entry.1 ∈ workflow.topology.tasks) ∧
        collected = entries.foldl (fun built entry => built.insert entry.1 entry.2) configs := by
  induction entries generalizing configs with
  | nil => simp [collectTaskConfigs, eq_comm]
  | cons entry rest ih =>
    obtain ⟨taskId, config⟩ := entry
    have known : (workflow.task taskId).isNone = true ↔ taskId ∉ workflow.topology.tasks := by
      rw [WorkflowGraph.task, Option.isNone_iff_eq_none]
      exact ⟨not_mem_of_lookup_none, lookup_none_of_not_mem⟩
    rw [collectTaskConfigs]
    simp only [known, List.forall_mem_cons, List.foldl_cons]
    by_cases exists_ : taskId ∈ workflow.topology.tasks
    · rw [if_neg (not_not.mpr exists_), ih, and_iff_right exists_]
    · simp [exists_]

/-- The entries of a map, inserted again. -/
theorem foldl_insert_toList (configs : BTreeMap Id TaskConfig) :
    configs.toList.foldl (fun (built : BTreeMap Id TaskConfig) entry =>
      built.insert entry.1 entry.2) ∅ = configs := by
  refine ExtTreeMap.ext_getElem? fun key => ?_
  have found := lookup_foldl_insert (fun config : TaskConfig => config) configs key
  rw [Option.map_id'] at found
  exact found

namespace Runtime

variable {σ ν : Type} [Postcard] [FaithfulStore σ]

/-! ### Live objects -/

/-- **A run of live objects**: the stored identity is theirs, every configured task exists, and
every admission lists its capabilities in order. -/
structure Live (runId : RunId) (runtime : Runtime σ ν) (state : DurableRunState) : Prop where
  runId : runtime.runId = runId
  follows : Follows runtime state
  identified : ∃ identity,
    legacyWorkflowReplayIdentity runtime.workflow runtime.taskConfigs = .ok identity ∧
      state.workflowReplayIdentity = some identity
  configured : ∀ taskId ∈ runtime.taskConfigs, taskId ∈ runtime.workflow.topology.tasks
  ascending : ∀ admission ∈ state.admissionHistory, Ascending admission.capabilities

omit [Postcard] [FaithfulStore σ] in
theorem Quiet.live {runId : RunId} {runtime reached : Runtime σ ν} {state : DurableRunState}
    (quiet : Quiet runtime reached) (live : Live runId runtime state) : Live runId reached state := by
  refine ⟨quiet.runId.trans live.runId, quiet.follows live.follows, ?_, ?_, live.ascending⟩
  · rw [quiet.workflow, quiet.taskConfigs]
    exact live.identified
  · rw [quiet.workflow, quiet.taskConfigs]
    exact live.configured

/-- Every admission lists its capabilities in order. -/
theorem Acted.ascending {runtime reached : Runtime σ ν} {state next : DurableRunState}
    {action : Action} {result : Except RuntimeError Unit}
    (acted : Acted runtime state action result reached next) (allowed : runtime.Allowed action)
    (ascending : ∀ admission ∈ state.admissionHistory, Ascending admission.capabilities) :
    ∀ admission ∈ next.admissionHistory, Ascending admission.capabilities := by
  cases acted with
  | refused => exact ascending
  | replayed => exact ascending
  | fresh room own newKey accepted =>
    cases action with
    | admission attempt =>
      obtain ⟨taskId, operationId, pins, captured, rfl⟩ := allowed
      cases accepted
      exact DurableRunState.forall_mem_push ascending (capture_ascending captured)
    | _ => cases accepted <;> exact ascending

/-- **Every action keeps the identity that of the live objects.** -/
theorem Acted.live {runId : RunId} {runtime reached : Runtime σ ν} {state next : DurableRunState}
    {action : Action} {result : Except RuntimeError Unit}
    (acted : Acted runtime state action result reached next) (allowed : runtime.Allowed action)
    (synced : Synced runtime state) (live : Live runId runtime state) : Live runId reached next := by
  refine ⟨acted.runId.trans live.runId, acted.follows allowed synced live.follows, ?_, ?_,
    acted.ascending allowed live.ascending⟩
  · rcases acted.changes allowed synced with changed | same
    · rw [changed.workflow, changed.taskConfigs, changed.identity]
      cases action with
      | configure configs identity => exact ⟨identity, allowed.2.1, rfl⟩
      | mutate workflow identity => exact ⟨identity, allowed.2.1, rfl⟩
      | complete fact workflow =>
        obtain ⟨_, _, rfl⟩ := WorkflowGraph.complete_eq_ok allowed.1
        exact live.identified
      | _ => exact live.identified
    · rw [same.workflow, same.taskConfigs, same.identity]
      exact live.identified
  · rcases acted.changes allowed synced with changed | same
    · rw [changed.workflow, changed.taskConfigs]
      cases action with
      | configure configs identity =>
        obtain ⟨_, _, taskId, exists_, config, rfl⟩ := allowed
        intro other member
        rcases (mem_insert_iff _ _ _ _).mp member with rfl | before
        · exact exists_
        · exact live.configured other before
      | mutate workflow identity =>
        obtain ⟨_, _, _, _, _, applied⟩ := allowed
        intro taskId member
        exact (WorkflowGraph.grown_of_applyBatch applied).1.tasks taskId
          (live.configured taskId member)
      | complete fact workflow =>
        intro taskId member
        rw [Action.workflowAfter, WorkflowGraph.topology_of_complete allowed.1]
        exact live.configured taskId member
      | _ => exact live.configured
    · rw [same.workflow, same.taskConfigs]
      exact live.configured

/-- A start from live objects. -/
theorem live_of_started {runId : RunId} {workflow : WorkflowGraph} {scope : Scope ν}
    {taskConfigs : List (Id × TaskConfig)} {store reached : σ} {started : Runtime σ ν}
    (clean : (FaithfulStore.content store).AllReachable) (built : workflow.Built)
    (starts : startRunWithStore runId workflow scope taskConfigs store = (.ok started, reached)) :
    ∃ state, Synced started state ∧ Live runId started state ∧ state.admissionHistory = [] := by
  obtain ⟨configs, identity, collected, identified, inner⟩ := startRun_ok starts
  obtain ⟨synced, _, rfl⟩ := startWithIdentity_synced clean built inner
  refine ⟨_, synced, ⟨rfl, (Started.run built starts).follows clean synced,
    ⟨identity, identified, rfl⟩, ?_, fun _ member => by cases member⟩, rfl⟩
  obtain ⟨exist, rfl⟩ := collectTaskConfigs_iff.mp collected
  intro taskId member
  obtain ⟨config, found⟩ := exists_lookup_of_mem member
  obtain ⟨entry, inside, rfl, _⟩ := exists_of_foldl_insert found
  exact exist entry inside

/-! ### Restoring -/

omit [Postcard] [FaithfulStore σ] in
/-- **An admission can be pinned again**: with the configuration of its task and the capabilities of a
scope, a capture gives the identities that were admitted. -/
def Repins (scope : Scope ν) (taskConfigs : BTreeMap Id TaskConfig) (admission : AttemptAdmission) :
    Prop :=
  ∃ pins, captureCapabilityPins scope taskConfigs admission.taskId none = .ok pins ∧
    pins.map CapabilityPin.replayIdentity = admission.capabilities

section Restore

variable {runId : RunId} {runtime : Runtime σ ν} {state : DurableRunState} {opened : σ}

/-- A restore from the live objects passes every check of the objects. -/
theorem Live.restoreRun_eq (live : Live runId runtime state) (synced : Synced runtime state)
    (same : FaithfulStore.content opened = FaithfulStore.content runtime.store) (scope : Scope ν) :
    restoreRun runId runtime.workflow.unfinished scope runtime.taskConfigs.toList opened =
      restoreLoaded runtime.runId runtime.workflow.unfinished scope runtime.taskConfigs opened
        .legacyLiveObject state := by
  obtain ⟨identity, identified, stored⟩ := live.identified
  have unfinished : ensureUnfinishedWorkflow runtime.workflow.unfinished = .ok () := rfl
  have collected : collectTaskConfigs runtime.workflow.unfinished ∅ runtime.taskConfigs.toList =
      .ok runtime.taskConfigs := by
    refine collectTaskConfigs_iff.mpr ⟨fun entry member => ?_, (foldl_insert_toList _).symm⟩
    exact live.configured entry.1
      (mem_of_lookup (ExtTreeMap.mem_toList_iff_getElem?_eq_some.mp member))
  have again : legacyWorkflowReplayIdentity runtime.workflow.unfinished runtime.taskConfigs =
      .ok identity := identified
  have loaded := synced.restorable same
  rw [live.runId] at loaded
  rw [live.runId]
  simp only [restoreRun, unfinished, collected, loaded, again, bind, Except.bind, Except.mapError,
    stored, ne_eq, not_true_eq_false, if_false]

/-- **When a restore from the live objects succeeds.** -/
theorem Live.restores_iff (live : Live runId runtime state) (synced : Synced runtime state)
    (same : FaithfulStore.content opened = FaithfulStore.content runtime.store) (scope : Scope ν) :
    (∃ restored, restoreRun runId runtime.workflow.unfinished scope runtime.taskConfigs.toList
        opened = .ok restored) ↔
      ∀ admission ∈ state.admissionHistory, Repins scope runtime.taskConfigs admission := by
  rw [live.restoreRun_eq synced same, restoreLoaded_iff synced live.follows
    live.follows.built.unfinished rfl]
  refine forall₂_congr fun admission member => ?_
  simp only [repin_iff (live.ascending admission member)]
  exact Iff.rfl

/-- A refused restore from the live objects reports a capability. -/
theorem Live.restore_refused (live : Live runId runtime state) (synced : Synced runtime state)
    (same : FaithfulStore.content opened = FaithfulStore.content runtime.store) {scope : Scope ν}
    {error : RuntimeError}
    (refused : restoreRun runId runtime.workflow.unfinished scope runtime.taskConfigs.toList opened =
      .error error) :
    ∃ taskId capabilityId, error = .missingCapability taskId capabilityId ∨
      error = .capabilityReplayMismatch taskId capabilityId := by
  rw [live.restoreRun_eq synced same, restoreLoaded] at refused
  simp only [live.follows.replays live.follows.built.unfinished rfl,
    DurableRunState.fromDurableState_eq synced.coherent.owned.lineage, bind, Except.bind,
    Except.mapError] at refused
  split at refused
  · rename_i failed
    cases refused
    obtain ⟨admission, _, one⟩ := exists_error_of_mapM failed
    split at one
    · rename_i captured
      cases one
      exact ⟨admission.taskId, capture_error captured⟩
    · cases one
  · cases refused

end Restore

/-! ### Steady runs -/

/-- **A command that leaves what attempts were pinned with**: a configuration keeps the required
capabilities of its task, or the task has no admitted attempt. -/
def SteadyCommand (runtime : Runtime σ ν) : Command → Prop
  | .configureTask taskId config =>
    config.requiredCapabilities.toList = requiredCapabilities runtime.taskConfigs taskId ∨
      ∀ state, DurableStore.loadRun runtime.runId runtime.store = .ok state →
        ∀ admission ∈ state.admissionHistory, admission.taskId ≠ taskId
  | _ => True

/-- **An operation that leaves what attempts were pinned with.** -/
def SteadyOperation (runtime : Runtime σ ν) : Operation ν → Prop
  | .command command => SteadyCommand runtime command
  | .changeScope _ => False
  | _ => True

/-- Operations that are steady one after the other. -/
def Steady (runtime : Runtime σ ν) : List (Operation ν) → Prop
  | [] => True
  | operation :: rest =>
    SteadyOperation runtime operation ∧ Steady (operation.perform runtime).2 rest

/-- **Every admission can be pinned again** with the live configurations and the live scope. -/
def Pinned (runtime : Runtime σ ν) (state : DurableRunState) : Prop :=
  ∀ admission ∈ state.admissionHistory, Repins runtime.scope runtime.taskConfigs admission

omit [Postcard] [FaithfulStore σ] in
/-- Pinning depends on the required capabilities of the task only. -/
theorem Repins.of_required {scope : Scope ν} {taskConfigs others : BTreeMap Id TaskConfig}
    {admission : AttemptAdmission} (repins : Repins scope taskConfigs admission)
    (same : requiredCapabilities others admission.taskId =
      requiredCapabilities taskConfigs admission.taskId) : Repins scope others admission := by
  obtain ⟨pins, captured, identities⟩ := repins
  rw [capture_ok, ← same] at captured
  exact ⟨pins, capture_ok.mpr captured, identities⟩

omit [Postcard] [FaithfulStore σ] in
theorem requiredCapabilities_insert (taskConfigs : BTreeMap Id TaskConfig) (taskId other : Id)
    (config : TaskConfig) :
    requiredCapabilities (taskConfigs.insert taskId config) other =
      if taskId = other then config.requiredCapabilities.toList
      else requiredCapabilities taskConfigs other := by
  unfold requiredCapabilities
  rw [lookup_insert]
  by_cases same : taskId = other
  · rw [if_pos same, if_pos same]
  · rw [if_neg same, if_neg same]

/-- An admission is pinned with the live configurations and the live scope. -/
theorem pinned_of_admission {runtime reached : Runtime σ ν} {state next : DurableRunState}
    {taskId : Id} {operationId : Option OperationId} {pins : List CapabilityPin}
    {result : Except RuntimeError Unit}
    (acted : Acted runtime state (.admission (runtime.nextAttempt taskId operationId pins)) result
      reached next)
    (captured : captureCapabilityPins runtime.scope runtime.taskConfigs taskId none = .ok pins)
    (pinned : Pinned runtime state) : Pinned reached next := by
  cases acted with
  | refused => exact pinned
  | replayed repeated => cases repeated
  | @fresh store candidate key room own newKey accepted =>
    obtain ⟨_, configs, _, scope⟩ := settle_views
      (.admission (runtime.nextAttempt taskId operationId pins))
      (runtime.accepted store (state.revision + 1))
    unfold Pinned
    rw [configs, scope]
    cases accepted
    exact DurableRunState.forall_mem_push pinned ⟨pins, captured, rfl⟩

/-- Only an admission adds to the admissions. -/
theorem Acted.admissions {runtime reached : Runtime σ ν} {state next : DurableRunState}
    {action : Action} {result : Except RuntimeError Unit}
    (acted : Acted runtime state action result reached next)
    (other : ∀ attempt, action ≠ .admission attempt) :
    next.admissionHistory = state.admissionHistory := by
  cases acted with
  | refused => rfl
  | replayed => rfl
  | fresh room own newKey accepted =>
    cases action with
    | admission attempt => exact absurd rfl (other attempt)
    | _ => cases accepted <;> rfl

/-- What neither admits nor configures keeps the pins. -/
theorem Acted.pinned_other {runtime reached : Runtime σ ν} {state next : DurableRunState}
    {action : Action} {result : Except RuntimeError Unit}
    (acted : Acted runtime state action result reached next) (other : ∀ attempt, action ≠ .admission attempt)
    (configs : reached.taskConfigs = runtime.taskConfigs) (pinned : Pinned runtime state) :
    Pinned reached next := by
  unfold Pinned
  rw [acted.admissions other, acted.keeps.2, configs]
  exact pinned

/-- An action that does not configure keeps the configurations. -/
theorem Acted.sameConfigs {runtime reached : Runtime σ ν} {state next : DurableRunState}
    {action : Action} {result : Except RuntimeError Unit}
    (acted : Acted runtime state action result reached next) (allowed : runtime.Allowed action)
    (synced : Synced runtime state)
    (kept : action.configsAfter runtime.taskConfigs = runtime.taskConfigs) :
    reached.taskConfigs = runtime.taskConfigs := by
  rcases acted.changes allowed synced with changed | same
  · exact changed.taskConfigs.trans kept
  · exact same.taskConfigs

/-- **A steady choice keeps the pins.** -/
theorem Acted.pinned {runtime reached : Runtime σ ν} {state next : DurableRunState}
    {command : Command} {action : Action} {after : After} {result : Except RuntimeError Unit}
    (acted : Acted runtime state action result reached next)
    (chosen : Chooses runtime command action after) (steady : SteadyCommand runtime command)
    (synced : Synced runtime state) (pinned : Pinned runtime state) : Pinned reached next := by
  have allowed := allowed_of_chooses chosen
  cases chosen with
  | @configure taskId config identity legacy exists_ identified =>
    have other : ∀ attempt, Action.configure (runtime.taskConfigs.insert taskId config) identity ≠
      .admission attempt := fun _ same => by cases same
    rcases acted.changes allowed synced with changed | same
    · have configs : reached.taskConfigs = runtime.taskConfigs.insert taskId config :=
        changed.taskConfigs
      intro admission member
      rw [acted.admissions other] at member
      rw [acted.keeps.2, configs]
      refine (pinned admission member).of_required ?_
      rw [requiredCapabilities_insert]
      split
      · rename_i mine
        rcases steady with kept | none
        · rw [kept, mine]
        · exact absurd mine.symm (none state synced.loaded admission member)
      · rfl
    · exact acted.pinned_other other same.taskConfigs pinned
  | begin found live prepared missing captured => exact pinned_of_admission acted captured pinned
  | retry found live unknown idempotent captured => exact pinned_of_admission acted captured pinned
  | stepBegin idle ready owned configured missing captured =>
    exact pinned_of_admission acted captured pinned
  | stepAdmit idle ready prepared missing captured => exact pinned_of_admission acted captured pinned
  | _ =>
    exact acted.pinned_other (fun _ same => by cases same) (acted.sameConfigs allowed synced rfl)
      pinned

omit [FaithfulStore σ] [Postcard] in
/-- Only its owner changes the scope. -/
theorem scope_of_steady [DurableStore σ] {operation : Operation ν} {runtime : Runtime σ ν}
    (silent : operation.commits = false) (steady : ∀ scope, operation ≠ .changeScope scope) :
    (operation.perform runtime).2.scope = runtime.scope := by
  cases operation with
  | command command => cases silent
  | runUntilBlocked => cases silent
  | changeScope scope => exact absurd rfl (steady scope)
  | drainExecutionEvents => rfl
  | drainProgressEvents => rfl
  | drainTelemetryEvents => rfl
  | emitProgress taskId progress =>
    rw [Operation.perform, run_map, emitProgress]
    split
    · rfl
    · split <;> rfl
  | emitTelemetry message =>
    rw [Operation.perform, run_map, emitTelemetry]
    split <;> rfl
  | retryExecutionEvent item =>
    rw [Operation.perform, run_map, retryExecutionEvent_eq]
    split <;> split <;> rfl

/-- **A steady operation keeps the pins**, and the run one of live objects. -/
theorem perform_pinned {runId : RunId} {operation : Operation ν} {runtime : Runtime σ ν}
    {state : DurableRunState} (synced : Synced runtime state)
    (before : Live runId runtime state ∧ Pinned runtime state)
    (steady : SteadyOperation runtime operation) :
    ∃ next, Synced (operation.perform runtime).2 next ∧
      Live runId (operation.perform runtime).2 next ∧ Pinned (operation.perform runtime).2 next := by
  refine perform_guarded (fun runtime state => Live runId runtime state ∧ Pinned runtime state)
    SteadyCommand ?_ ?_ ?_ (fun _ => trivial) ?_ ?_ synced before
  · rintro runtime reached state next command action after result steady chosen synced acted
      ⟨live, pinned⟩
    exact ⟨acted.live (allowed_of_chooses chosen) synced live,
      acted.pinned chosen steady synced pinned⟩
  · rintro runtime reached state next fact journal result allowed synced acted ⟨live, pinned⟩
    exact ⟨acted.live allowed synced live, acted.pinned_other (fun _ same => by cases same)
      (acted.sameConfigs allowed synced rfl) pinned⟩
  · intro runtime middle command action chosen acted
    cases chosen <;> trivial
  · rintro silent quiet ⟨live, pinned⟩
    refine ⟨quiet.live live, ?_⟩
    unfold Pinned
    rw [scope_of_steady silent (fun scope same => by subst same; exact steady), quiet.taskConfigs]
    exact pinned
  · rintro command rfl
    exact steady

/-- **A steady run can be restored.** -/
theorem performAll_pinned {runId : RunId} (operations : List (Operation ν)) {runtime : Runtime σ ν}
    {state : DurableRunState} (synced : Synced runtime state)
    (before : Live runId runtime state ∧ Pinned runtime state) (steady : Steady runtime operations) :
    ∃ next, Synced (runtime.performAll operations) next ∧
      Pinned (runtime.performAll operations) next := by
  induction operations generalizing runtime state with
  | nil => exact ⟨state, synced, before.2⟩
  | cons operation rest ih =>
    obtain ⟨first, goesOn⟩ := steady
    obtain ⟨middle, between, after⟩ := perform_pinned synced before first
    exact ih between after goesOn

/-- **Restoring a run that was started from live objects.** A run is started over a store whose other
runs are reachable, performs any operations, with any failures of the store, and stops. Its
mutation log replays to a topology, its state loads, and over the same durable content:

* a restore from that topology, the live configurations and any scope succeeds exactly when every
  admitted attempt can be pinned again with its identities, and otherwise reports a capability;
* a restore that succeeds reproduces the workflow, the journal and the cancelled set;
* a restore with the live scope succeeds if the operations left that scope, and what tasks with
  admitted attempts require. -/
theorem legacy_restart (runId : RunId) (workflow : WorkflowGraph) (built : workflow.Built)
    (scope : Scope ν) (taskConfigs : List (Id × TaskConfig)) (store reached : σ)
    (started : Runtime σ ν) (clean : (FaithfulStore.content store).AllReachable)
    (starts : startRunWithStore runId workflow scope taskConfigs store = (.ok started, reached))
    (operations : List (Operation ν)) (opened : σ)
    (same : FaithfulStore.content opened =
      FaithfulStore.content (started.performAll operations).store) :
    let live := started.performAll operations
    ∃ topology state, WorkflowGraph.replay live.workflow.mutationLog = .ok topology ∧
      DurableStore.loadRun runId opened = .ok state ∧
      (∀ offered : Scope ν,
        ((∃ restored, restoreRun runId topology offered live.taskConfigs.toList opened =
            .ok restored) ↔
          ∀ admission ∈ state.admissionHistory, Repins offered live.taskConfigs admission) ∧
        (∀ error, restoreRun runId topology offered live.taskConfigs.toList opened =
            .error error →
          ∃ taskId capabilityId, error = .missingCapability taskId capabilityId ∨
            error = .capabilityReplayMismatch taskId capabilityId) ∧
        ∀ restored, restoreRun runId topology offered live.taskConfigs.toList opened =
            .ok restored →
          restored.workflow = live.workflow ∧ restored.journal = live.journal ∧
            restored.cancelled = live.cancelled) ∧
      (Steady started operations →
        ∃ restored, restoreRun runId topology live.scope live.taskConfigs.toList opened =
          .ok restored) := by
  obtain ⟨first, synced, initial, none⟩ := live_of_started clean built starts
  have pinned : Pinned started first := by
    intro admission member
    rw [none] at member
    cases member
  obtain ⟨state, again, live⟩ := performAll_synced (Live runId)
    (fun allowed synced acted before => acted.live allowed synced before)
    (fun quiet before => quiet.live before) operations synced initial
  have steady := performAll_pinned operations synced ⟨initial, pinned⟩
  generalize started.performAll operations = runtime at same again live steady ⊢
  have loaded := again.restorable same
  rw [live.runId] at loaded
  refine ⟨runtime.workflow.unfinished, state, WorkflowGraph.replay_unfinished live.follows.built,
    loaded, fun offered => ⟨live.restores_iff again same offered, fun error refused =>
      live.restore_refused again same refused, fun restored restores => ?_⟩, fun kept => ?_⟩
  · rw [live.restoreRun_eq again same] at restores
    obtain ⟨workflow, journal, cancelled, _⟩ := restoreLoaded_reproduces again live.follows
      live.follows.built.unfinished rfl same restores
    exact ⟨workflow, journal, cancelled⟩
  · obtain ⟨other, synced, pinned⟩ := steady kept
    cases synced.unique again
    exact (live.restores_iff again same runtime.scope).mpr pinned

end Runtime

/-! ### A sample reconfiguration -/

/-- The task gets an attempt, which pins nothing. -/
def sampleDispatched : List (Operation Unit) :=
  [.command (.recordEffectIntent sampleTask sampleOperation .idempotent),
    .command (.dispatchEffect sampleOperation)]

/-- Then it is configured to require a capability. -/
def sampleReconfigured : List (Operation Unit) :=
  sampleDispatched ++ [.command (.configureTask sampleTask
    (TaskConfig.new.requireCapabilityWithIdentity sampleCapability "provider".toList))]

/-- **A reconfigured run that cannot be restored.** The attempt was admitted without capabilities; it
cannot be pinned with the configuration that its task, still unfinished, has now. -/
theorem reconfigured_run_not_restored :
    let _ := Persisted.postcard
    ∃ started : Runtime InMemoryDurableStore Unit, sampleStarted = .ok started ∧
      WorkflowGraph.replay (started.performAll sampleReconfigured).workflow.mutationLog =
        .ok sampleWorkflow ∧
      (started.performAll sampleReconfigured).workflow.isCompleted sampleTask = false ∧
      ∀ restored, Runtime.restoreRun sampleRun sampleWorkflow
        (started.performAll sampleReconfigured).scope
        (started.performAll sampleReconfigured).taskConfigs.toList
        (started.performAll sampleReconfigured).store ≠ .ok restored := by
  intro _
  obtain ⟨started, starts, holds⟩ := exists_ok_of_any
    (show (sampleStarted.toOption.any fun started =>
      WorkflowGraph.replay (started.performAll sampleReconfigured).workflow.mutationLog =
          .ok sampleWorkflow ∧
        (started.performAll sampleReconfigured).workflow.isCompleted sampleTask = false ∧
        (Runtime.restoreRun sampleRun sampleWorkflow
          (started.performAll sampleReconfigured).scope
          (started.performAll sampleReconfigured).taskConfigs.toList
          (started.performAll sampleReconfigured).store).isOk = false) = true by decide +kernel)
  obtain ⟨replayed, unfinished, refused⟩ := of_decide_eq_true holds
  refine ⟨started, starts, replayed, unfinished, fun restored restores => ?_⟩
  rw [restores] at refused
  cases refused

/-- Without the reconfiguration the run can be restored, and the dispatch is still there. -/
theorem legacy_restart_sample :
    let _ := Persisted.postcard
    ∃ started restored : Runtime InMemoryDurableStore Unit, sampleStarted = .ok started ∧
      Runtime.restoreRun sampleRun sampleWorkflow (started.performAll sampleDispatched).scope
        (started.performAll sampleDispatched).taskConfigs.toList
        (started.performAll sampleDispatched).store = .ok restored ∧
      restored.journal.state sampleOperation = .outcomeUnknown := by
  intro _
  obtain ⟨started, starts, holds⟩ := exists_ok_of_any
    (show (sampleStarted.toOption.any fun started =>
      WorkflowGraph.replay (started.performAll sampleDispatched).workflow.mutationLog =
          .ok sampleWorkflow ∧
        (started.performAll sampleDispatched).journal.state sampleOperation = .outcomeUnknown) =
      true by decide +kernel)
  obtain ⟨replayed, unknown⟩ := of_decide_eq_true holds
  obtain ⟨topology, _, again, _, restoring, steady⟩ := Runtime.legacy_restart sampleRun
    sampleWorkflow (.batch .empty sampleWorkflow_built) Scope.root [] InMemoryDurableStore.new _
    started InMemoryDurableStore.allReachable_new (Prod.ext starts rfl) sampleDispatched _ rfl
  cases replayed.symm.trans again
  obtain ⟨restored, restores⟩ := steady ⟨trivial, trivial, trivial⟩
  obtain ⟨_, journal, _⟩ := (restoring _).2.2 restored restores
  exact ⟨started, restored, starts, restores, journal ▸ unknown⟩

end Kernis
