/-
**Runtimes over coupled stores.**

A runtime sees of its store the answers to its own calls, and these are about its own run.

* `Coupled` — two stores that answer the calls about some runs alike.
* `Twins` — two runtimes that differ in their stores only, and these are related.
* `act_agree`, `perform_agree`, `operation_agree` — twins answer alike and stay twins.
* `startFromDefinition_agree`, `startRun_agree`, `restoreFromDefinition_agree`, `restoreRun_agree` — what
  is built over related stores are twins.
-/

import Kernis.Lib.Lockstep
import Kernis.Runtime.LostAck
import Kernis.Runtime.Synced

namespace Kernis

open Std Fallible

/-- **Two stores that answer the calls about some runs alike**, as long as the first one is not
exempt. -/
structure Coupled {σ τ : Type} [DurableStore σ] [DurableStore τ] (about : RunId → Prop)
    (related : σ → τ → Prop) (exempt : σ → Prop) : Prop where
  create : ∀ {store other runId}, related store other → about runId →
    (DurableStore.createRun runId store).1 = (DurableStore.createRun runId other).1 ∧
      related (DurableStore.createRun runId store).2 (DurableStore.createRun runId other).2
  load : ∀ {store other runId}, related store other → about runId →
    DurableStore.loadRun runId store = DurableStore.loadRun runId other
  commit : ∀ {store other request}, related store other → about request.runId →
    Agree related exempt (DurableStore.commit request store) (DurableStore.commit request other)
  commit_lasts : ∀ {store request}, exempt store → exempt (DurableStore.commit request store).2
  create_lasts : ∀ {store runId}, exempt store → exempt (DurableStore.createRun runId store).2

namespace Runtime

variable {σ τ ν : Type} {about : RunId → Prop} {related : σ → τ → Prop} {exempt : σ → Prop}

/-- **Two runtimes of one run that differ in their stores only**, and these are related. -/
structure Twins (about : RunId → Prop) (related : σ → τ → Prop) (runtime : Runtime σ ν)
    (other : Runtime τ ν) : Prop where
  about : about runtime.runId
  same : other = runtime.onStore other.store
  related : related runtime.store other.store

/-- What twins do ends alike. -/
abbrev Alike {α : Type} (about : RunId → Prop) (related : σ → τ → Prop) (exempt : σ → Prop)
    (first : Except RuntimeError α × Runtime σ ν) (second : Except RuntimeError α × Runtime τ ν) :
    Prop :=
  Agree (Twins about related) (fun runtime => exempt runtime.store) first second

theorem settle_runId (action : Action) (runtime : Runtime σ ν) :
    (action.settle runtime).2.runId = runtime.runId := by
  cases action with
  | admission attempt =>
    rw [settle_admission]
    repeat' split
    all_goals rfl
  | complete fact workflow =>
    rw [settle_complete]
    repeat' split
    all_goals rfl
  | _ => rfl

/-- What does not look at the store keeps twins alike. -/
theorem alike_of_onStore {α : Type} {first : Op σ ν α} {second : Op τ ν α} {runtime : Runtime σ ν}
    {store : τ} (here : about runtime.runId) (near : related runtime.store store)
    (blind : second (runtime.onStore store) = ((first runtime).1, (first runtime).2.onStore store))
    (runId : (first runtime).2.runId = runtime.runId)
    (kept : (first runtime).2.store = runtime.store) :
    Alike about related exempt (first runtime) (second (runtime.onStore store)) := by
  rw [blind]
  refine .inr ⟨rfl, ?_, rfl, ?_⟩
  · rw [runId]
    exact here
  · rw [kept]
    exact near

variable [DurableStore σ] [DurableStore τ]

/-! ### Actions -/

/-- The store after an action is the store after its commit. -/
theorem act_store (action : Action) (runtime : Runtime σ ν) :
    (act action runtime).2.store = (DurableStore.commit (action.request runtime) runtime.store).2 := by
  rw [act_eq]
  rcases DurableStore.commit (action.request runtime) runtime.store with ⟨_ | result, store⟩
  · rfl
  · exact settle_store action _

variable (coupled : Coupled about related exempt)

include coupled

/-- An exemption lasts. -/
theorem act_exempt {action : Action} {runtime : Runtime σ ν}
    (free : exempt runtime.store) : exempt (act action runtime).2.store := by
  rw [act_store]
  exact coupled.commit_lasts free

theorem perform_exempt (command : Command) {runtime : Runtime σ ν} (free : exempt runtime.store) :
    exempt (command.perform runtime).2.store :=
  perform_preserves (fun runtime => exempt runtime.store) (fun _ free => act_exempt coupled free)
    command free

theorem follow_exempt (command : Command) (after : After) {runtime : Runtime σ ν}
    (free : exempt runtime.store) : exempt (command.follow after runtime).2.store := by
  cases after with
  | reply reply => exact free
  | again => exact perform_exempt coupled command free
  | dispatch operationId attemptId =>
    rw [Command.follow, run_map, recordDispatch_eq]
    split
    · exact free
    · exact act_exempt coupled free

variable {runtime : Runtime σ ν} {other : Runtime τ ν}

/-- **An action of twins.** -/
theorem act_agree (action : Action) (twins : Twins about related runtime other) :
    Alike about related exempt (act action runtime) (act action other) := by
  obtain ⟨here, same, near⟩ := twins
  generalize other.store = store at same near
  subst same
  have committed : Agree related exempt (DurableStore.commit (action.request runtime) runtime.store)
      (DurableStore.commit (action.request runtime) store) := coupled.commit near here
  rcases committed with free | ⟨answers, next⟩
  · refine .inl ?_
    show exempt (act action runtime).2.store
    rw [act_store]
    exact free
  · have second : DurableStore.commit (action.request (runtime.onStore store))
        (runtime.onStore store).store = DurableStore.commit (action.request runtime) store := rfl
    rw [act_eq, act_eq, second]
    generalize DurableStore.commit (action.request runtime) runtime.store = one at answers next ⊢
    generalize DurableStore.commit (action.request runtime) store = two at answers next ⊢
    obtain ⟨result, reached⟩ := one
    obtain ⟨answer, again⟩ := two
    obtain rfl : result = answer := answers
    cases result with
    | error error => exact .inr ⟨rfl, here, rfl, next⟩
    | ok result =>
      have blind := settle_onStore action (runtime.accepted reached result.revision) again
      exact alike_of_onStore here next blind (settle_runId action _) (settle_store action _)

/-- Recording a dispatch. -/
theorem recordDispatch_agree (operationId : OperationId) (attemptId : AttemptId)
    (twins : Twins about related runtime other) :
    Alike about related exempt (recordDispatch operationId attemptId runtime)
      (recordDispatch operationId attemptId other) := by
  have journal : other.journal = runtime.journal := by
    rw [twins.same]
    rfl
  rw [recordDispatch_eq, recordDispatch_eq, journal]
  cases runtime.journal.persistDispatch ⟨operationId, attemptId⟩ with
  | error error => exact .inr ⟨rfl, twins⟩
  | ok journal => exact (act_agree coupled _ twins).map _

/-! ### Commands -/

/-- What follows an action, unless it is the command itself. -/
theorem follow_agree (command : Command) {after : After} (single : after ≠ .again)
    (twins : Twins about related runtime other) :
    Alike about related exempt (command.follow after runtime) (command.follow after other) := by
  cases after with
  | reply reply => exact .inr ⟨rfl, twins⟩
  | again => exact absurd rfl single
  | dispatch operationId attemptId =>
    exact (recordDispatch_agree coupled operationId attemptId twins).map _

omit [DurableStore σ] [DurableStore τ] coupled in
theorem Twins.decide (command : Command) (twins : Twins about related runtime other) :
    command.decide other = command.decide runtime := by
  rw [twins.same, decide_onStore]

/-- A command whose next action does not start it over. -/
theorem perform_agree_single (command : Command) (twins : Twins about related runtime other)
    (single : ∀ action, ¬ Chooses runtime command action .again) :
    Alike about related exempt (command.perform runtime) (command.perform other) := by
  rw [Command.perform_eq, Command.perform_eq, twins.decide]
  cases decided : command.decide runtime with
  | halt result => exact agree_lift twins result
  | act action after =>
    refine (act_agree coupled action twins).bind
      (fun _ _ free => follow_exempt coupled command after free)
      (fun _ _ _ _ twins => follow_agree coupled command ?_ twins)
    rintro rfl
    exact single action (decide_chooses decided)

/-- **A command of twins.** -/
theorem perform_agree (command : Command) (twins : Twins about related runtime other) :
    Alike about related exempt (command.perform runtime) (command.perform other) := by
  by_cases twice : ∃ action, Chooses runtime command action .again
  · rw [Command.perform_eq, Command.perform_eq, twins.decide]
    cases decided : command.decide runtime with
    | halt result => exact agree_lift twins result
    | act action after =>
      have chosen := decide_chooses decided
      refine (act_agree coupled action twins).bind
        (fun _ _ free => follow_exempt coupled command after free) ?_
      intro value reached again acted twins
      by_cases same : after = .again
      · subst same
        exact perform_agree_single coupled command twins
          fun other => not_again_twice chosen acted
      · exact follow_agree coupled command same twins
  · exact perform_agree_single coupled command twins fun action chosen => twice ⟨action, chosen⟩

/-! ### The scheduler loop and the streams -/

theorem runSteps_exempt (fuel : Nat) (results : List StepResult) {runtime : Runtime σ ν}
    (free : exempt runtime.store) : exempt (runSteps fuel results runtime).2.store := by
  have run := runSteps_run (fun runtime : Runtime σ ν => exempt runtime.store)
    (fun _ reached => exempt reached.store)
    (fun free _ _ => perform_exempt coupled .step free)
    (fun free _ _ => perform_exempt coupled .step free) fuel results free
  cases ended : (runSteps fuel results runtime).1 with
  | ok answer => exact run.1 answer ended
  | error error => exact run.2 error ended

theorem runSteps_agree (fuel : Nat) (results : List StepResult)
    (twins : Twins about related runtime other) :
    Alike about related exempt (runSteps fuel results runtime) (runSteps fuel results other) := by
  induction fuel generalizing results runtime other with
  | zero => exact .inr ⟨rfl, twins⟩
  | succ fuel ih =>
    have stepped : Alike about related exempt (step runtime) (step other) :=
      Agree.of_map (fun _ _ same => Reply.stepped.inj same) (perform_agree coupled .step twins)
    refine stepped.bind (fun result reached free => ?_) fun result reached again _ twins => ?_
    · split
      · exact runSteps_exempt coupled fuel _ free
      · exact free
    · by_cases goes : result.goesOn = true
      · simp only [goes, if_true]
        exact ih _ twins
      · simp only [goes, Bool.false_eq_true, if_false]
        exact .inr ⟨rfl, twins⟩

theorem runUntilBlocked_agree (twins : Twins about related runtime other) :
    Alike about related exempt (runUntilBlocked runtime) (runUntilBlocked other) := by
  have tasks : other.workflow.tasks = runtime.workflow.tasks := by
    rw [twins.same]
    rfl
  simp only [runUntilBlocked, run_bind, run_get, tasks]
  exact runSteps_agree coupled _ _ twins

omit [DurableStore τ] coupled in
/-- An operation that commits nothing does not look at the store. -/
theorem perform_onStore [DurableStore τ] {operation : Operation ν}
    (silent : operation.commits = false) (runtime : Runtime σ ν) (store : τ) :
    operation.perform (runtime.onStore store) =
      ((operation.perform runtime).1, (operation.perform runtime).2.onStore store) := by
  cases operation with
  | command command => cases silent
  | runUntilBlocked => cases silent
  | emitProgress taskId progress =>
    simp only [Operation.perform, run_map, emitProgress, onStore]
    split
    · rfl
    · split <;> rfl
  | emitTelemetry message =>
    simp only [Operation.perform, run_map, emitTelemetry, onStore]
    split <;> rfl
  | retryExecutionEvent item =>
    simp only [Operation.perform, run_map, retryExecutionEvent_eq, onStore]
    split
    · split <;> rfl
    · split <;> rfl
  | _ => rfl

/-- **An operation of twins.** -/
theorem operation_agree (operation : Operation ν) (twins : Twins about related runtime other) :
    Alike about related exempt (operation.perform runtime) (operation.perform other) := by
  cases committing : operation.commits with
  | false =>
    obtain ⟨here, same, near⟩ := twins
    generalize other.store = store at same near
    subst same
    have quiet := quiet_of_not_commits committing runtime
    exact alike_of_onStore here near (perform_onStore committing runtime store) quiet.runId
      quiet.store
  | true =>
    cases operation with
    | command command => exact perform_agree coupled command twins
    | runUntilBlocked => exact (runUntilBlocked_agree coupled twins).map _
    | _ => cases committing

theorem operation_exempt (operation : Operation ν) {runtime : Runtime σ ν}
    (free : exempt runtime.store) : exempt (operation.perform runtime).2.store := by
  cases committing : operation.commits with
  | false =>
    rw [(quiet_of_not_commits committing runtime).store]
    exact free
  | true =>
    cases operation with
    | command command => exact perform_exempt coupled command free
    | runUntilBlocked =>
      exact runUntilBlocked_keeps (fun runtime : Runtime σ ν => exempt runtime.store)
        (fun free => perform_exempt coupled .step free) free
    | _ => cases committing

/-! ### Starting -/

variable {store : σ} {twin : τ} {runId : RunId}

theorem bootstrapRun_agree (near : related store twin) (here : about runId) :
    Agree related exempt (bootstrapRun runId store) (bootstrapRun runId twin) := by
  obtain ⟨same, next⟩ := coupled.create near here
  have loads := coupled.load next here
  unfold bootstrapRun
  generalize DurableStore.createRun runId store = one at same next loads ⊢
  generalize DurableStore.createRun runId twin = two at same next loads ⊢
  obtain ⟨result, reached⟩ := one
  obtain ⟨answer, again⟩ := two
  obtain rfl : result = answer := same
  cases result with
  | ok revision => exact .inr ⟨rfl, next⟩
  | error error =>
    cases error with
    | runAlreadyExists existing =>
      simp only at loads ⊢
      rw [loads]
      cases DurableStore.loadRun runId again with
      | error error => exact .inr ⟨rfl, next⟩
      | ok state =>
        simp only
        split
        · exact .inr ⟨rfl, next⟩
        · exact .inr ⟨rfl, next⟩
    | _ => exact .inr ⟨rfl, next⟩

omit [DurableStore τ] coupled in
/-- The store after a bootstrap is the store after the creation. -/
theorem bootstrapRun_store (runId : RunId) (store : σ) :
    (bootstrapRun runId store).2 = (DurableStore.createRun runId store).2 := by
  unfold bootstrapRun
  split
  · rename_i created
    rw [created]
  · rename_i created
    rw [created]
    repeat' split
    all_goals rfl
  · rename_i created
    rw [created]

theorem recordIdentity_agree (near : related store twin) (here : about runId) (revision : Nat)
    (replayIdentity : WorkflowReplayIdentity) :
    Agree related exempt (recordIdentity runId revision replayIdentity store)
      (recordIdentity runId revision replayIdentity twin) := by
  unfold recordIdentity
  have committed : Agree related exempt
      (DurableStore.commit (.single runId revision ⟨⟨"workflow-replay-identity".toList, by decide⟩⟩
        (.recordWorkflowReplayIdentity replayIdentity)) store)
      (DurableStore.commit (.single runId revision ⟨⟨"workflow-replay-identity".toList, by decide⟩⟩
        (.recordWorkflowReplayIdentity replayIdentity)) twin) := coupled.commit near here
  generalize DurableStore.commit (.single runId revision
    ⟨⟨"workflow-replay-identity".toList, by decide⟩⟩
    (.recordWorkflowReplayIdentity replayIdentity)) store = one at committed ⊢
  generalize DurableStore.commit (.single runId revision
    ⟨⟨"workflow-replay-identity".toList, by decide⟩⟩
    (.recordWorkflowReplayIdentity replayIdentity)) twin = two at committed ⊢
  obtain ⟨result, reached⟩ := one
  obtain ⟨answer, again⟩ := two
  rcases committed with free | ⟨same, next⟩
  · cases result with
    | error error => exact .inl free
    | ok result => exact .inl free
  · obtain rfl : result = answer := same
    cases result with
    | error error => exact .inr ⟨rfl, next⟩
    | ok result => exact .inr ⟨rfl, next⟩

theorem recordIdentity_exempt (free : exempt store) (revision : Nat)
    (replayIdentity : WorkflowReplayIdentity) :
    exempt (recordIdentity runId revision replayIdentity store).2 := by
  have lasts : exempt (DurableStore.commit
      (.single runId revision ⟨⟨"workflow-replay-identity".toList, by decide⟩⟩
        (.recordWorkflowReplayIdentity replayIdentity)) store).2 := coupled.commit_lasts free
  unfold recordIdentity
  split
  · rename_i committed
    rw [committed] at lasts
    exact lasts
  · rename_i committed
    rw [committed] at lasts
    exact lasts

omit [DurableStore τ] coupled in
/-- A runtime without its handle. -/
theorem startWithIdentity_detached (runId : RunId) (workflow : WorkflowGraph) (scope : Scope ν)
    (taskConfigs : BTreeMap Id TaskConfig) (replayIdentity : WorkflowReplayIdentity)
    (provenance : IdentityProvenance) (store : σ) :
    (startWithIdentity runId workflow scope taskConfigs replayIdentity provenance).map
        (fun runtime => runtime.onStore ()) store =
      ((lift (ensureUnfinishedWorkflow workflow) : Fallible σ RuntimeError Unit) >>= fun _ =>
        bootstrapRun runId >>= fun created =>
        recordIdentity runId created replayIdentity >>= fun revision =>
        pure (build runId workflow scope taskConfigs .new () revision provenance)) store := by
  simp only [startWithIdentity, run_map, run_bind, run_lift, run_get, run_pure]
  cases ensureUnfinishedWorkflow workflow with
  | error error => rfl
  | ok _ =>
    simp only
    rcases bootstrapRun runId store with ⟨_ | created, reached⟩
    · rfl
    · simp only
      rcases recordIdentity runId created replayIdentity reached with ⟨_ | revision, last⟩
      · rfl
      · rfl

variable {workflow : WorkflowGraph} {scope : Scope ν}

theorem startWithIdentity_agree (near : related store twin) (here : about runId)
    (taskConfigs : BTreeMap Id TaskConfig) (replayIdentity : WorkflowReplayIdentity)
    (provenance : IdentityProvenance) :
    Agree related exempt
      ((startWithIdentity runId workflow scope taskConfigs replayIdentity provenance).map
        (fun runtime => runtime.onStore ()) store)
      ((startWithIdentity runId workflow scope taskConfigs replayIdentity provenance).map
        (fun runtime => runtime.onStore ()) twin) := by
  have recorded {reached : σ} (created : Nat) (free : exempt reached) :
      exempt ((recordIdentity runId created replayIdentity >>= fun revision =>
        (pure (build runId workflow scope taskConfigs .new () revision provenance) :
          Fallible σ RuntimeError (Runtime Unit ν))) reached).2 := by
    have kept : exempt (recordIdentity runId created replayIdentity reached).2 :=
      recordIdentity_exempt coupled free created replayIdentity
    rw [run_bind]
    split
    · rename_i done
      rw [done] at kept
      exact kept
    · rename_i failed
      rw [failed] at kept
      exact kept
  rw [startWithIdentity_detached, startWithIdentity_detached]
  cases unfinished : ensureUnfinishedWorkflow workflow with
  | error error => exact .inr ⟨rfl, near⟩
  | ok _ =>
    refine (bootstrapRun_agree coupled near here).bind (fun created _ free => recorded created free)
      fun created reached again _ near => ?_
    exact (recordIdentity_agree coupled near here created replayIdentity).bind
      (fun _ _ free => free) fun revision _ _ _ near => .inr ⟨rfl, near⟩

theorem startWithIdentity_exempt (free : exempt store) (taskConfigs : BTreeMap Id TaskConfig)
    (replayIdentity : WorkflowReplayIdentity) (provenance : IdentityProvenance) :
    exempt (startWithIdentity runId workflow scope taskConfigs replayIdentity provenance store).2 := by
  rw [startWithIdentity, run_bind, run_lift]
  split
  · rename_i checked
    obtain ⟨_, rfl⟩ := Prod.mk.inj checked
    have kept : exempt (DurableStore.createRun runId store).2 := coupled.create_lasts free
    rw [← bootstrapRun_store] at kept
    rw [run_bind]
    split
    · rename_i created middle done
      rw [done] at kept
      have lasts : exempt (recordIdentity runId created replayIdentity middle).2 :=
        recordIdentity_exempt coupled kept created replayIdentity
      rw [run_bind]
      split
      · rename_i recorded
        rw [recorded] at lasts
        exact lasts
      · rename_i failed
        rw [failed] at lasts
        exact lasts
    · rename_i failed
      rw [failed] at kept
      exact kept
  · rename_i refused
    obtain ⟨_, rfl⟩ := Prod.mk.inj refused
    exact free

omit [DurableStore σ] [DurableStore τ] coupled

/-- A start from a definition looks at the store when everything else is ready. -/
theorem startFromDefinition_cases (runId : RunId) (definition : RunDefinition)
    (factories : FactoryRegistry ν) (firstEntry : Nat) :
    (∃ error, ∀ {σ : Type} [DurableStore σ] (store : σ),
      startFromDefinitionWithStore runId definition factories firstEntry store = (.error error, store)) ∨
    ∃ workflow scope taskConfigs replayIdentity, ∀ {σ : Type} [DurableStore σ] (store : σ),
      startFromDefinitionWithStore runId definition factories firstEntry store =
        startWithIdentity runId workflow scope taskConfigs replayIdentity .declarativeDefinition store := by
  simp only [startFromDefinitionWithStore, run_bind, run_lift]
  cases definition.validated.mapError RuntimeError.definition with
  | error error => exact .inl ⟨error, fun _ => rfl⟩
  | ok validated =>
    simp only
    cases (factories.validate validated).mapError RuntimeError.factory with
    | error error => exact .inl ⟨error, fun _ => rfl⟩
    | ok _ =>
      simp only
      cases runtimeInputs validated with
      | error error => exact .inl ⟨error, fun _ => rfl⟩
      | ok inputs =>
        simp only
        cases reconstructScope validated factories firstEntry with
        | error error => exact .inl ⟨error, fun _ => rfl⟩
        | ok scope => exact .inr ⟨inputs.1, scope, inputs.2, validated.identity, fun _ => rfl⟩

/-- A start from live objects looks at the store when everything else is ready. -/
theorem startRun_cases (runId : RunId) (workflow : WorkflowGraph) (scope : Scope ν)
    (taskConfigs : List (Id × TaskConfig)) :
    (∃ error, ∀ {σ : Type} [DurableStore σ] (store : σ),
      startRunWithStore runId workflow scope taskConfigs store = (.error error, store)) ∨
    ∃ configs replayIdentity, ∀ {σ : Type} [DurableStore σ] (store : σ),
      startRunWithStore runId workflow scope taskConfigs store =
        startWithIdentity runId workflow scope configs replayIdentity .legacyLiveObject store := by
  simp only [startRunWithStore, run_bind, run_lift]
  cases ensureUnfinishedWorkflow workflow with
  | error error => exact .inl ⟨error, fun _ => rfl⟩
  | ok _ =>
    simp only
    cases collectTaskConfigs workflow ∅ taskConfigs with
    | error error => exact .inl ⟨error, fun _ => rfl⟩
    | ok configs =>
      simp only
      cases (legacyWorkflowReplayIdentity workflow configs).mapError RuntimeError.store with
      | error error => exact .inl ⟨error, fun _ => rfl⟩
      | ok replayIdentity => exact .inr ⟨configs, replayIdentity, fun _ => rfl⟩

/-! ### Restoring -/

/-- What is rebuilt from loaded facts keeps the handle, and does not look at it. -/
theorem restoreLoaded_detached (runId : RunId) (workflow : WorkflowGraph) (scope : Scope ν)
    (taskConfigs : BTreeMap Id TaskConfig) (store : σ) (provenance : IdentityProvenance)
    (state : DurableRunState) :
    (restoreLoaded runId workflow scope taskConfigs store provenance state).map
        (fun runtime => runtime.onStore ()) =
      restoreLoaded runId workflow scope taskConfigs () provenance state := by
  simp only [restoreLoaded, bind, Except.bind]
  cases replayWorkflow workflow state.completionHistory with
  | error error => rfl
  | ok replayed =>
    simp only
    cases (DurableJournal.fromDurableState state).mapError RuntimeError.journal with
    | error error => rfl
    | ok journal =>
      simp only
      cases restoreAttempts scope taskConfigs state.admissionHistory with
      | error error => rfl
      | ok attempts => rfl

variable [DurableStore σ] [DurableStore τ]

/-- **Restores from a definition over stores that load alike.** -/
theorem restoreFromDefinition_agree {store : σ} {twin : τ} {runId : RunId}
    (loads : DurableStore.loadRun runId store = DurableStore.loadRun runId twin)
    (definition : RunDefinition) (factories : FactoryRegistry ν) (firstEntry : Nat) :
    (restoreFromDefinition runId definition factories firstEntry store).map
        (fun runtime => runtime.onStore ()) =
      (restoreFromDefinition runId definition factories firstEntry twin).map
        (fun runtime => runtime.onStore ()) := by
  simp only [restoreFromDefinition, loads, bind, Except.bind]
  repeat' split
  all_goals first
    | rfl
    | rw [restoreLoaded_detached, restoreLoaded_detached]

/-- **Restores from live objects over stores that load alike.** -/
theorem restoreRun_agree {store : σ} {twin : τ} {runId : RunId}
    (loads : DurableStore.loadRun runId store = DurableStore.loadRun runId twin)
    (workflow : WorkflowGraph) (scope : Scope ν) (taskConfigs : List (Id × TaskConfig)) :
    (restoreRun runId workflow scope taskConfigs store).map (fun runtime => runtime.onStore ()) =
      (restoreRun runId workflow scope taskConfigs twin).map (fun runtime => runtime.onStore ()) := by
  simp only [restoreRun, loads, bind, Except.bind]
  repeat' split
  all_goals first
    | rfl
    | rw [restoreLoaded_detached, restoreLoaded_detached]

end Runtime

end Kernis
