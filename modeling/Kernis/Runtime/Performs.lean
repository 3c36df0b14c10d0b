/-
**Commands as sequences of allowed actions.**

* `Allowed runtime action` — the guards of an action, whichever command chose it.
* `Performs command runtime result reached` — a derivation of a command's result from its actions:
  halt, fail at an action, answer, start over, or go on to dispatch. `perform_performs` derives the
  result of every command, so that a fact about all commands follows by induction on derivations.
* `perform_preserves` — what every allowed action preserves, every command preserves.
-/

import Kernis.Runtime.Choices

namespace Kernis

open Std Fallible

namespace Runtime

variable {σ ν : Type}

/-! ### The guards of an action -/

/-- Every attempt a runtime holds: the started ones, and the parked one. -/
def known (runtime : Runtime σ ν) : List TaskAttempt :=
  runtime.attempts ++ (runtime.pendingStarted.map Prod.fst).toList

/-- The runtime holds an attempt of a task and operation. -/
def Holds (runtime : Runtime σ ν) (taskId : Id) (operationId : Option OperationId)
    (attemptId : AttemptId) : Prop :=
  ∃ attempt ∈ runtime.known, attempt.taskId = taskId ∧ attempt.operationId = operationId ∧
    attempt.attemptId = attemptId

theorem holds_of_belongsTo {runtime : Runtime σ ν} {taskId : Id}
    {operationId : Option OperationId} {attempt : TaskAttempt} (member : attempt ∈ runtime.known)
    (belongs : belongsTo taskId operationId attempt = true) :
    runtime.Holds taskId operationId attempt.attemptId := by
  obtain ⟨task, operation⟩ := of_decide_eq_true belongs
  exact ⟨attempt, member, task, operation, rfl⟩

/-- An attempt that is found is held. -/
theorem holds_of_attemptForTask {runtime : Runtime σ ν} {taskId : Id}
    {operationId : Option OperationId} {attemptId : AttemptId}
    (found : runtime.attemptForTask taskId operationId = some attemptId) :
    runtime.Holds taskId operationId attemptId := by
  unfold attemptForTask at found
  split at found
  · rename_i attempt item pending
    cases found
    obtain ⟨parked, belongs⟩ := Option.filter_eq_some_iff.mp pending
    refine holds_of_belongsTo (List.mem_append_right _ ?_) belongs
    rw [parked]
    exact List.mem_singleton.mpr rfl
  · obtain ⟨attempt, newest, rfl⟩ := Option.map_eq_some_iff.mp found
    refine holds_of_belongsTo (List.mem_append_left _ ?_) (List.find?_some newest)
    exact List.mem_reverse.mp (List.mem_of_find?_eq_some newest)

/-- No attempt that is held is missing. -/
theorem not_belongsTo_of_missing {runtime : Runtime σ ν} {taskId : Id}
    {operationId : Option OperationId} {attempt : TaskAttempt}
    (missing : runtime.attemptForTask taskId operationId = none)
    (member : attempt ∈ runtime.known) : belongsTo taskId operationId attempt = false := by
  refine Bool.eq_false_iff.mpr fun belongs => ?_
  unfold attemptForTask at missing
  split at missing
  · cases missing
  · rename_i unparked
    rcases List.mem_append.mp member with started | parked
    · have absent := List.find?_eq_none.mp (Option.map_eq_none_iff.mp missing) attempt
        (List.mem_reverse.mpr started)
      exact absent belongs
    · obtain ⟨held, pending, rfl⟩ := Option.map_eq_some_iff.mp (Option.mem_toList.mp parked)
      rw [pending, Option.filter_some, if_pos belongs] at unparked
      cases unparked

/-- The success that a completion of an effect rests on. -/
structure KnownSuccess (journal : DurableJournal) (fact : CompletionRecord)
    (operationId : OperationId) (outcome : OutcomeRecord) : Prop where
  owned : journal.operationForTask fact.taskId = some operationId ∨
    ∃ intent, journal.intent operationId = .ok intent ∧ intent.taskId = fact.taskId
  known : journal.knownOutcome operationId = some outcome
  succeeded : journal.state operationId = .outcomeKnown .succeeded
  attempt : outcome.attemptId = fact.attemptId

/-- The guards of an action. -/
def Allowed (runtime : Runtime σ ν) : Action → Prop
  | .intent fact journal => fact.taskId ∈ runtime.workflow.topology.tasks ∧
      runtime.workflow.isCompleted fact.taskId = false ∧
      runtime.journal.persistIntent fact = .ok journal
  | .admission attempt => ∃ taskId operationId pins,
      captureCapabilityPins runtime.scope runtime.taskConfigs taskId none = .ok pins ∧
      attempt = runtime.nextAttempt taskId operationId pins
  | .dispatch fact journal => ∃ intent,
      runtime.journal.intent fact.operationId = .ok intent ∧ intent.taskId ∉ runtime.cancelled ∧
      runtime.Holds intent.taskId (some fact.operationId) fact.attemptId ∧
      (runtime.journal.state fact.operationId = .prepared ∨
        (runtime.journal.state fact.operationId = .outcomeUnknown ∧
          intent.semantics ≠ .nonIdempotent)) ∧
      runtime.journal.persistDispatch fact = .ok journal
  | .outcome fact journal => runtime.journal.persistOutcome fact = .ok journal
  | .cancel fact => fact = runtime.cancellationOf fact.taskId
  | .complete fact workflow => runtime.workflow.complete fact.taskId = .ok workflow ∧
      ((runtime.journal.operationForTask fact.taskId = none ∧
          runtime.Holds fact.taskId none fact.attemptId) ∨
        ∃ operationId outcome, KnownSuccess runtime.journal fact operationId outcome)
  | .configure taskConfigs identity => runtime.identityProvenance ≠ .declarativeDefinition ∧
      legacyWorkflowReplayIdentity runtime.workflow taskConfigs = .ok identity ∧
      ∃ taskId ∈ runtime.workflow.topology.tasks, ∃ config,
        taskConfigs = runtime.taskConfigs.insert taskId config
  | .mutate workflow identity => runtime.identityProvenance ≠ .declarativeDefinition ∧
      legacyWorkflowReplayIdentity workflow runtime.taskConfigs = .ok identity ∧
      ∃ expectedRevision batch record,
        runtime.workflow.applyBatch expectedRevision batch = .ok (record, workflow)

/-- A chosen action is allowed. -/
theorem allowed_of_chooses {runtime : Runtime σ ν} {command : Command} {action : Action}
    {after : After} (chosen : Chooses runtime command action after) : runtime.Allowed action := by
  cases chosen with
  | configure legacy exists_ identified => exact ⟨legacy, identified, _, exists_, _, rfl⟩
  | mutate legacy applied identified => exact ⟨legacy, identified, _, _, _, applied⟩
  | intent exists_ unfinished persisted => exact ⟨exists_, unfinished, persisted⟩
  | dispatch found live prepared waiting persisted =>
    exact ⟨_, found, live, holds_of_attemptForTask waiting, .inl prepared, persisted⟩
  | begin found live prepared missing pinned => exact ⟨_, _, _, pinned, rfl⟩
  | retry found live unknown idempotent pinned => exact ⟨_, _, _, pinned, rfl⟩
  | outcome persisted => exact persisted
  | recover found known succeeded completed =>
    exact ⟨completed, .inr ⟨_, _, .inr ⟨_, found, rfl⟩, known, succeeded, rfl⟩⟩
  | cancel => rfl
  | stepIntent idle ready configured exists_ unfinished persisted =>
    exact ⟨exists_, unfinished, persisted⟩
  | stepBegin idle ready owned configured missing pinned => exact ⟨_, _, _, pinned, rfl⟩
  | stepComplete idle ready owned waiting completed =>
    exact ⟨completed, .inl ⟨owned, holds_of_attemptForTask waiting⟩⟩
  | stepAdmit idle ready prepared missing pinned => exact ⟨_, _, _, pinned, rfl⟩
  | stepKnown idle ready owned found known succeeded completed =>
    exact ⟨completed, .inr ⟨_, _, .inl owned, known, succeeded, rfl⟩⟩

variable [DurableStore σ]

/-- The dispatch that follows a retry's admission is allowed. -/
theorem allowed_dispatch_of_chooses {runtime reached : Runtime σ ν} {command : Command}
    {action : Action} {operationId : OperationId} {attemptId : AttemptId}
    {journal : DurableJournal}
    (chosen : Chooses runtime command action (.dispatch operationId attemptId))
    (acted : act action runtime = (.ok (), reached))
    (persisted : reached.journal.persistDispatch ⟨operationId, attemptId⟩ = .ok journal) :
    reached.Allowed (.dispatch ⟨operationId, attemptId⟩ journal) := by
  cases chosen with
  | @retry _ intent pins found live unknown idempotent pinned =>
    obtain ⟨store, revision, sequencer, events, rfl⟩ := act_admit_ok acted
    refine ⟨intent, found, live, ?_, .inr ⟨unknown, idempotent⟩, persisted⟩
    exact holds_of_belongsTo
      (List.mem_append_left _ (List.mem_append_right _ (List.mem_singleton.mpr rfl)))
      (runtime.belongsTo_nextAttempt _ _ pins)

/-! ### Derivations -/

/-- **How a command comes to its result.** -/
inductive Performs (command : Command) :
    Runtime σ ν → Except RuntimeError Reply → Runtime σ ν → Prop
  | halt {runtime : Runtime σ ν} {result : Except RuntimeError Reply}
      (decided : command.decide runtime = .halt result) : Performs command runtime result runtime
  | failed {runtime reached : Runtime σ ν} {action : Action} {after : After}
      {error : RuntimeError} (chosen : Chooses runtime command action after)
      (acted : act action runtime = (.error error, reached)) :
      Performs command runtime (.error error) reached
  | replied {runtime reached : Runtime σ ν} {action : Action} {reply : Reply}
      (chosen : Chooses runtime command action (.reply reply))
      (acted : act action runtime = (.ok (), reached)) :
      Performs command runtime (.ok reply) reached
  | again {runtime middle reached : Runtime σ ν} {action : Action}
      {result : Except RuntimeError Reply} (chosen : Chooses runtime command action .again)
      (acted : act action runtime = (.ok (), middle))
      (rest : Performs command middle result reached) : Performs command runtime result reached
  | undispatched {runtime reached : Runtime σ ν} {action : Action} {operationId : OperationId}
      {attemptId : AttemptId} {error : JournalError}
      (chosen : Chooses runtime command action (.dispatch operationId attemptId))
      (acted : act action runtime = (.ok (), reached))
      (refused : reached.journal.persistDispatch ⟨operationId, attemptId⟩ = .error error) :
      Performs command runtime (.error (.journal error)) reached
  | misdispatched {runtime middle reached : Runtime σ ν} {action : Action}
      {operationId : OperationId} {attemptId : AttemptId} {journal : DurableJournal}
      {error : RuntimeError}
      (chosen : Chooses runtime command action (.dispatch operationId attemptId))
      (acted : act action runtime = (.ok (), middle))
      (persisted : middle.journal.persistDispatch ⟨operationId, attemptId⟩ = .ok journal)
      (failed : act (.dispatch ⟨operationId, attemptId⟩ journal) middle = (.error error, reached)) :
      Performs command runtime (.error error) reached
  | dispatched {runtime middle reached : Runtime σ ν} {action : Action}
      {operationId : OperationId} {attemptId : AttemptId} {journal : DurableJournal}
      (chosen : Chooses runtime command action (.dispatch operationId attemptId))
      (acted : act action runtime = (.ok (), middle))
      (persisted : middle.journal.persistDispatch ⟨operationId, attemptId⟩ = .ok journal)
      (recorded : act (.dispatch ⟨operationId, attemptId⟩ journal) middle = (.ok (), reached)) :
      Performs command runtime (.ok (.dispatched attemptId)) reached

/-- What follows an action that did not lead to starting over. -/
theorem performs_follow {command : Command} {runtime middle : Runtime σ ν} {action : Action}
    {after : After} (chosen : Chooses runtime command action after)
    (acted : act action runtime = (.ok (), middle)) (single : after ≠ .again) :
    Performs command runtime (command.follow after middle).1 (command.follow after middle).2 := by
  cases after with
  | reply reply => exact .replied chosen acted
  | again => exact absurd rfl single
  | dispatch operationId attemptId =>
    rw [Command.follow, run_map, recordDispatch_eq]
    cases persisted : middle.journal.persistDispatch ⟨operationId, attemptId⟩ with
    | error error => exact .undispatched chosen acted persisted
    | ok journal =>
      simp only [run_map]
      rcases recorded : act (.dispatch ⟨operationId, attemptId⟩ journal) middle with
        ⟨error | _, reached⟩
      · exact .misdispatched chosen acted persisted recorded
      · exact .dispatched chosen acted persisted recorded

/-- A command whose next action does not start it over. -/
theorem performs_single {command : Command} {runtime : Runtime σ ν}
    (single : ∀ action, ¬ Chooses runtime command action .again) :
    Performs command runtime (command.perform runtime).1 (command.perform runtime).2 := by
  rw [Command.perform_eq]
  cases decided : command.decide runtime with
  | halt result => exact .halt decided
  | act action after =>
    have chosen := decide_chooses decided
    rw [Command.execute, run_bind]
    rcases acted : act action runtime with ⟨error | _, middle⟩
    · exact .failed chosen acted
    · refine performs_follow chosen acted ?_
      rintro rfl
      exact single action chosen

/-- **Every command performs.** -/
theorem perform_performs (command : Command) (runtime : Runtime σ ν) :
    Performs command runtime (command.perform runtime).1 (command.perform runtime).2 := by
  by_cases twice : ∃ action, Chooses runtime command action .again
  · rw [Command.perform_eq]
    cases decided : command.decide runtime with
    | halt result => exact .halt decided
    | act action after =>
      have chosen := decide_chooses decided
      rw [Command.execute, run_bind]
      rcases acted : act action runtime with ⟨error | _, middle⟩
      · exact .failed chosen acted
      · by_cases again : after = .again
        · subst again
          exact .again chosen acted (performs_single fun other => not_again_twice chosen acted)
        · exact performs_follow chosen acted again
  · exact performs_single fun action chosen => twice ⟨action, chosen⟩

/-- **What every allowed action preserves, every command preserves.** -/
theorem perform_preserves (Inv : Runtime σ ν → Prop)
    (step : ∀ {runtime action}, Allowed runtime action → Inv runtime → Inv (act action runtime).2)
    (command : Command) {runtime : Runtime σ ν} (before : Inv runtime) :
    Inv (command.perform runtime).2 := by
  have derivation := perform_performs command runtime
  generalize (command.perform runtime).1 = result at derivation
  generalize (command.perform runtime).2 = reached at derivation
  have stepped {runtime reached : Runtime σ ν} {action : Action} {result : Except RuntimeError Unit}
      (acted : act action runtime = (result, reached)) (allowed : Allowed runtime action)
      (before : Inv runtime) : Inv reached := by
    have after := step allowed before
    rwa [acted] at after
  induction derivation with
  | halt => exact before
  | failed chosen acted => exact stepped acted (allowed_of_chooses chosen) before
  | replied chosen acted => exact stepped acted (allowed_of_chooses chosen) before
  | again chosen acted _ ih => exact ih (stepped acted (allowed_of_chooses chosen) before)
  | undispatched chosen acted => exact stepped acted (allowed_of_chooses chosen) before
  | misdispatched chosen acted persisted failed =>
    exact stepped failed (allowed_dispatch_of_chooses chosen acted persisted)
      (stepped acted (allowed_of_chooses chosen) before)
  | dispatched chosen acted persisted recorded =>
    exact stepped recorded (allowed_dispatch_of_chooses chosen acted persisted)
      (stepped acted (allowed_of_chooses chosen) before)

/-! ### Refusals without an action -/

omit [DurableStore σ] in
/-- A refusal before any action: no store answered it, and an item it hands back is parked. -/
def Plain (runtime : Runtime σ ν) : RuntimeError → Prop
  | .store error => error = .emptyWorkflowReplayIdentity
  | .executionBackpressure item => ∃ attempt, runtime.pendingStarted = some (attempt, item)
  | _ => True

section Refusals

omit [DurableStore σ]

variable {runtime : Runtime σ ν} {error : RuntimeError}

theorem plain_of_capture {taskId : Id} {expected : Option (List CapabilityReplayIdentity)}
    (failed : captureCapabilityPins runtime.scope runtime.taskConfigs taskId expected =
      .error error) : Plain runtime error := by
  unfold captureCapabilityPins at failed
  split at failed
  · rename_i first
    cases failed
    obtain ⟨required, _, refused⟩ := exists_error_of_mapM first
    unfold capturePin at refused
    split at refused
    split at refused
    · cases refused
      trivial
    · split at refused <;> cases refused
      trivial
  · split at failed
    · cases failed
    · split at failed <;> cases failed
      trivial

theorem plain_of_identity {workflow : WorkflowGraph} {configs : BTreeMap Id TaskConfig}
    {refusal : StoreError}
    (failed : legacyWorkflowReplayIdentity workflow configs = .error refusal) :
    Plain runtime (.store refusal) := by
  unfold legacyWorkflowReplayIdentity WorkflowReplayIdentity.new at failed
  split at failed <;> cases failed
  rfl

theorem decideAdmit_halt {taskId : Id} {operationId : Option OperationId}
    {after : AttemptId → After}
    (decided : runtime.decideAdmit taskId operationId after = .halt (.error error)) :
    Plain runtime error := by
  unfold decideAdmit at decided
  split at decided <;> cases decided
  exact plain_of_capture ‹_›

theorem decideComplete_halt {taskId : Id} {attemptId : AttemptId} {reply : Reply}
    (decided : runtime.decideComplete taskId attemptId reply = .halt (.error error)) :
    Plain runtime error := by
  unfold decideComplete at decided
  split at decided <;> cases decided
  trivial

theorem decideIntent_halt {intent : EffectIntent} {after : After}
    (decided : runtime.decideIntent intent after = .halt (.error error)) :
    Plain runtime error := by
  unfold decideIntent at decided
  repeat' split at decided
  all_goals cases decided
  all_goals trivial

theorem decideEffectDispatch_halt {operationId : OperationId}
    (decided : runtime.decideEffectDispatch operationId = .halt (.error error)) :
    Plain runtime error := by
  unfold decideEffectDispatch at decided
  split at decided
  · cases decided
    trivial
  · split at decided
    · cases decided
      unfold refuseCancelled
      split <;> trivial
    · unfold decideAttempt at decided
      split at decided
      · split at decided
        · unfold decideDispatch at decided
          split at decided <;> cases decided
          trivial
        · exact decideAdmit_halt decided
      · split at decided
        · cases decided
          trivial
        · exact decideAdmit_halt decided
      · cases decided
        trivial
      · cases decided
        trivial

/-- A dispatch that commits nothing fails. -/
theorem dispatch_halts {operationId : OperationId} {result : Except RuntimeError Reply}
    (decided : runtime.decideEffectDispatch operationId = .halt result) :
    ∃ error, result = .error error := by
  have admits {taskId : Id} {after : AttemptId → After}
      (halted : runtime.decideAdmit taskId (some operationId) after = .halt result) :
      ∃ error, result = .error error := by
    unfold decideAdmit at halted
    split at halted <;> cases halted
    exact ⟨_, rfl⟩
  unfold decideEffectDispatch at decided
  split at decided
  · cases decided
    exact ⟨_, rfl⟩
  · split at decided
    · cases decided
      exact ⟨_, rfl⟩
    · unfold decideAttempt at decided
      split at decided
      · split at decided
        · unfold decideDispatch at decided
          split at decided <;> cases decided
          exact ⟨_, rfl⟩
        · exact admits decided
      · split at decided
        · cases decided
          exact ⟨_, rfl⟩
        · exact admits decided
      · cases decided
        exact ⟨_, rfl⟩
      · cases decided
        exact ⟨_, rfl⟩

theorem decideStep_halt (decided : runtime.decideStep = .halt (.error error)) :
    Plain runtime error := by
  unfold decideStep at decided
  split at decided
  · cases decided
    exact ⟨_, ‹_›⟩
  · split at decided
    · cases decided
    · unfold decideTask at decided
      split at decided
      · split at decided
        · cases decided
          trivial
        · unfold decideEffect at decided
          split at decided
          · split at decided
            · cases decided
            · exact decideAdmit_halt decided
          · split at decided <;> cases decided
            trivial
          · split at decided
            · cases decided
              trivial
            · exact decideComplete_halt decided
          · cases decided
          · cases decided
            trivial
      · split at decided
        · unfold decidePlain at decided
          split at decided
          · exact decideComplete_halt decided
          · exact decideAdmit_halt decided
        · exact decideIntent_halt decided

/-- **A refusal before any action is plain.** -/
theorem plain_of_halt {command : Command}
    (decided : command.decide runtime = .halt (.error error)) : Plain runtime error := by
  cases command with
  | configureTask taskId config =>
    simp only [Command.decide, decideConfigure] at decided
    split at decided
    · cases decided
      trivial
    · split at decided
      · cases decided
        trivial
      · split at decided <;> cases decided
        exact plain_of_identity ‹_›
  | applyWorkflowMutation expectedRevision batch =>
    simp only [Command.decide, decideMutate] at decided
    split at decided
    · cases decided
      trivial
    · split at decided
      · cases decided
        trivial
      · split at decided <;> cases decided
        exact plain_of_identity ‹_›
  | recordEffectIntent taskId operationId semantics => exact decideIntent_halt decided
  | dispatchEffect operationId => exact decideEffectDispatch_halt decided
  | recordEffectOutcome operationId attemptId outcome =>
    simp only [Command.decide, decideOutcome] at decided
    split at decided <;> cases decided
    trivial
  | recover operationId =>
    simp only [Command.decide, decideRecover] at decided
    split at decided
    · cases decided
      trivial
    · split at decided
      · unfold decideKnown at decided
        split at decided
        · cases decided
          trivial
        · split at decided
          · cases decided
            trivial
          · split at decided
            · cases decided
            · exact decideComplete_halt decided
      · cases decided
  | cancelTask taskId =>
    simp only [Command.decide, decideCancel] at decided
    split at decided <;> cases decided
    trivial
  | step => exact decideStep_halt decided
end Refusals

/-! ### The other operations -/

/-- Nothing changed but the scope and the progress and telemetry streams. -/
def Observes (runtime reached : Runtime σ ν) : Prop :=
  ∃ scope progressSequencer telemetrySequencer progressEvents telemetryEvents,
    reached = { runtime with
      scope := scope
      progressSequencer := progressSequencer
      telemetrySequencer := telemetrySequencer
      progressEvents := progressEvents
      telemetryEvents := telemetryEvents }

omit [DurableStore σ] in
/-- What a retry does: a parked start goes first. -/
theorem retryExecutionEvent_eq (item : StreamItem RuntimeEvent) (runtime : Runtime σ ν) :
    retryExecutionEvent item runtime =
      match runtime.pendingStarted with
      | none =>
        match runtime.executionEvents.tryPush item with
        | .ok events => (.ok (), { runtime with executionEvents := events })
        | .error rejected => (.error (.executionBackpressure rejected), runtime)
      | some (attempt, parked) =>
        match runtime.executionEvents.tryPush parked with
        | .ok events => (.ok (), { runtime with
            executionEvents := events
            pendingStarted := none
            attempts := runtime.attempts ++ [attempt] })
        | .error rejected => (.error (.executionBackpressure rejected),
            { runtime with pendingStarted := some (attempt, parked) }) := by
  cases pending : runtime.pendingStarted with
  | none =>
    simp only [retryExecutionEvent, enqueueExecution, pending]
    cases runtime.executionEvents.tryPush item <;> rfl
  | some held =>
    simp only [retryExecutionEvent, enqueueExecution, pending]
    cases runtime.executionEvents.tryPush held.2 <;> rfl

end Runtime

/-- The operations that observe only. -/
def Operation.observes {ν : Type} : Operation ν → Bool
  | .emitProgress _ _ | .emitTelemetry _ | .drainProgressEvents | .drainTelemetryEvents
  | .changeScope _ => true
  | _ => false

namespace Runtime

variable {σ ν : Type} [DurableStore σ]

/-- An observation changes no view of the durable facts, and its refusal names no store. -/
theorem perform_observes {operation : Operation ν} (observing : operation.observes = true)
    (runtime : Runtime σ ν) :
    Observes runtime (operation.perform runtime).2 ∧
      ∀ error, (operation.perform runtime).1 = .error error → error = .progressBackpressure ∨
        ∃ exhausted, error = .stream exhausted := by
  cases operation with
  | command inner => cases observing
  | runUntilBlocked => cases observing
  | drainExecutionEvents => cases observing
  | retryExecutionEvent item => cases observing
  | emitProgress taskId progress =>
    rw [Operation.perform, run_map, emitProgress]
    split
    · exact ⟨⟨_, _, _, _, _, rfl⟩, fun _ same => .inr ⟨_, (Except.error.inj same).symm⟩⟩
    · split
      · exact ⟨⟨_, _, _, _, _, rfl⟩, fun _ same => .inl (Except.error.inj same).symm⟩
      · exact ⟨⟨_, _, _, _, _, rfl⟩, fun _ same => by cases same⟩
  | emitTelemetry message =>
    rw [Operation.perform, run_map, emitTelemetry]
    split
    · exact ⟨⟨_, _, _, _, _, rfl⟩, fun _ same => .inr ⟨_, (Except.error.inj same).symm⟩⟩
    · exact ⟨⟨_, _, _, _, _, rfl⟩, fun _ same => by cases same⟩
  | drainProgressEvents => exact ⟨⟨_, _, _, _, _, rfl⟩, fun _ same => by cases same⟩
  | drainTelemetryEvents => exact ⟨⟨_, _, _, _, _, rfl⟩, fun _ same => by cases same⟩
  | changeScope scope => exact ⟨⟨_, _, _, _, _, rfl⟩, fun _ same => by cases same⟩

/-- **The scheduler loop is a sequence of steps that stops at the first error.** -/
theorem runSteps_run (Inv : Runtime σ ν → Prop) (Fails : RuntimeError → Runtime σ ν → Prop)
    (goes : ∀ {runtime}, Inv runtime → ∀ reply, (Command.step.perform runtime).1 = .ok reply →
      Inv (Command.step.perform runtime).2)
    (fails : ∀ {runtime}, Inv runtime → ∀ error, (Command.step.perform runtime).1 = .error error →
      Fails error (Command.step.perform runtime).2) (fuel : Nat) (results : List StepResult)
    {runtime : Runtime σ ν} (before : Inv runtime) :
    (∀ answer, (runSteps fuel results runtime).1 = .ok answer →
        Inv (runSteps fuel results runtime).2) ∧
      ∀ error, (runSteps fuel results runtime).1 = .error error →
        Fails error (runSteps fuel results runtime).2 := by
  induction fuel generalizing results runtime with
  | zero => exact ⟨fun _ _ => before, fun _ same => by cases same⟩
  | succ fuel ih =>
    rw [runSteps, run_bind]
    have going := goes before
    have failing := fails before
    rw [Command.perform, run_map] at going failing
    rcases stepped : step runtime with ⟨error | result, reached⟩
    · rw [stepped] at failing
      refine ⟨fun _ same => (by cases same), fun other same => ?_⟩
      cases same
      exact failing error rfl
    · rw [stepped] at going
      have kept : Inv reached := going (.stepped result) rfl
      simp only
      split
      · exact ih _ kept
      · exact ⟨fun _ _ => kept, fun _ same => by cases same⟩

/-- What one step keeps, whether it answers or fails, the scheduler loop keeps. -/
theorem runUntilBlocked_keeps (Inv : Runtime σ ν → Prop)
    (goes : ∀ {runtime}, Inv runtime → Inv (Command.step.perform runtime).2)
    {runtime : Runtime σ ν} (before : Inv runtime) : Inv (runUntilBlocked runtime).2 := by
  have run := runSteps_run Inv (fun _ reached => Inv reached) (fun before _ _ => goes before)
    (fun before _ _ => goes before) (runtime.workflow.tasks.length + 1) [] before
  rw [runUntilBlocked, run_bind, run_get]
  simp only
  cases result : (runSteps (runtime.workflow.tasks.length + 1) [] runtime).1 with
  | ok answer => exact run.1 answer result
  | error error => exact run.2 error result

end Runtime

end Kernis
