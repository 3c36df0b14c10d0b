/-
**What a command may choose.**

`Chooses runtime command action after` lists every way in which a command can come to an action, with
the guards it passed on the way. `decide_chooses` inverts the decision function into this list, so
that a fact about all commands is a fact about thirteen cases.
-/

import Kernis.Runtime.Decide

namespace Kernis

open Std Fallible

section Choices

variable {σ ν : Type} (runtime : Runtime σ ν)

/-- **Which action a command may choose**, with the guards it passed. -/
inductive Chooses : Command → Action → After → Prop
  | configure {taskId : Id} {config : TaskConfig} {identity : WorkflowReplayIdentity}
      (legacy : runtime.identityProvenance ≠ .declarativeDefinition)
      (exists_ : taskId ∈ runtime.workflow.topology.tasks)
      (identified : legacyWorkflowReplayIdentity runtime.workflow
        (runtime.taskConfigs.insert taskId config) = .ok identity) :
      Chooses (.configureTask taskId config)
        (.configure (runtime.taskConfigs.insert taskId config) identity) (.reply .done)
  | mutate {expectedRevision : Nat} {batch : List WorkflowMutation}
      {record : WorkflowMutationRecord} {candidate : WorkflowGraph}
      {identity : WorkflowReplayIdentity}
      (legacy : runtime.identityProvenance ≠ .declarativeDefinition)
      (applied : runtime.workflow.applyBatch expectedRevision batch = .ok (record, candidate))
      (identified : legacyWorkflowReplayIdentity candidate runtime.taskConfigs = .ok identity) :
      Chooses (.applyWorkflowMutation expectedRevision batch) (.mutate candidate identity)
        (.reply (.recorded record))
  | intent {taskId : Id} {operationId : OperationId} {semantics : EffectSemantics}
      {journal : DurableJournal} (exists_ : taskId ∈ runtime.workflow.topology.tasks)
      (unfinished : runtime.workflow.isCompleted taskId = false)
      (persisted : runtime.journal.persistIntent ⟨taskId, operationId, semantics⟩ = .ok journal) :
      Chooses (.recordEffectIntent taskId operationId semantics)
        (.intent ⟨taskId, operationId, semantics⟩ journal) (.reply .done)
  | dispatch {operationId : OperationId} {intent : EffectIntent} {attemptId : AttemptId}
      {journal : DurableJournal}
      (found : runtime.journal.intent operationId = .ok intent)
      (live : intent.taskId ∉ runtime.cancelled)
      (prepared : runtime.journal.state operationId = .prepared)
      (waiting : runtime.pendingAttempt intent.taskId operationId = some attemptId)
      (persisted : runtime.journal.persistDispatch ⟨operationId, attemptId⟩ = .ok journal) :
      Chooses (.dispatchEffect operationId) (.dispatch ⟨operationId, attemptId⟩ journal)
        (.reply (.dispatched attemptId))
  | begin {operationId : OperationId} {intent : EffectIntent} {pins : List CapabilityPin}
      (found : runtime.journal.intent operationId = .ok intent)
      (live : intent.taskId ∉ runtime.cancelled)
      (prepared : runtime.journal.state operationId = .prepared)
      (missing : runtime.pendingAttempt intent.taskId operationId = none)
      (pinned : captureCapabilityPins runtime.scope runtime.taskConfigs intent.taskId none =
        .ok pins) :
      Chooses (.dispatchEffect operationId)
        (.admission (runtime.nextAttempt intent.taskId (some operationId) pins)) .again
  | retry {operationId : OperationId} {intent : EffectIntent} {pins : List CapabilityPin}
      (found : runtime.journal.intent operationId = .ok intent)
      (live : intent.taskId ∉ runtime.cancelled)
      (unknown : runtime.journal.state operationId = .outcomeUnknown)
      (idempotent : intent.semantics ≠ .nonIdempotent)
      (pinned : captureCapabilityPins runtime.scope runtime.taskConfigs intent.taskId none =
        .ok pins) :
      Chooses (.dispatchEffect operationId)
        (.admission (runtime.nextAttempt intent.taskId (some operationId) pins))
        (.dispatch operationId (generatedAttemptId runtime.runId runtime.nextAttemptNumber))
  | outcome {operationId : OperationId} {attemptId : AttemptId} {outcome : KnownEffectOutcome}
      {journal : DurableJournal}
      (persisted : runtime.journal.persistOutcome ⟨operationId, attemptId, outcome⟩ = .ok journal) :
      Chooses (.recordEffectOutcome operationId attemptId outcome)
        (.outcome ⟨operationId, attemptId, outcome⟩ journal) (.reply .done)
  | recover {operationId : OperationId} {intent : EffectIntent} {outcome : OutcomeRecord}
      {decision : RecoveryDecision} {workflow : WorkflowGraph}
      (found : runtime.journal.intent operationId = .ok intent)
      (known : runtime.journal.knownOutcome operationId = some outcome)
      (succeeded : runtime.journal.state operationId = .outcomeKnown .succeeded)
      (completed : runtime.workflow.complete intent.taskId = .ok workflow) :
      Chooses (.recover operationId) (.complete ⟨intent.taskId, outcome.attemptId⟩ workflow)
        (.reply (.decided decision))
  | cancel {taskId : Id} :
      Chooses (.cancelTask taskId) (.cancel (runtime.cancellationOf taskId))
        (.reply (.cancelled (runtime.cancellationReply taskId)))
  | stepIntent {taskId : Id} {effect : EffectSpec} {journal : DurableJournal}
      (idle : runtime.pendingStarted = none) (ready : runtime.nextReady = some taskId)
      (configured : (runtime.taskConfigs[taskId]?).bind TaskConfig.effect = some effect)
      (exists_ : taskId ∈ runtime.workflow.topology.tasks)
      (unfinished : runtime.workflow.isCompleted taskId = false)
      (persisted : runtime.journal.persistIntent
        ⟨taskId, effect.operationId, effect.semantics⟩ = .ok journal) :
      Chooses .step (.intent ⟨taskId, effect.operationId, effect.semantics⟩ journal) .again
  | stepBegin {taskId : Id} {pins : List CapabilityPin}
      (idle : runtime.pendingStarted = none) (ready : runtime.nextReady = some taskId)
      (owned : runtime.journal.operationForTask taskId = none)
      (configured : (runtime.taskConfigs[taskId]?).bind TaskConfig.effect = none)
      (missing : runtime.attemptForTask taskId none = none)
      (pinned : captureCapabilityPins runtime.scope runtime.taskConfigs taskId none = .ok pins) :
      Chooses .step (.admission (runtime.nextAttempt taskId none pins)) .again
  | stepComplete {taskId : Id} {attemptId : AttemptId} {workflow : WorkflowGraph}
      (idle : runtime.pendingStarted = none) (ready : runtime.nextReady = some taskId)
      (owned : runtime.journal.operationForTask taskId = none)
      (waiting : runtime.attemptForTask taskId none = some attemptId)
      (completed : runtime.workflow.complete taskId = .ok workflow) :
      Chooses .step (.complete ⟨taskId, attemptId⟩ workflow)
        (.reply (.stepped (.completed taskId attemptId)))
  | stepAdmit {taskId : Id} {operationId : OperationId} {pins : List CapabilityPin}
      (idle : runtime.pendingStarted = none) (ready : runtime.nextReady = some taskId)
      (prepared : runtime.journal.state operationId = .prepared)
      (missing : runtime.pendingAttempt taskId operationId = none)
      (pinned : captureCapabilityPins runtime.scope runtime.taskConfigs taskId none = .ok pins)
      (owned : runtime.journal.operationForTask taskId = some operationId) :
      Chooses .step (.admission (runtime.nextAttempt taskId (some operationId) pins))
        (.reply (.stepped (.effectPending taskId
          (generatedAttemptId runtime.runId runtime.nextAttemptNumber) operationId)))
  | stepKnown {taskId : Id} {operationId : OperationId} {intent : EffectIntent}
      {outcome : OutcomeRecord} {workflow : WorkflowGraph}
      (idle : runtime.pendingStarted = none) (ready : runtime.nextReady = some taskId)
      (owned : runtime.journal.operationForTask taskId = some operationId)
      (found : runtime.journal.intent operationId = .ok intent)
      (known : runtime.journal.knownOutcome operationId = some outcome)
      (succeeded : runtime.journal.state operationId = .outcomeKnown .succeeded)
      (completed : runtime.workflow.complete taskId = .ok workflow) :
      Chooses .step (.complete ⟨taskId, outcome.attemptId⟩ workflow)
        (.reply (.stepped (.completed taskId outcome.attemptId)))

end Choices

namespace Runtime

variable {σ ν : Type} {runtime : Runtime σ ν} {action : Action} {after : After}

/-- A task that is found is in the topology. -/
theorem mem_of_task {workflow : WorkflowGraph} {taskId : Id}
    (found : ¬ (workflow.task taskId).isNone = true) : taskId ∈ workflow.topology.tasks := by
  refine ExtTreeMap.mem_iff_isSome_getElem?.mpr (Option.isSome_iff_ne_none.mpr fun none => found ?_)
  rw [WorkflowGraph.task, none]
  rfl

theorem decideIntent_eq_act {intent : EffectIntent} {next : After}
    (decided : runtime.decideIntent intent next = .act action after) :
    intent.taskId ∈ runtime.workflow.topology.tasks ∧
      runtime.workflow.isCompleted intent.taskId = false ∧
      ∃ journal, runtime.journal.persistIntent intent = .ok journal ∧
        action = .intent intent journal ∧ after = next := by
  unfold decideIntent at decided
  split at decided
  · cases decided
  · rename_i exists_
    split at decided
    · cases decided
    · rename_i unfinished
      split at decided
      · cases decided
      · cases decided
        exact ⟨mem_of_task exists_, Bool.eq_false_iff.mpr unfinished, _, ‹_›, rfl, rfl⟩

theorem decideAdmit_eq_act {taskId : Id} {operationId : Option OperationId}
    {next : AttemptId → After}
    (decided : runtime.decideAdmit taskId operationId next = .act action after) :
    ∃ pins, captureCapabilityPins runtime.scope runtime.taskConfigs taskId none = .ok pins ∧
      action = .admission (runtime.nextAttempt taskId operationId pins) ∧
      after = next (generatedAttemptId runtime.runId runtime.nextAttemptNumber) := by
  unfold decideAdmit at decided
  split at decided
  · cases decided
  · cases decided
    exact ⟨_, ‹_›, rfl, rfl⟩

theorem decideComplete_eq_act {taskId : Id} {attemptId : AttemptId} {reply : Reply}
    (decided : runtime.decideComplete taskId attemptId reply = .act action after) :
    ∃ workflow, runtime.workflow.complete taskId = .ok workflow ∧
      action = .complete ⟨taskId, attemptId⟩ workflow ∧ after = .reply reply := by
  unfold decideComplete at decided
  split at decided
  · cases decided
  · cases decided
    exact ⟨_, ‹_›, rfl, rfl⟩

theorem chooses_dispatch {operationId : OperationId}
    (decided : runtime.decideEffectDispatch operationId = .act action after) :
    Chooses runtime (.dispatchEffect operationId) action after := by
  unfold decideEffectDispatch at decided
  split at decided
  · cases decided
  · rename_i intent found
    split at decided
    · cases decided
    · rename_i live
      cases prepared : runtime.journal.state operationId with
      | prepared =>
        rw [prepared, decideAttempt] at decided
        split at decided
        · rename_i attemptId waiting
          unfold decideDispatch at decided
          split at decided
          · cases decided
          · cases decided
            exact .dispatch found live prepared waiting ‹_›
        · rename_i missing
          obtain ⟨pins, pinned, rfl, rfl⟩ := decideAdmit_eq_act decided
          exact .begin found live prepared missing pinned
      | outcomeUnknown =>
        rw [prepared, decideAttempt] at decided
        split at decided
        · cases decided
        · rename_i idempotent
          obtain ⟨pins, pinned, rfl, rfl⟩ := decideAdmit_eq_act decided
          exact .retry found live prepared idempotent pinned
      | outcomeKnown outcome =>
        rw [prepared, decideAttempt] at decided
        cases decided
      | notPrepared =>
        rw [prepared, decideAttempt] at decided
        cases decided

theorem chooses_recover {operationId : OperationId}
    (decided : runtime.decideRecover operationId = .act action after) :
    Chooses runtime (.recover operationId) action after := by
  unfold decideRecover at decided
  split at decided
  · cases decided
  · rename_i decision classified
    split at decided
    · rename_i complete
      obtain ⟨intent, record, found, succeeded, known, _, unfinished⟩ :=
        classifyRecovery_complete classified complete
      unfold decideKnown at decided
      simp only [found, known, unfinished, Bool.false_eq_true, if_false] at decided
      obtain ⟨workflow, completed, rfl, rfl⟩ := decideComplete_eq_act decided
      exact .recover found known succeeded completed
    · cases decided

theorem chooses_step (decided : runtime.decideStep = .act action after) :
    Chooses runtime .step action after := by
  unfold decideStep at decided
  split at decided
  · cases decided
  · rename_i idle
    split at decided
    · cases decided
    · rename_i taskId ready
      unfold decideTask at decided
      split at decided
      · rename_i operationId owned
        split at decided
        · cases decided
        · rename_i intent found
          cases prepared : runtime.journal.state operationId with
          | prepared =>
            rw [prepared, decideEffect] at decided
            split at decided
            · cases decided
            · rename_i missing
              obtain ⟨pins, pinned, rfl, rfl⟩ := decideAdmit_eq_act decided
              exact .stepAdmit idle ready prepared missing pinned owned
          | outcomeUnknown =>
            rw [prepared, decideEffect] at decided
            split at decided <;> cases decided
          | outcomeKnown outcome =>
            cases outcome with
            | succeeded =>
              rw [prepared, decideEffect] at decided
              split at decided
              · cases decided
              · rename_i outcome known
                obtain ⟨workflow, completed, rfl, rfl⟩ := decideComplete_eq_act decided
                exact .stepKnown idle ready owned found known prepared completed
            | failed =>
              rw [prepared, decideEffect] at decided
              cases decided
          | notPrepared =>
            rw [prepared, decideEffect] at decided
            cases decided
      · rename_i owned
        split at decided
        · rename_i configured
          unfold decidePlain at decided
          split at decided
          · rename_i attemptId waiting
            obtain ⟨workflow, completed, rfl, rfl⟩ := decideComplete_eq_act decided
            exact .stepComplete idle ready owned waiting completed
          · rename_i missing
            obtain ⟨pins, pinned, rfl, rfl⟩ := decideAdmit_eq_act decided
            exact .stepBegin idle ready owned configured missing pinned
        · rename_i effect configured
          obtain ⟨exists_, unfinished, journal, persisted, rfl, rfl⟩ := decideIntent_eq_act decided
          exact .stepIntent idle ready configured exists_ unfinished persisted

/-- **A command that acts made one of these choices.** -/
theorem decide_chooses {command : Command} (decided : command.decide runtime = .act action after) :
    Chooses runtime command action after := by
  cases command with
  | configureTask taskId config =>
    simp only [Command.decide, decideConfigure] at decided
    split at decided
    · cases decided
    · rename_i legacy
      split at decided
      · cases decided
      · rename_i exists_
        split at decided
        · cases decided
        · cases decided
          exact .configure legacy (mem_of_task exists_) ‹_›
  | applyWorkflowMutation expectedRevision batch =>
    simp only [Command.decide, decideMutate] at decided
    split at decided
    · cases decided
    · rename_i legacy
      split at decided
      · cases decided
      · rename_i record candidate applied
        split at decided
        · cases decided
        · cases decided
          exact .mutate legacy applied ‹_›
  | recordEffectIntent taskId operationId semantics =>
    obtain ⟨exists_, unfinished, journal, persisted, rfl, rfl⟩ := decideIntent_eq_act decided
    exact .intent exists_ unfinished persisted
  | dispatchEffect operationId => exact chooses_dispatch decided
  | recordEffectOutcome operationId attemptId outcome =>
    simp only [Command.decide, decideOutcome] at decided
    split at decided
    · cases decided
    · cases decided
      exact .outcome ‹_›
  | recover operationId => exact chooses_recover decided
  | cancelTask taskId =>
    simp only [Command.decide, decideCancel] at decided
    split at decided
    · cases decided
    · cases decided
      exact .cancel
  | step => exact chooses_step decided

/-- **A command starts over at most once**: what it did makes the next decision another one. -/
theorem not_again_twice [DurableStore σ] {command : Command} {reached : Runtime σ ν}
    {other : Action} (chosen : Chooses runtime command action .again)
    (acted : act action runtime = (.ok (), reached)) :
    ¬ Chooses reached command other .again := by
  intro twice
  cases chosen with
  | begin found live prepared missing pinned =>
    obtain ⟨store, revision, sequencer, events, same⟩ := act_admit_ok acted
    cases twice with
    | begin found' live' prepared' missing' pinned' =>
      rw [same] at found'
      cases found.symm.trans found'
      have waiting := attemptForTask_push missing (runtime.belongsTo_nextAttempt _ _ _)
        (show reached.pendingStarted = runtime.pendingStarted by rw [same]; rfl)
        (show reached.attempts = _ by rw [same])
      rw [pendingAttempt, waiting] at missing'
      cases missing'
  | stepIntent idle ready configured exists_ unfinished persisted =>
    obtain ⟨store, revision, same⟩ := act_intent_ok acted
    obtain ⟨owned, found⟩ := persistIntent_found persisted
    cases twice with
    | stepIntent idle' ready' configured' _ _ persisted' =>
      rw [same] at ready' persisted'
      cases Option.some.inj (ready.symm.trans ready')
      unfold DurableJournal.persistIntent at persisted'
      split at persisted'
      · cases persisted'
      · unfold DurableJournal.operationForTask at owned
        simp only [owned] at persisted'
        cases persisted'
    | stepBegin idle' ready' owned' configured' missing' pinned' =>
      rw [same] at ready' owned'
      cases Option.some.inj (ready.symm.trans ready')
      exact absurd (owned.symm.trans owned') (by simp)
  | stepBegin idle ready owned configured missing pinned =>
    obtain ⟨store, revision, sequencer, events, same⟩ := act_admit_ok acted
    cases twice with
    | stepIntent idle' ready' configured' _ _ persisted' =>
      rw [same] at ready' configured'
      cases Option.some.inj (ready.symm.trans ready')
      exact absurd (configured.symm.trans configured') (by simp)
    | stepBegin idle' ready' owned' configured' missing' pinned' =>
      rw [same] at ready'
      cases Option.some.inj (ready.symm.trans ready')
      have waiting := attemptForTask_push missing (runtime.belongsTo_nextAttempt _ _ _)
        (show reached.pendingStarted = runtime.pendingStarted by rw [same]; rfl)
        (show reached.attempts = _ by rw [same])
      rw [waiting] at missing'
      cases missing'

end Runtime

end Kernis
