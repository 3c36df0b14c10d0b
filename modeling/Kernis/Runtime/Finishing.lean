/-
**A run can be finished exactly when none of its unfinished tasks is doomed.**

No reachable state is a dead end by accident. A task that is not doomed is brought to its completion by
the runtime's own operations: its intent, its dispatch, the success of its effect, its completion. Nothing
of this touches the other tasks.

* `Concerns` — which task a mutation is about. `Accepted.apart`: the fate of every other task stays.
* `Went` — what commits about one task keep, and how many they were.
* `intend`, `send`, `conclude`, `completeKnown_went`, `completePlain` — the moves of one task.
* `finish_next` — one of the unfinished tasks can be completed; `finish_all` — so all of them can.
* `finishable_iff` — and a doomed one never is.
-/

import Kernis.Runtime.Reliable
import Kernis.Workflow.Progress
import Mathlib.Data.Fintype.EquivFin

namespace Kernis

open Std Fallible

/-- The mutation is about a task, or about no task's fate. -/
def DurableMutation.Concerns (state : DurableRunState) (taskId : Id) : DurableMutation → Prop
  | .recordIntent fact => fact.taskId = taskId
  | .recordDispatch sent => state.operationForTask taskId = some sent.operationId
  | .recordOutcome fact => state.operationForTask taskId = some fact.operationId
  | .admitAttempt _ | .recordCompletion _ => True
  | .recordCancellation _ | .recordWorkflowReplayIdentity _ => False

namespace DurableRunState

variable {state next : DurableRunState} {taskId other : Id}

/-- A mutation about a task's work cancels nothing. -/
theorem Accepted.cancellations_same {mutation : DurableMutation}
    (accepted : Accepted state mutation next) (concerns : mutation.Concerns state taskId) :
    next.cancellations = state.cancellations := by
  cases accepted with
  | cancellation => exact concerns.elim
  | _ => rfl

/-- **The fate of the other tasks stays.** -/
theorem Accepted.apart {mutation : DurableMutation} (lineage : state.Lineage)
    (accepted : Accepted state mutation next) (concerns : mutation.Concerns state taskId)
    (differs : other ≠ taskId) : next.Doomed other ↔ state.Doomed other := by
  refine doomed_congr ?_ ?_ fun operationId owner => ?_
  · cases accepted with
    | intent fact unknown free =>
      have mine : fact.taskId = taskId := concerns
      exact lookup_insert_ne _ _ fun same => differs (same.symm.trans mine)
    | _ => rfl
  · rw [accepted.cancellations_same concerns]
  · obtain ⟨intent, found, mine⟩ := lineage.owned_intent owner
    have apart : state.operationForTask taskId ≠ some operationId :=
      fun again => differs (lineage.owner_unique owner again)
    refine accepted.effectState_same (mem_of_lookup found) ?_ ?_
    · rintro sent rfl rfl
      exact apart concerns
    · rintro fact latest rfl last same
      obtain ⟨found, own⟩ := lineage.latestDispatch_lookup last
      rw [← same] at found
      have carried : fact.operationId = operationId := by
        cases accepted with
        | outcomeKnown _ _ _ dispatch _ sent carried =>
          rw [sent] at found
          cases found
          exact carried.symm.trans own
        | outcome _ _ dispatch _ sent carried =>
          rw [sent] at found
          cases found
          exact carried.symm.trans own
      exact apart (carried ▸ concerns)

/-- After a dispatch the outcome is unknown. -/
theorem Accepted.effectState_sent {sent : DispatchRecord} (lineage : state.Lineage)
    (accepted : Accepted state (.recordDispatch sent) next) :
    next.effectState sent.operationId = .outcomeUnknown := by
  cases accepted with
  | dispatch _ intent admission prepared _ _ _ _ fresh =>
    have latest : ((state.dispatchHistory ++ [sent]).filter fun dispatch =>
        dispatch.operationId = sent.operationId).getLast? = some sent := by
      rw [List.filter_append]
      simp
    unfold effectState
    rw [if_neg (not_not.mpr (mem_of_lookup prepared))]
    unfold latestDispatch dispatchesOf
    rw [latest]
    simp only [lineage.outcome_none fresh]

/-- After the outcome of the latest dispatch the effect is known. -/
theorem Accepted.effectState_concluded {fact : OutcomeRecord} {latest : DispatchRecord}
    (accepted : Accepted state (.recordOutcome fact) next)
    (prepared : fact.operationId ∈ state.intents) (fresh : fact.attemptId ∉ state.outcomes)
    (last : state.latestDispatch fact.operationId = some latest)
    (same : latest.attemptId = fact.attemptId) :
    next.effectState fact.operationId = .outcomeKnown fact.outcome := by
  cases accepted with
  | outcomeKnown _ _ _ _ _ _ _ _ known => exact absurd (mem_of_lookup known) fresh
  | outcome =>
    refine effectState_known_iff.mpr ⟨prepared, latest, fact, last, ?_, rfl⟩
    show (state.outcomes.insert fact.attemptId fact)[latest.attemptId]? = _
    rw [same, lookup_insert_self]

end DurableRunState

namespace Runtime

variable {ν : Type} [Postcard]

/-! ### What commits about one task keep -/

/-- **Commits about one task**, at most so many: the other tasks, the configuration and the scope are as
before, and nothing is parked. -/
structure Went (taskId : Id) (cost : Nat) (runtime reached : Runtime InMemoryDurableStore ν)
    (state next : DurableRunState) : Prop where
  synced : Synced reached next
  taskConfigs : reached.taskConfigs = runtime.taskConfigs
  scope : reached.scope = runtime.scope
  idle : reached.pendingStarted = none
  revision : next.revision ≤ state.revision + cost
  cancelled : next.cancellations = state.cancellations
  apart : ∀ other, other ≠ taskId → (next.Doomed other ↔ state.Doomed other)

variable {runtime middle reached : Runtime InMemoryDurableStore ν}
  {state between next : DurableRunState} {taskId : Id}

theorem Went.trans {first second : Nat} (went : Went taskId first runtime middle state between)
    (later : Went taskId second middle reached between next) :
    Went taskId (first + second) runtime reached state next where
  synced := later.synced
  taskConfigs := later.taskConfigs.trans went.taskConfigs
  scope := later.scope.trans went.scope
  idle := later.idle
  revision := by
    have := went.revision
    have := later.revision
    omega
  cancelled := later.cancelled.trans went.cancelled
  apart other differs := (later.apart other differs).trans (went.apart other differs)

theorem Went.mono {cost more : Nat} (went : Went taskId cost runtime reached state next)
    (least : cost ≤ more) : Went taskId more runtime reached state next :=
  { went with revision := Nat.le_trans went.revision (Nat.add_le_add_left least _) }

/-- One action that is about the task. -/
theorem Took.went {action : Action} (took : Took runtime reached state next action)
    (synced : Synced runtime state) (concerns : action.mutation.Concerns state taskId)
    (idle : runtime.pendingStarted = none)
    (calm : runtime.executionEvents.items = [] ∨ ∀ attempt, action ≠ .admission attempt) :
    Went taskId 1 runtime reached state next := by
  obtain ⟨candidate, key, accepted, rfl⟩ := took.accepted
  refine ⟨took.synced, ?_, took.scope, took.idle idle calm, Nat.le_refl _, ?_, fun other differs => ?_⟩
  · rw [took.taskConfigs]
    cases action with
    | configure => exact concerns.elim
    | _ => rfl
  · exact accepted.cancellations_same concerns
  · show candidate.Doomed other ↔ _
    exact accepted.apart synced.coherent.owned.lineage concerns differs

omit [Postcard] in
/-- The runtime after its consumer drained the lifecycle stream. -/
def drained (runtime : Runtime InMemoryDurableStore ν) : Runtime InMemoryDurableStore ν :=
  { runtime with executionEvents := runtime.executionEvents.drain.2 }

omit [Postcard] in
theorem drained_empty (runtime : Runtime InMemoryDurableStore ν) :
    runtime.drained.executionEvents.items = [] := by
  unfold drained
  rw [LosslessBuffer.drain_eq]

/-- Draining is a local change. -/
theorem Synced.drained (synced : Synced runtime state) : Synced runtime.drained state := by
  have quiet : Quiet runtime (Operation.drainExecutionEvents.perform runtime).2 :=
    quiet_of_not_commits rfl runtime
  exact quiet.synced synced

/-- A drained runtime goes on as the runtime does. -/
theorem Went.of_drained {cost : Nat} (went : Went taskId cost runtime.drained reached state next) :
    Went taskId cost runtime reached state next :=
  ⟨went.synced, went.taskConfigs, went.scope, went.idle, went.revision, went.cancelled, went.apart⟩

/-- A command after the consumer drained the lifecycle stream. -/
def afterDrain (command : Command) : List (Operation ν) := [.drainExecutionEvents, .command command]

theorem performAll_afterDrain (runtime : Runtime InMemoryDurableStore ν) (command : Command) :
    runtime.performAll (afterDrain command) = (command.perform runtime.drained).2 := rfl

theorem performAll_append (runtime : Runtime InMemoryDurableStore ν)
    (first second : List (Operation ν)) :
    runtime.performAll (first ++ second) = (runtime.performAll first).performAll second :=
  List.foldl_append

/-! ### The views of a runtime in step -/

theorem Synced.intent_ok (synced : Synced runtime state) {operationId : OperationId}
    {intent : EffectIntent} (found : state.intents[operationId]? = some intent) :
    runtime.journal.intent operationId = .ok intent := by
  have carried : runtime.journal.intents[operationId]? = some intent := by
    rw [synced.coherent.journal]
    exact found
  unfold DurableJournal.intent
  rw [carried]

/-- A held attempt of a prepared operation was not dispatched. -/
theorem Synced.unsent (synced : Synced runtime state) {operationId : OperationId}
    {attemptId : AttemptId} (prepared : state.effectState operationId = .prepared)
    (holds : runtime.Holds taskId (some operationId) attemptId) : attemptId ∉ state.dispatches := by
  intro dispatched
  have lineage := synced.coherent.owned.lineage
  obtain ⟨dispatch, sent⟩ := exists_lookup_of_mem dispatched
  have inside := lineage.dispatches.mem_of_lookup sent
  obtain ⟨admission, _, admitted, carried, _⟩ := lineage.dispatched dispatch inside
  rw [lineage.dispatches.key_of_lookup sent] at admitted
  obtain ⟨held, found, _, own⟩ := synced.coherent.admitted holds
  rw [admitted] at found
  cases found
  rw [carried] at own
  cases own
  have none_ := DurableRunState.latestDispatch_of_prepared prepared
  unfold DurableRunState.latestDispatch DurableRunState.dispatchesOf at none_
  rw [List.getLast?_eq_none_iff, List.filter_eq_nil_iff] at none_
  exact none_ dispatch inside (decide_eq_true rfl)

/-! ### The moves of one task -/

/-- What a move of a task that is not completed yet leaves. -/
structure Moved (taskId : Id) (cost : Nat) (operationId : OperationId)
    (effect : RecoveredEffectState) (runtime reached : Runtime InMemoryDurableStore ν)
    (state next : DurableRunState) : Prop where
  went : Went taskId cost runtime reached state next
  workflow : reached.workflow = runtime.workflow
  owner : next.operationForTask taskId = some operationId
  effect : next.effectState operationId = effect

/-- **A task without an operation is given one.** -/
theorem intend (synced : Synced runtime state) (idle : runtime.pendingStarted = none)
    (known : taskId ∈ runtime.workflow.topology.tasks)
    (unfinished : runtime.workflow.isCompleted taskId = false)
    (free : state.operationForTask taskId = none) {operationId : OperationId}
    (unknown : operationId ∉ state.intents) (semantics : EffectSemantics)
    (room : state.revision < u64Max) :
    ∃ next, Moved taskId 1 operationId .prepared runtime
      (runtime.performAll (afterDrain (.recordEffectIntent taskId operationId semantics)))
      state next := by
  have synced := synced.drained
  have lineage := synced.coherent.owned.lineage
  obtain ⟨journal, persisted⟩ : ∃ journal, runtime.drained.journal.persistIntent
      ⟨taskId, operationId, semantics⟩ = .ok journal := by
    rw [synced.coherent.journal]
    exact DurableJournal.persistIntent_of unknown free
  have present : (runtime.drained.workflow.task taskId).isNone = false := by
    obtain ⟨task, held⟩ := exists_lookup_of_mem known
    show (runtime.workflow.topology.tasks[taskId]?).isNone = false
    rw [held]
    rfl
  have open_ : runtime.drained.workflow.isCompleted taskId = false := unfinished
  have decided : (Command.recordEffectIntent taskId operationId semantics).decide runtime.drained =
      .act (.intent ⟨taskId, operationId, semantics⟩ journal) (.reply .done) := by
    simp only [Command.decide, decideIntent, present, open_, persisted, Bool.false_eq_true, if_false]
  have allowed := allowed_of_chooses (decide_chooses decided)
  obtain ⟨next, took⟩ := act_took allowed synced trivial room
  refine ⟨next, ?_⟩
  rw [performAll_afterDrain, perform_of_reply decided]
  refine ⟨(took.went synced rfl idle (.inl runtime.drained_empty)).of_drained, took.workflow, ?_, ?_⟩
  · obtain ⟨candidate, key, accepted, rfl⟩ := took.accepted
    cases accepted with
    | intentKnown _ there => exact absurd (mem_of_lookup there) unknown
    | intent => exact lookup_insert_self _ _ _
  · obtain ⟨candidate, key, accepted, rfl⟩ := took.accepted
    cases accepted with
    | intentKnown _ there => exact absurd (mem_of_lookup there) unknown
    | intent fact => exact DurableRunState.effectState_intent lineage unknown

/-- **The attempt that waits is dispatched.** -/
theorem sendWaiting (synced : Synced runtime state) {operationId : OperationId}
    {attemptId : AttemptId} {reached : Runtime InMemoryDurableStore ν}
    (idle : runtime.pendingStarted = none)
    (owner : state.operationForTask taskId = some operationId)
    (prepared : state.effectState operationId = .prepared) (live : taskId ∉ state.cancellations)
    (waiting : runtime.pendingAttempt taskId operationId = some attemptId)
    (room : state.revision < u64Max)
    (performed : ((Command.dispatchEffect operationId).perform runtime).2 = reached) :
    ∃ next, Moved taskId 1 operationId .outcomeUnknown runtime reached state next := by
  have lineage := synced.coherent.owned.lineage
  obtain ⟨intent, held, rfl⟩ := lineage.owned_intent owner
  have found := synced.intent_ok held
  have alive : intent.taskId ∉ runtime.cancelled := by
    rw [synced.coherent.cancelled]
    exact live
  obtain ⟨journal, persisted⟩ : ∃ journal,
      runtime.journal.persistDispatch ⟨operationId, attemptId⟩ = .ok journal := by
    have unsent := synced.unsent prepared (holds_of_attemptForTask waiting)
    rw [synced.coherent.journal]
    exact DurableJournal.persistDispatch_of (mem_of_lookup held) unsent
  have effect : runtime.journal.state operationId = .prepared :=
    (synced.effectState operationId).trans prepared
  have decided : (Command.dispatchEffect operationId).decide runtime =
      .act (.dispatch ⟨operationId, attemptId⟩ journal) (.reply (.dispatched attemptId)) := by
    simp only [Command.decide, decideEffectDispatch, found, alive, if_false, effect, decideAttempt,
      waiting, decideDispatch, persisted]
  have allowed := allowed_of_chooses (decide_chooses decided)
  obtain ⟨next, took⟩ := act_took allowed synced trivial room
  rw [perform_of_reply decided] at performed
  subst performed
  refine ⟨next, took.went synced owner idle (.inr fun _ same => by cases same), took.workflow, ?_, ?_⟩
  · obtain ⟨candidate, key, accepted, rfl⟩ := took.accepted
    cases accepted
    exact owner
  · obtain ⟨candidate, key, accepted, rfl⟩ := took.accepted
    exact accepted.effectState_sent lineage

/-- **A prepared effect is dispatched**, under the attempt that waits or a new one. -/
theorem send (synced : Synced runtime state) {operationId : OperationId}
    (idle : runtime.pendingStarted = none)
    (owner : state.operationForTask taskId = some operationId)
    (prepared : state.effectState operationId = .prepared) (live : taskId ∉ state.cancellations)
    (pinned : ∃ pins, captureCapabilityPins runtime.scope runtime.taskConfigs taskId none = .ok pins)
    (room : state.revision + 1 < u64Max) :
    ∃ next, Moved taskId 2 operationId .outcomeUnknown runtime
      (runtime.performAll (afterDrain (.dispatchEffect operationId))) state next := by
  have synced := synced.drained
  rw [performAll_afterDrain]
  cases waiting : runtime.drained.pendingAttempt taskId operationId with
  | some attemptId =>
    obtain ⟨next, moved⟩ :=
      sendWaiting synced idle owner prepared live waiting (Nat.lt_of_succ_lt room) rfl
    exact ⟨next, (moved.went.of_drained).mono (by decide), moved.workflow, moved.owner, moved.effect⟩
  | none =>
    obtain ⟨pins, pinned⟩ := pinned
    obtain ⟨intent, held, rfl⟩ := synced.coherent.owned.lineage.owned_intent owner
    have found := synced.intent_ok held
    have alive : intent.taskId ∉ runtime.drained.cancelled := by
      rw [synced.coherent.cancelled]
      exact live
    have effect : runtime.drained.journal.state operationId = .prepared :=
      (synced.effectState operationId).trans prepared
    have captured : captureCapabilityPins runtime.drained.scope runtime.drained.taskConfigs
        intent.taskId none = .ok pins := pinned
    have decided : (Command.dispatchEffect operationId).decide runtime.drained = .act
        (.admission (runtime.drained.nextAttempt intent.taskId (some operationId) pins)) .again := by
      simp only [Command.decide, decideEffectDispatch, found, alive, if_false, effect, decideAttempt,
        waiting, decideAdmit, captured]
    have allowed := allowed_of_chooses (decide_chooses decided)
    have acted := admit_ok allowed synced (Nat.lt_of_succ_lt room) runtime.drained_empty
    obtain ⟨between, took⟩ := act_took allowed synced trivial (Nat.lt_of_succ_lt room)
    have went : Went intent.taskId 1 runtime.drained _ state between :=
      took.went synced trivial idle (.inl runtime.drained_empty)
    have kept : between.operationForTask intent.taskId = some operationId ∧
        between.effectState operationId = .prepared := by
      obtain ⟨candidate, key, accepted, rfl⟩ := took.accepted
      cases accepted
      exact ⟨owner, prepared⟩
    obtain ⟨middle, begun⟩ : ∃ middle, act (.admission (runtime.drained.nextAttempt intent.taskId
        (some operationId) pins)) runtime.drained = (.ok (), middle) := ⟨_, Prod.ext acted rfl⟩
    rw [begun] at went took
    obtain ⟨_, _, _, _, same⟩ := act_admit_ok begun
    have held : middle.pendingAttempt intent.taskId operationId = some _ :=
      attemptForTask_push waiting (runtime.drained.belongsTo_nextAttempt intent.taskId
        (some operationId) pins) (by rw [same]; rfl) (by rw [same])
    rw [perform_of_again decided begun]
    have below := went.revision
    obtain ⟨next, moved⟩ := sendWaiting took.synced went.idle kept.1 kept.2
      (by rw [went.cancelled]; exact live) held (by omega) rfl
    exact ⟨next, (went.trans moved.went).of_drained, moved.workflow.trans took.workflow, moved.owner,
      moved.effect⟩

/-- **A success is recorded** for the latest dispatch of an effect whose outcome is unknown. -/
theorem conclude (synced : Synced runtime state) {operationId : OperationId}
    (idle : runtime.pendingStarted = none)
    (owner : state.operationForTask taskId = some operationId)
    (unknown : state.effectState operationId = .outcomeUnknown) (room : state.revision < u64Max) :
    ∃ operations next, Moved taskId 1 operationId (.outcomeKnown .succeeded) runtime
      (runtime.performAll operations) state next := by
  have synced := synced.drained
  have lineage := synced.coherent.owned.lineage
  obtain ⟨intent, held, mine⟩ := lineage.owned_intent owner
  obtain ⟨latest, last, fresh⟩ : ∃ latest, state.latestDispatch operationId = some latest ∧
      latest.attemptId ∉ state.outcomes := by
    unfold DurableRunState.effectState at unknown
    split at unknown
    · cases unknown
    · split at unknown
      · cases unknown
      · split at unknown
        · exact ⟨_, ‹_›, not_mem_of_lookup_none ‹_›⟩
        · cases unknown
  obtain ⟨sent, carried⟩ := lineage.latestDispatch_lookup last
  obtain ⟨journal, persisted⟩ : ∃ journal, runtime.drained.journal.persistOutcome
      ⟨operationId, latest.attemptId, .succeeded⟩ = .ok journal := by
    rw [synced.coherent.journal]
    exact DurableJournal.persistOutcome_of (mem_of_lookup held) sent carried fresh
  have decided : (Command.recordEffectOutcome operationId latest.attemptId .succeeded).decide
      runtime.drained = .act (.outcome ⟨operationId, latest.attemptId, .succeeded⟩ journal)
        (.reply .done) := by
    simp only [Command.decide, decideOutcome, persisted]
  have allowed := allowed_of_chooses (decide_chooses decided)
  obtain ⟨next, took⟩ := act_took allowed synced fresh room
  refine ⟨afterDrain (.recordEffectOutcome operationId latest.attemptId .succeeded), next, ?_⟩
  rw [performAll_afterDrain, perform_of_reply decided]
  refine ⟨(took.went synced owner idle (.inl runtime.drained_empty)).of_drained, took.workflow, ?_, ?_⟩
  · obtain ⟨candidate, key, accepted, rfl⟩ := took.accepted
    cases accepted <;> exact owner
  · obtain ⟨candidate, key, accepted, rfl⟩ := took.accepted
    exact accepted.effectState_concluded (mem_of_lookup held) fresh last rfl

/-- **A known success completes its task.** -/
theorem completeKnown_went (synced : Synced runtime state) {operationId : OperationId}
    (idle : runtime.pendingStarted = none)
    (owner : state.operationForTask taskId = some operationId)
    (succeeded : state.effectState operationId = .outcomeKnown .succeeded)
    (ready : taskId ∈ runtime.workflow.readyTasks) (room : state.revision < u64Max) :
    ∃ next, Went taskId 1 runtime (runtime.performAll (afterDrain (.recover operationId))) state
        next ∧
      runtime.workflow.complete taskId =
        .ok (runtime.performAll (afterDrain (.recover operationId))).workflow := by
  have synced := synced.drained
  obtain ⟨intent, held, rfl⟩ := synced.coherent.owned.lineage.owned_intent owner
  have found := synced.intent_ok held
  have effect : runtime.drained.journal.state operationId = .outcomeKnown .succeeded :=
    (synced.effectState operationId).trans succeeded
  obtain ⟨record, concluded, _⟩ := DurableJournal.knownOutcome_of_outcomeKnown effect
  obtain ⟨known, unfinished, _⟩ := WorkflowGraph.mem_readyTasks.mp ready
  obtain ⟨workflow, completed⟩ := WorkflowGraph.exists_complete_iff.mpr ready
  have open_ : runtime.drained.workflow.isCompleted intent.taskId = false := unfinished
  have present : (runtime.drained.workflow.task intent.taskId).isNone = false := by
    obtain ⟨task, held⟩ := exists_lookup_of_mem known
    show (runtime.workflow.topology.tasks[intent.taskId]?).isNone = false
    rw [held]
    rfl
  have accepts : runtime.drained.workflow.complete intent.taskId = .ok workflow := completed
  have decided : (Command.recover operationId).decide runtime.drained =
      .act (.complete ⟨intent.taskId, record.attemptId⟩ workflow)
        (.reply (.decided ⟨.completeWithoutReexecution,
          .knownSuccess operationId record.attemptId⟩)) := by
    simp only [Command.decide, decideRecover, classifyRecovery, found, present, effect, concluded,
      open_, knownDecision, decideKnown, decideComplete, accepts, Bool.false_eq_true, if_false,
      if_true]
  have allowed := allowed_of_chooses (decide_chooses decided)
  obtain ⟨next, took⟩ := act_took allowed synced trivial room
  refine ⟨next, ?_⟩
  rw [performAll_afterDrain, perform_of_reply decided]
  refine ⟨(took.went synced trivial idle (.inl runtime.drained_empty)).of_drained, ?_⟩
  rw [completed, took.workflow]
  rfl

/-- A task whose attempt waits is completed by a step. -/
theorem completeWaiting (synced : Synced runtime state) {attemptId : AttemptId}
    {reached : Runtime InMemoryDurableStore ν} (idle : runtime.pendingStarted = none)
    (free : state.operationForTask taskId = none)
    (bare : (runtime.taskConfigs[taskId]?).bind TaskConfig.effect = none)
    (ready : runtime.nextReady = some taskId)
    (waiting : runtime.attemptForTask taskId none = some attemptId) (room : state.revision < u64Max)
    (performed : (Command.step.perform runtime).2 = reached) :
    ∃ next, Went taskId 1 runtime reached state next ∧
      runtime.workflow.complete taskId = .ok reached.workflow := by
  obtain ⟨workflow, completed⟩ :=
    WorkflowGraph.exists_complete_iff.mpr (List.mem_of_find?_eq_some ready)
  have plain := (synced.operationForTask taskId).trans free
  have decided : Command.step.decide runtime = .act (.complete ⟨taskId, attemptId⟩ workflow)
      (.reply (.stepped (.completed taskId attemptId))) := by
    simp only [Command.decide, decideStep, idle, ready, decideTask, plain, bare, decidePlain, waiting,
      decideComplete, completed]
  have allowed := allowed_of_chooses (decide_chooses decided)
  obtain ⟨next, took⟩ := act_took allowed synced trivial room
  rw [perform_of_reply decided] at performed
  subst performed
  refine ⟨next, took.went synced trivial idle (.inr fun _ same => by cases same), ?_⟩
  rw [completed, took.workflow]
  rfl

/-- **A task without an effect is completed by a step**, under the attempt that waits or a new one. -/
theorem completePlain (synced : Synced runtime state) (idle : runtime.pendingStarted = none)
    (free : state.operationForTask taskId = none)
    (bare : (runtime.taskConfigs[taskId]?).bind TaskConfig.effect = none)
    (ready : runtime.nextReady = some taskId)
    (pinned : ∃ pins, captureCapabilityPins runtime.scope runtime.taskConfigs taskId none = .ok pins)
    (room : state.revision + 1 < u64Max) :
    ∃ next, Went taskId 2 runtime (runtime.performAll (afterDrain .step)) state next ∧
      runtime.workflow.complete taskId = .ok (runtime.performAll (afterDrain .step)).workflow := by
  have synced := synced.drained
  rw [performAll_afterDrain]
  cases waiting : runtime.drained.attemptForTask taskId none with
  | some attemptId =>
    obtain ⟨next, went, completed⟩ :=
      completeWaiting synced idle free bare ready waiting (Nat.lt_of_succ_lt room) rfl
    exact ⟨next, (went.of_drained).mono (by decide), completed⟩
  | none =>
    obtain ⟨pins, pinned⟩ := pinned
    have plain := (synced.operationForTask taskId).trans free
    have still : runtime.drained.pendingStarted = none := idle
    have first : runtime.drained.nextReady = some taskId := ready
    have unset : (runtime.drained.taskConfigs[taskId]?).bind TaskConfig.effect = none := bare
    have captured : captureCapabilityPins runtime.drained.scope runtime.drained.taskConfigs taskId
        none = .ok pins := pinned
    have decided : Command.step.decide runtime.drained =
        .act (.admission (runtime.drained.nextAttempt taskId none pins)) .again := by
      simp only [Command.decide, decideStep, still, first, decideTask, plain, unset, decidePlain,
        waiting, decideAdmit, captured]
    have allowed := allowed_of_chooses (decide_chooses decided)
    have acted := admit_ok allowed synced (Nat.lt_of_succ_lt room) runtime.drained_empty
    obtain ⟨between, took⟩ := act_took allowed synced trivial (Nat.lt_of_succ_lt room)
    have went : Went taskId 1 runtime.drained _ state between :=
      took.went synced trivial idle (.inl runtime.drained_empty)
    have kept : between.operationForTask taskId = none := by
      obtain ⟨candidate, key, accepted, rfl⟩ := took.accepted
      cases accepted
      exact free
    obtain ⟨middle, begun⟩ : ∃ middle, act (.admission (runtime.drained.nextAttempt taskId none pins))
        runtime.drained = (.ok (), middle) := ⟨_, Prod.ext acted rfl⟩
    rw [begun] at went took
    obtain ⟨_, _, _, _, same⟩ := act_admit_ok begun
    have held : middle.attemptForTask taskId none = some _ :=
      attemptForTask_push waiting (runtime.drained.belongsTo_nextAttempt taskId none pins)
        (by rw [same]; rfl) (by rw [same])
    rw [perform_of_again decided begun]
    have below := went.revision
    obtain ⟨next, later, completed⟩ := completeWaiting took.synced went.idle kept
      (by rw [same]; exact bare) (by rw [same]; exact ready) held (by omega) rfl
    have workflow : middle.workflow = runtime.workflow := took.workflow
    rw [workflow] at completed
    exact ⟨next, (went.trans later).of_drained, completed⟩

/-! ### One task after the other -/

section Finish

variable (idle : runtime.pendingStarted = none) (synced : Synced runtime state)
  (pinned : ∃ pins, captureCapabilityPins runtime.scope runtime.taskConfigs taskId none = .ok pins)
  (ready : taskId ∈ runtime.workflow.readyTasks)

include idle synced ready

/-- A task whose outcome is unknown is finished by a success. -/
theorem finishUnknown {operationId : OperationId}
    (owner : state.operationForTask taskId = some operationId)
    (unknown : state.effectState operationId = .outcomeUnknown) (room : state.revision + 1 < u64Max) :
    ∃ operations next, Went taskId 2 runtime (runtime.performAll operations) state next ∧
      runtime.workflow.complete taskId = .ok (runtime.performAll operations).workflow := by
  obtain ⟨first, between, moved⟩ := conclude synced idle owner unknown (Nat.lt_of_succ_lt room)
  have below := moved.went.revision
  obtain ⟨next, went, completed⟩ := completeKnown_went moved.went.synced moved.went.idle moved.owner
    moved.effect (by rw [moved.workflow]; exact ready) (by omega)
  rw [moved.workflow, ← performAll_append] at completed
  rw [← performAll_append] at went
  exact ⟨_, next, moved.went.trans went, completed⟩

include pinned

/-- A prepared task is finished by a dispatch and a success. -/
theorem finishPrepared {operationId : OperationId}
    (owner : state.operationForTask taskId = some operationId)
    (prepared : state.effectState operationId = .prepared) (live : taskId ∉ state.cancellations)
    (room : state.revision + 3 < u64Max) :
    ∃ operations next, Went taskId 4 runtime (runtime.performAll operations) state next ∧
      runtime.workflow.complete taskId = .ok (runtime.performAll operations).workflow := by
  obtain ⟨between, moved⟩ := send synced idle owner prepared live pinned (by omega)
  have below := moved.went.revision
  obtain ⟨rest, next, went, completed⟩ := finishUnknown moved.went.idle moved.went.synced
    (by rw [moved.workflow]; exact ready) moved.owner moved.effect (by omega)
  rw [moved.workflow, ← performAll_append] at completed
  rw [← performAll_append] at went
  exact ⟨_, next, moved.went.trans went, completed⟩

/-- **A ready task with an effect is finished** unless it is doomed. -/
theorem finishEffect {operationId : OperationId}
    (owner : state.operationForTask taskId = some operationId) (hopeful : ¬ state.Doomed taskId)
    (room : state.revision + 3 < u64Max) :
    ∃ operations next, Went taskId 4 runtime (runtime.performAll operations) state next ∧
      runtime.workflow.complete taskId = .ok (runtime.performAll operations).workflow := by
  rw [DurableRunState.doomed_of_some owner, not_or, not_and] at hopeful
  cases effect : state.effectState operationId with
  | notPrepared =>
    obtain ⟨intent, held, _⟩ := synced.coherent.owned.lineage.owned_intent owner
    exact absurd ((synced.effectState operationId).trans effect)
      (DurableJournal.state_ne_notPrepared (synced.intent_ok held))
  | prepared =>
    exact finishPrepared idle synced pinned ready owner effect
      (fun cancelled => hopeful.2 cancelled effect) room
  | outcomeUnknown =>
    obtain ⟨operations, next, went, completed⟩ :=
      finishUnknown idle synced ready owner effect (by omega)
    exact ⟨operations, next, went.mono (by decide), completed⟩
  | outcomeKnown outcome =>
    cases outcome with
    | succeeded =>
      obtain ⟨next, went, completed⟩ :=
        completeKnown_went synced idle owner effect ready (by omega)
      exact ⟨_, next, went.mono (by decide), completed⟩
    | failed => exact absurd effect hopeful.1

end Finish

omit [Postcard] in
/-- Some operation has no intent. -/
theorem exists_unknown_operation (intents : BTreeMap OperationId EffectIntent) :
    ∃ operationId, operationId ∉ intents := by
  have named : Function.Injective fun number => OperationId.mk (generatedAttemptId sampleRun number).id :=
    fun first second same => generatedAttemptId_injective sampleRun
      (AttemptId.id_injective (OperationId.mk.inj same))
  have : Infinite OperationId := Infinite.of_injective _ named
  obtain ⟨operationId, absent⟩ := Infinite.exists_notMem_finset intents.keys.toFinset
  exact ⟨operationId, fun member => absent (List.mem_toFinset.mpr (ExtTreeMap.mem_keys.mpr member))⟩

/-- **One of the unfinished tasks can be completed** when none of them is doomed. A task that the
scheduler comes to is completed by it; when it comes to none, the ready tasks are cancelled, and their
effects were dispatched. -/
theorem finish_next (synced : Synced runtime state) (invariant : runtime.workflow.Invariant)
    (idle : runtime.pendingStarted = none)
    (pinned : ∀ taskId ∈ runtime.workflow.incompleteTasks, ∃ pins,
      captureCapabilityPins runtime.scope runtime.taskConfigs taskId none = .ok pins)
    (hopeful : ∀ taskId ∈ runtime.workflow.incompleteTasks, ¬ state.Doomed taskId)
    (waits : runtime.workflow.incompleteTasks ≠ []) (room : state.revision + 4 < u64Max) :
    ∃ taskId operations next, Went taskId 5 runtime (runtime.performAll operations) state next ∧
      runtime.workflow.complete taskId = .ok (runtime.performAll operations).workflow := by
  have unfinished : ∀ taskId ∈ runtime.workflow.readyTasks,
      taskId ∈ runtime.workflow.incompleteTasks := by
    intro taskId ready
    obtain ⟨known, open_, _⟩ := WorkflowGraph.mem_readyTasks.mp ready
    exact WorkflowGraph.mem_incompleteTasks.mpr ⟨known, open_⟩
  cases chosen : runtime.nextReady with
  | some taskId =>
    have ready := List.mem_of_find?_eq_some chosen
    have inside := unfinished taskId ready
    have live : taskId ∉ state.cancellations := by
      rw [← synced.coherent.cancelled]
      exact nextReady_live chosen
    cases owner : state.operationForTask taskId with
    | some operationId =>
      obtain ⟨operations, next, went, completed⟩ := finishEffect idle synced
        (pinned taskId inside) ready owner (hopeful taskId inside) (by omega)
      exact ⟨taskId, operations, next, went.mono (by decide), completed⟩
    | none =>
      cases bare : (runtime.taskConfigs[taskId]?).bind TaskConfig.effect with
      | none =>
        obtain ⟨next, went, completed⟩ :=
          completePlain synced idle owner bare chosen (pinned taskId inside) (by omega)
        exact ⟨taskId, _, next, went.mono (by decide), completed⟩
      | some effect =>
        -- The configured operation may be another task's; then the task gets an operation of its own.
        obtain ⟨operationId, unknown⟩ : ∃ operationId, operationId ∉ state.intents := by
          by_cases taken : effect.operationId ∈ state.intents
          · exact exists_unknown_operation state.intents
          · exact ⟨effect.operationId, taken⟩
        obtain ⟨known, open_, _⟩ := WorkflowGraph.mem_readyTasks.mp ready
        obtain ⟨between, moved⟩ :=
          intend synced idle known open_ owner unknown effect.semantics (by omega)
        have below := moved.went.revision
        obtain ⟨rest, next, went, completed⟩ := finishPrepared moved.went.idle moved.went.synced
          (by rw [moved.went.scope, moved.went.taskConfigs]; exact pinned taskId inside)
          (by rw [moved.workflow]; exact ready) moved.owner moved.effect
          (by rw [moved.went.cancelled]; exact live) (by omega)
        rw [moved.workflow, ← performAll_append] at completed
        rw [← performAll_append] at went
        exact ⟨taskId, _, next, moved.went.trans went, completed⟩
  | none =>
    obtain ⟨taskId, ready⟩ :=
      List.exists_mem_of_ne_nil _ (WorkflowGraph.readyTasks_ne_nil invariant waits)
    have inside := unfinished taskId ready
    have cancelled : taskId ∈ state.cancellations := by
      have passed := List.find?_eq_none.mp chosen taskId ready
      rw [decide_eq_true_eq, not_not] at passed
      exact (synced.coherent.cancelled taskId).mp passed
    cases owner : state.operationForTask taskId with
    | none =>
      exact absurd ((DurableRunState.doomed_of_none owner).mpr cancelled) (hopeful taskId inside)
    | some operationId =>
      obtain ⟨operations, next, went, completed⟩ := finishEffect idle synced
        (pinned taskId inside) ready owner (hopeful taskId inside) (by omega)
      exact ⟨taskId, operations, next, went.mono (by decide), completed⟩

omit [Postcard] in
/-- What is unfinished after a completion was unfinished before, and is another task. -/
theorem unfinished_of_complete {workflow after : WorkflowGraph} {other : Id}
    (completed : workflow.complete taskId = .ok after) (open_ : other ∈ after.incompleteTasks) :
    other ∈ workflow.incompleteTasks ∧ other ≠ taskId := by
  obtain ⟨known, unfinished⟩ := WorkflowGraph.mem_incompleteTasks.mp open_
  have done : ¬ after.isCompleted other = true ↔
      ¬ (other = taskId ∨ workflow.isCompleted other = true) :=
    (WorkflowGraph.isCompleted_of_complete completed).not
  rw [unfinished, not_or] at done
  obtain ⟨differs, before⟩ := done.mp Bool.false_ne_true
  rw [WorkflowGraph.topology_of_complete completed] at known
  exact ⟨WorkflowGraph.mem_incompleteTasks.mpr ⟨known, Bool.eq_false_iff.mpr before⟩, differs⟩

/-- **All of the unfinished tasks can be completed** when none of them is doomed, one after the other. -/
theorem finish_all {history : History ν} (driven : Driven history runtime)
    (idle : runtime.pendingStarted = none)
    (pinned : ∀ taskId ∈ runtime.workflow.incompleteTasks, ∃ pins,
      captureCapabilityPins runtime.scope runtime.taskConfigs taskId none = .ok pins)
    (hopeful : ∀ taskId ∈ runtime.workflow.incompleteTasks, ¬ runtime.Doomed taskId)
    (room : runtime.storeRevision + 5 * runtime.workflow.incompleteTasks.length ≤ u64Max) :
    ∃ operations : List (Operation ν),
      (runtime.performAll operations).workflow.incompleteTasks = [] ∧
      (runtime.performAll operations).workflow.topology = runtime.workflow.topology := by
  induction left : runtime.workflow.incompleteTasks.length generalizing runtime history with
  | zero => exact ⟨[], List.length_eq_zero_iff.mp left, rfl⟩
  | succ count ih =>
    obtain ⟨state, synced, consistent⟩ := driven.consistent
    have revision := synced.coherent.revision
    obtain ⟨taskId, operations, next, went, completed⟩ := finish_next synced
      (WorkflowGraph.invariant_of_built consistent.follows.built) idle pinned
      (fun taskId inside doomed => hopeful taskId inside ((synced.doomed_iff taskId).mpr doomed))
      (List.ne_nil_of_length_eq_add_one left) (by omega)
    have fewer := WorkflowGraph.incompleteTasks_of_complete completed
    have ahead := went.synced.coherent.revision
    have below := went.revision
    obtain ⟨rest, finished, topology⟩ := ih (driven.performAll operations) went.idle
      (fun other open_ => by
        rw [went.scope, went.taskConfigs]
        exact pinned other (unfinished_of_complete completed open_).1)
      (fun other open_ doomed => by
        obtain ⟨before, differs⟩ := unfinished_of_complete completed open_
        refine hopeful other before ((synced.doomed_iff other).mpr ?_)
        exact (went.apart other differs).mp ((went.synced.doomed_iff other).mp doomed))
      (by omega) (by omega)
    refine ⟨operations ++ rest, ?_, ?_⟩
    · rw [performAll_append]
      exact finished
    · rw [performAll_append, topology, WorkflowGraph.topology_of_complete completed]

omit [Postcard] in
theorem Quiet.trans (quiet : Quiet runtime middle) (later : Quiet middle reached) :
    Quiet runtime reached where
  runId := later.runId.trans quiet.runId
  workflow := later.workflow.trans quiet.workflow
  journal := later.journal.trans quiet.journal
  store := later.store.trans quiet.store
  storeRevision := later.storeRevision.trans quiet.storeRevision
  identityProvenance := later.identityProvenance.trans quiet.identityProvenance
  taskConfigs := later.taskConfigs.trans quiet.taskConfigs
  cancelled := later.cancelled.trans quiet.cancelled
  nextAttemptNumber := later.nextAttemptNumber.trans quiet.nextAttemptNumber
  executionSequencer := later.executionSequencer.trans quiet.executionSequencer
  known := later.known.trans quiet.known

/-- **The owner of the capabilities sets the stage**: a scope is published, and an attempt that was parked
is started. -/
theorem exists_idle (runtime : Runtime InMemoryDurableStore ν) (scope : Scope ν) :
    ∃ operations : List (Operation ν), Quiet runtime (runtime.performAll operations) ∧
      (runtime.performAll operations).scope = scope ∧
      (runtime.performAll operations).pendingStarted = none := by
  have published : Quiet runtime ((Operation.changeScope scope).perform runtime).2 :=
    quiet_of_not_commits rfl runtime
  cases parked : runtime.pendingStarted with
  | none => exact ⟨[.changeScope scope], published, rfl, parked⟩
  | some pending =>
    obtain ⟨attempt, item⟩ := pending
    have emptied : Quiet { runtime with scope := scope }
        (Operation.drainExecutionEvents.perform { runtime with scope := scope }).2 :=
      quiet_of_not_commits rfl _
    have retried := quiet_retry item ({ runtime with scope := scope } : Runtime _ ν).drained
    obtain ⟨events, pushed⟩ := LosslessBuffer.tryPush_of_empty _
      ({ runtime with scope := scope } : Runtime _ ν).drained_empty item
    have result := retryExecutionEvent_eq item ({ runtime with scope := scope } : Runtime _ ν).drained
    have still : ({ runtime with scope := scope } : Runtime _ ν).drained.pendingStarted =
        some (attempt, item) := parked
    rw [still] at result
    simp only [pushed] at result
    have reached : runtime.performAll [.changeScope scope, .drainExecutionEvents,
        .retryExecutionEvent item] =
          (retryExecutionEvent item ({ runtime with scope := scope } : Runtime _ ν).drained).2 := rfl
    refine ⟨[.changeScope scope, .drainExecutionEvents, .retryExecutionEvent item], ?_, ?_, ?_⟩
    · rw [reached]
      exact (published.trans emptied).trans retried
    · rw [reached, result]
      rfl
    · rw [reached, result]

/-- Every later runtime has the tasks. -/
theorem Later.tasks {history : History ν} {later : Runtime InMemoryDurableStore ν}
    (driven : Driven history runtime) (after : Later runtime later)
    (known : taskId ∈ runtime.workflow.topology.tasks) : taskId ∈ later.workflow.topology.tasks := by
  obtain ⟨state, synced, consistent⟩ := driven.consistent
  obtain ⟨_, _, _, inside⟩ := after.invariant
    (fun runtime state => Consistent runtime state ∧ taskId ∈ runtime.workflow.topology.tasks)
    (fun allowed synced acted before =>
      ⟨acted.consistent allowed synced before.1, acted.tasks allowed synced before.2⟩)
    (fun quiet before => ⟨quiet.consistent before.1, by rw [quiet.workflow]; exact before.2⟩)
    (fun restored _ again before =>
      ⟨restored.consistent again before.1, (restored.tasks again before.1 _).mp before.2⟩)
    synced ⟨consistent, known⟩
  exact inside

/-- **A run can be finished exactly when none of its unfinished tasks is doomed.** Whatever was performed
so far, and however often the run was restored: while some scope provides what the unfinished tasks
require and five revisions are left for each of them, the operations of the runtime complete every task
over the same workflow, unless an unfinished task is doomed. A doomed task stays doomed and unfinished,
whatever comes later. -/
theorem finishable_iff (history : History ν) (runtime : Runtime InMemoryDurableStore ν)
    (driven : Driven history runtime) (scope : Scope ν)
    (pinned : ∀ taskId ∈ runtime.workflow.incompleteTasks, ∃ pins,
      captureCapabilityPins scope runtime.taskConfigs taskId none = .ok pins)
    (room : runtime.storeRevision + 5 * runtime.workflow.incompleteTasks.length ≤ u64Max) :
    ((∃ operations : List (Operation ν),
        (runtime.performAll operations).workflow.incompleteTasks = [] ∧
        (runtime.performAll operations).workflow.topology = runtime.workflow.topology) ↔
      ∀ taskId ∈ runtime.workflow.incompleteTasks, ¬ runtime.Doomed taskId) ∧
    ∀ taskId ∈ runtime.workflow.incompleteTasks, runtime.Doomed taskId →
      ∀ later, Later runtime later → taskId ∈ later.workflow.incompleteTasks ∧ later.Doomed taskId := by
  obtain ⟨state, synced⟩ := driven.synced
  have lasting : ∀ taskId ∈ runtime.workflow.incompleteTasks, runtime.Doomed taskId →
      ∀ later, Later runtime later →
        taskId ∈ later.workflow.incompleteTasks ∧ later.Doomed taskId := by
    intro taskId inside doomed later after
    obtain ⟨known, unfinished⟩ := WorkflowGraph.mem_incompleteTasks.mp inside
    have open_ : taskId ∉ state.completions := by
      rw [← synced.coherent.completed, unfinished]
      exact Bool.false_ne_true
    obtain ⟨next, again, still, waits⟩ :=
      after.doomed synced ((synced.doomed_iff taskId).mp doomed) open_
    refine ⟨WorkflowGraph.mem_incompleteTasks.mpr ⟨after.tasks driven known, ?_⟩,
      (again.doomed_iff taskId).mpr still⟩
    exact Bool.eq_false_iff.mpr fun done => waits ((again.coherent.completed taskId).mp done)
  refine ⟨⟨?_, fun hopeful => ?_⟩, lasting⟩
  · rintro ⟨operations, finished, _⟩ taskId inside doomed
    obtain ⟨waits, _⟩ := lasting taskId inside doomed _ (Later.here.performAll operations)
    rw [finished] at waits
    cases waits
  · obtain ⟨before, quiet, published, idle⟩ := exists_idle runtime scope
    obtain ⟨rest, finished, topology⟩ := finish_all (driven.performAll before) idle
      (by rw [quiet.workflow, quiet.taskConfigs, published]; exact pinned)
      (fun taskId inside doomed => hopeful taskId (quiet.workflow ▸ inside)
        ((synced.doomed_iff taskId).mpr (((quiet.synced synced).doomed_iff taskId).mp doomed)))
      (by rw [quiet.workflow, quiet.storeRevision]; exact room)
    refine ⟨before ++ rest, ?_, ?_⟩
    · rw [performAll_append]
      exact finished
    · rw [performAll_append, topology, quiet.workflow]

end Runtime

/-- The sample operation is dispatched twice, and its second dispatch fails. -/
def sampleFailed : List (Operation Unit) :=
  sampleRetried ++ [.command
    (.recordEffectOutcome sampleOperation (generatedAttemptId sampleRun 2) .failed)]

/-- While the outcome is unknown the sample run can be finished; after the failure it cannot. -/
theorem finishable_iff_sample :
    let _ := Persisted.postcard
    ∃ runtime, sampleStarted = .ok runtime ∧
      (∃ operations : List (Operation Unit),
        ((runtime.performAll sampleRetried).performAll operations).workflow.incompleteTasks = []) ∧
      ¬ ∃ operations : List (Operation Unit),
        ((runtime.performAll sampleFailed).performAll operations).workflow.incompleteTasks = [] ∧
        ((runtime.performAll sampleFailed).performAll operations).workflow.topology =
          (runtime.performAll sampleFailed).workflow.topology := by
  intro _
  obtain ⟨runtime, started, holds⟩ := exists_ok_of_any
    (show (sampleStarted.toOption.any fun runtime =>
      ((runtime.performAll sampleRetried).workflow.incompleteTasks = [sampleTask] ∧
        captureCapabilityPins (Scope.root : Scope Unit) (runtime.performAll sampleRetried).taskConfigs
          sampleTask none = .ok [] ∧
        (runtime.performAll sampleRetried).storeRevision + 5 ≤ u64Max ∧
        ¬ (runtime.performAll sampleRetried).Doomed sampleTask) ∧
      (runtime.performAll sampleFailed).workflow.incompleteTasks = [sampleTask] ∧
        captureCapabilityPins (Scope.root : Scope Unit) (runtime.performAll sampleFailed).taskConfigs
          sampleTask none = .ok [] ∧
        (runtime.performAll sampleFailed).storeRevision + 5 ≤ u64Max ∧
        (runtime.performAll sampleFailed).Doomed sampleTask) = true by decide +kernel)
  obtain ⟨⟨waits, pinned, room, hopeful⟩, left, captured, space, doomed⟩ := of_decide_eq_true holds
  have driven := sampleStarted_driven started
  have open_ := (Runtime.finishable_iff _ _ (driven.performAll sampleRetried) Scope.root
    (by rw [waits]; exact List.forall_mem_singleton.mpr ⟨[], pinned⟩) (by rw [waits]; exact room)).1
  have closed := (Runtime.finishable_iff _ _ (driven.performAll sampleFailed) Scope.root
    (by rw [left]; exact List.forall_mem_singleton.mpr ⟨[], captured⟩) (by rw [left]; exact space)).1
  rw [waits] at open_
  rw [left] at closed
  obtain ⟨operations, finished, _⟩ := open_.mpr (List.forall_mem_singleton.mpr hopeful)
  exact ⟨runtime, started, ⟨operations, finished⟩,
    fun finishes => List.forall_mem_singleton.mp (closed.mp finishes) doomed⟩

end Kernis
