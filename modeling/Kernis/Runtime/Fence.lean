/-
**A cancellation is a permanent fence.**

A cancelled task is refused by every operation that could start work for it, and skipped by the
scheduler. The fence is a durable fact, so a restore rebuilds it.

* `Fence taskId base state` — the task is cancelled, and since `base` no admission and no dispatch was
  added for it, while every fact of `base` is still there.
* `perform_fence` — every operation keeps it. `step_spares` — no step is about the task.
* `perform_unfinished` — only the recovery of a known success completes the task.
* `cancellation_fence` — all of it, in every run.
-/

import Kernis.Runtime.EffectStates
import Kernis.Runtime.Guarded

namespace Kernis

open Std Fallible

/-- The task that a step is about. -/
def StepResult.task : StepResult → Option Id
  | .completed taskId _ | .effectPending taskId _ _ | .blocked taskId _ _ => some taskId
  | .idle => none

/-- The steps that an operation reports. -/
def stepsOf : Except RuntimeError Reply → List StepResult
  | .ok (.stepped result) => [result]
  | .ok (.ran results) => results
  | _ => []

namespace DurableRunState

/-- **A fence around a task.** Since `base` nothing was added that starts work for the task, and nothing
was lost. -/
structure Fence (taskId : Id) (base state : DurableRunState) : Prop where
  cancelled : taskId ∈ state.cancellations
  admissions : ∃ added, state.admissionHistory = base.admissionHistory ++ added ∧
    ∀ admission ∈ added, admission.taskId ≠ taskId
  dispatches : ∃ added, state.dispatchHistory = base.dispatchHistory ++ added ∧
    ∀ dispatch ∈ added, ∀ intent, state.intents[dispatch.operationId]? = some intent →
      intent.taskId ≠ taskId
  outcomes : base.outcomeHistory <+: state.outcomeHistory

variable {taskId : Id} {base state next : DurableRunState}

/-- **A mutation that starts no work for the task keeps the fence.** -/
theorem Accepted.fence {mutation : DurableMutation} (lineage : state.Lineage)
    (accepted : Accepted state mutation next) (fence : Fence taskId base state)
    (elsewhere : ∀ admission, mutation = .admitAttempt admission → admission.taskId ≠ taskId) :
    Fence taskId base next := by
  have more := accepted.extends
  obtain ⟨cancellation, held⟩ := exists_lookup_of_mem fence.cancelled
  have cancelled := mem_of_lookup (more.cancellations held)
  obtain ⟨dispatched, sent, apart⟩ := fence.dispatches
  -- The intent of a dispatch that was there is still the same.
  have kept : ∀ dispatch ∈ dispatched, ∀ intent, next.intents[dispatch.operationId]? = some intent →
      intent.taskId ≠ taskId := by
    intro dispatch member intent found
    obtain ⟨_, _, _, _, prepared, _⟩ :=
      lineage.dispatched dispatch (sent ▸ List.mem_append_right _ member)
    rw [more.intents prepared] at found
    cases found
    exact apart dispatch member intent prepared
  cases accepted with
  | admission admission =>
    obtain ⟨added, same, others⟩ := fence.admissions
    refine ⟨cancelled, ⟨added ++ [admission], ?_, forall_mem_push others (elsewhere _ rfl)⟩,
      fence.dispatches, fence.outcomes⟩
    show state.admissionHistory ++ [admission] = _
    rw [same, List.append_assoc]
  | dispatch dispatch intent admission prepared admitted own owner live =>
    refine ⟨cancelled, fence.admissions, ⟨dispatched ++ [dispatch], ?_, ?_⟩, fence.outcomes⟩
    · show state.dispatchHistory ++ [dispatch] = _
      rw [sent, List.append_assoc]
    · refine forall_mem_push kept fun other found same => ?_
      have found : state.intents[dispatch.operationId]? = some other := found
      rw [prepared] at found
      cases found
      -- A dispatch for a cancelled task is refused.
      exact live (owner.symm.trans same ▸ fence.cancelled)
  | outcome fact =>
    exact ⟨cancelled, fence.admissions, fence.dispatches,
      fence.outcomes.trans (List.prefix_append _ _)⟩
  | _ => exact ⟨cancelled, fence.admissions, ⟨dispatched, sent, kept⟩, fence.outcomes⟩

end DurableRunState

namespace Runtime

variable {σ ν : Type} [Postcard] [FaithfulStore σ]

open DurableRunState (Fence)

/-! ### What cannot be started -/

omit [Postcard] [FaithfulStore σ] in
theorem nextReady_live {runtime : Runtime σ ν} {taskId : Id}
    (ready : runtime.nextReady = some taskId) : taskId ∉ runtime.cancelled := by
  have live := List.find?_some ready
  simpa only [decide_eq_true_eq] using live

omit [Postcard] [FaithfulStore σ] in
/-- **No command admits an attempt for a cancelled task.** -/
theorem admits_live {runtime : Runtime σ ν} {command : Command} {attempt : TaskAttempt}
    {after : After} (chosen : Chooses runtime command (.admission attempt) after) :
    attempt.taskId ∉ runtime.cancelled := by
  cases chosen with
  | begin _ live => exact live
  | retry _ live => exact live
  | stepBegin _ ready => exact nextReady_live ready
  | stepAdmit _ ready => exact nextReady_live ready

section Acted

variable {runtime reached : Runtime σ ν} {state next base : DurableRunState} {action : Action}
  {result : Except RuntimeError Unit} {taskId : Id}

/-- **An action that starts no work for the task keeps the fence.** -/
theorem Acted.fence (acted : Acted runtime state action result reached next)
    (synced : Synced runtime state) (fence : Fence taskId base state)
    (elsewhere : ∀ attempt, action = .admission attempt → attempt.taskId ≠ taskId) :
    Fence taskId base next := by
  cases acted with
  | refused => exact fence
  | replayed => exact fence
  | fresh room own newKey accepted =>
    have kept := accepted.fence synced.coherent.owned.lineage fence fun admission same => by
      cases action with
      | admission attempt =>
        cases same
        exact elsewhere attempt rfl
      | _ => cases same
    exact ⟨kept.cancelled, kept.admissions, kept.dispatches, kept.outcomes⟩

/-- An action does not finish a task, unless it completes it. -/
theorem Acted.unfinished (acted : Acted runtime state action result reached next)
    (elsewhere : ∀ fact workflow, action = .complete fact workflow → fact.taskId ≠ taskId)
    (unfinished : taskId ∉ state.completions) : taskId ∉ next.completions := by
  cases acted with
  | refused => exact unfinished
  | replayed => exact unfinished
  | @fresh store candidate key room own newKey accepted =>
    show taskId ∉ candidate.completions
    cases action with
    | complete fact workflow =>
      cases accepted with
      | completionKnown => exact unfinished
      | completion =>
        intro finished
        rcases (mem_insert_iff _ _ _ _).mp finished with same | before
        · exact elsewhere fact workflow rfl same.symm
        · exact unfinished before
    | _ => cases accepted <;> exact unfinished

theorem Acted.cancelled (acted : Acted runtime state action result reached next)
    (cancelled : taskId ∈ state.cancellations) : taskId ∈ next.cancellations := by
  obtain ⟨cancellation, held⟩ := exists_lookup_of_mem cancelled
  cases acted with
  | refused => exact cancelled
  | replayed => exact cancelled
  | fresh room own newKey accepted => exact mem_of_lookup (accepted.extends.cancellations held)

end Acted

/-! ### Operations -/

/-- **Every operation keeps the fence.** -/
theorem perform_fence {taskId : Id} {base state : DurableRunState} (operation : Operation ν)
    {runtime : Runtime σ ν} (synced : Synced runtime state) (fence : Fence taskId base state) :
    ∃ next, Synced (operation.perform runtime).2 next ∧ Fence taskId base next := by
  refine perform_guarded (fun _ state => Fence taskId base state) (fun _ _ => True) ?_ ?_
    (fun _ _ => trivial) (fun _ => trivial) (fun _ _ before => before) (fun _ _ => trivial) synced
    fence
  · intro runtime reached state next command action after result _ chosen synced acted before
    refine acted.fence synced before fun attempt same own => ?_
    subst same
    exact admits_live chosen ((synced.coherent.cancelled _).mpr (own ▸ before.cancelled))
  · intro runtime reached state next fact journal result allowed synced acted before
    exact acted.fence synced before fun _ same => by cases same

/-- Whether a command recovers a known success of a task. -/
def RecoversSuccess (taskId : Id) (runtime : Runtime σ ν) (command : Command) : Prop :=
  ∃ operationId intent, command = .recover operationId ∧
    runtime.journal.intent operationId = .ok intent ∧ intent.taskId = taskId ∧
    runtime.journal.state operationId = .outcomeKnown .succeeded

/-- **Only the recovery of a known success completes a cancelled task.** -/
theorem perform_unfinished {taskId : Id} {state : DurableRunState} {operation : Operation ν}
    {runtime : Runtime σ ν} (synced : Synced runtime state)
    (cancelled : taskId ∈ state.cancellations) (unfinished : taskId ∉ state.completions)
    (other : ∀ command, operation = .command command → ¬ RecoversSuccess taskId runtime command) :
    ∃ next, Synced (operation.perform runtime).2 next ∧ taskId ∉ next.completions := by
  have run := perform_guarded
    (fun _ state => taskId ∈ state.cancellations ∧ taskId ∉ state.completions)
    (fun runtime command => ¬ RecoversSuccess taskId runtime command) ?_ ?_ ?_ ?_
    (fun _ _ before => before) other synced ⟨cancelled, unfinished⟩
  · obtain ⟨next, after, _, open_⟩ := run
    exact ⟨next, after, open_⟩
  · rintro runtime reached state next command action after result good chosen synced acted
      ⟨cancelled, unfinished⟩
    refine ⟨acted.cancelled cancelled, acted.unfinished (fun fact workflow same own => ?_) unfinished⟩
    subst same
    have fenced := (synced.coherent.cancelled taskId).mpr cancelled
    cases chosen with
    | recover found known succeeded => exact good ⟨_, _, rfl, found, own, succeeded⟩
    | stepComplete _ ready =>
      cases own
      exact nextReady_live ready fenced
    | stepKnown _ ready =>
      cases own
      exact nextReady_live ready fenced
  · rintro runtime reached state next fact journal result allowed synced acted ⟨cancelled, unfinished⟩
    exact ⟨acted.cancelled cancelled,
      acted.unfinished (fun _ _ same => by cases same) unfinished⟩
  · rintro runtime middle command action chosen acted ⟨operationId, intent, rfl, _⟩
    cases chosen
  · rintro runtime ⟨operationId, intent, same, _⟩
    cases same

/-! ### Steps -/

omit [Postcard] [FaithfulStore σ] in
/-- The step of a task that commits nothing is about that task. -/
theorem decideTask_halts {runtime : Runtime σ ν} {result : StepResult} {taskId : Id}
    (decided : runtime.decideTask taskId = .halt (.ok (.stepped result))) :
    result.task = some taskId := by
  have admits {operationId : Option OperationId} {after : AttemptId → After} :
      runtime.decideAdmit taskId operationId after ≠ .halt (.ok (.stepped result)) := by
    unfold decideAdmit
    split <;> nofun
  have completes {attemptId : AttemptId} {reply : Reply} :
      runtime.decideComplete taskId attemptId reply ≠ .halt (.ok (.stepped result)) := by
    unfold decideComplete
    split <;> nofun
  have prepares {intent : EffectIntent} {after : After} :
      runtime.decideIntent intent after ≠ .halt (.ok (.stepped result)) := by
    unfold decideIntent
    repeat' split
    all_goals nofun
  unfold decideTask at decided
  split at decided
  · split at decided
    · cases decided
    · unfold decideEffect at decided
      repeat' split at decided
      all_goals first
        | exact absurd decided admits
        | exact absurd decided completes
        | cases decided
      all_goals rfl
  · split at decided
    · unfold decidePlain at decided
      split at decided
      · exact absurd decided completes
      · exact absurd decided admits
    · exact absurd decided prepares

/-- **No step is about a cancelled task.** -/
theorem step_spares {runtime : Runtime σ ν} {state : DurableRunState} {taskId : Id}
    (synced : Synced runtime state) (cancelled : taskId ∈ state.cancellations) {result : StepResult}
    (answered : (Command.step.perform runtime).1 = .ok (.stepped result)) :
    result.task ≠ some taskId := by
  have derivation := perform_performs .step runtime
  rw [answered] at derivation
  generalize (Command.step.perform runtime).2 = reached at derivation
  clear answered
  generalize outcome : (Except.ok (Reply.stepped result) : Except RuntimeError Reply) = answer
    at derivation
  -- A step may start over after an intent or an admission; the fence stands all along.
  induction derivation generalizing state with
  | halt decided =>
    subst outcome
    intro about
    change decideStep _ = _ at decided
    unfold decideStep at decided
    split at decided
    · cases decided
    · split at decided
      · cases decided
        cases about
      · rename_i ready
        have next := decideTask_halts decided
        rw [about] at next
        cases next
        exact nextReady_live ready ((synced.coherent.cancelled taskId).mpr cancelled)
  | failed => cases outcome
  | replied chosen =>
    intro about
    cases outcome
    have fenced := (synced.coherent.cancelled taskId).mpr cancelled
    cases chosen with
    | stepComplete _ ready =>
      cases about
      exact nextReady_live ready fenced
    | stepAdmit _ ready =>
      cases about
      exact nextReady_live ready fenced
    | stepKnown _ ready =>
      cases about
      exact nextReady_live ready fenced
  | again chosen acted _ ih =>
    obtain ⟨next, after, went⟩ := act_synced synced (allowed_of_chooses chosen) acted
    exact ih after (went.cancelled cancelled) outcome
  | undispatched => cases outcome
  | misdispatched => cases outcome
  | dispatched => cases outcome

/-- **No round of the scheduler loop is about a cancelled task.** -/
theorem runSteps_spares {taskId : Id} (fuel : Nat) (results : List StepResult)
    {runtime : Runtime σ ν} {state : DurableRunState} (synced : Synced runtime state)
    (cancelled : taskId ∈ state.cancellations)
    (before : ∀ result ∈ results, result.task ≠ some taskId) {answer : List StepResult}
    (answered : (runSteps fuel results runtime).1 = .ok answer) :
    ∀ result ∈ answer, result.task ≠ some taskId := by
  induction fuel generalizing results runtime state with
  | zero =>
    cases answered
    exact before
  | succ fuel ih =>
    have stepped : (Command.step.perform runtime) = step.map .stepped runtime := rfl
    obtain ⟨next, after, kept⟩ := perform_command_synced
      (fun _ state => taskId ∈ state.cancellations)
      (fun _ _ acted cancelled => acted.cancelled cancelled) .step synced cancelled
    rw [runSteps, run_bind] at answered
    rw [stepped, run_map] at after
    have spares := @step_spares _ _ _ _ _ _ _ synced cancelled
    rw [stepped, run_map] at spares
    cases ran : step runtime with
    | mk outcome reached =>
      rw [ran] at answered after spares
      cases outcome with
      | error error => cases answered
      | ok result =>
        have front : ∀ other ∈ results ++ [result], other.task ≠ some taskId :=
          DurableRunState.forall_mem_push before (spares rfl)
        simp only at answered
        split at answered
        · exact ih _ after kept front answered
        · cases answered
          exact front

/-- **No operation reports a step of a cancelled task.** -/
theorem perform_spares {operation : Operation ν} {runtime : Runtime σ ν} {state : DurableRunState}
    {taskId : Id} (synced : Synced runtime state) (cancelled : taskId ∈ state.cancellations) :
    ∀ result ∈ stepsOf (operation.perform runtime).1, result.task ≠ some taskId := by
  intro result member
  -- Only a step and the scheduler loop report steps.
  have silent {α : Type} {first : Op σ ν α} {make : α → Reply}
      (plain : ∀ value, stepsOf (.ok (make value)) = [])
      (member : result ∈ stepsOf (first.map make runtime).1) : False := by
    rw [run_map] at member
    cases outcome : (first runtime).1 with
    | error error =>
      rw [outcome] at member
      cases member
    | ok value =>
      rw [outcome] at member
      have member : result ∈ stepsOf (.ok (make value)) := member
      rw [plain] at member
      cases member
  cases operation with
  | command command =>
    cases command with
    | step =>
      have answered : result ∈ stepsOf (step.map Reply.stepped runtime).1 := member
      rw [run_map] at answered
      cases outcome : (step runtime).1 with
      | error error =>
        rw [outcome] at answered
        cases answered
      | ok other =>
        rw [outcome] at answered
        cases List.mem_singleton.mp answered
        refine step_spares synced cancelled ?_
        show (step.map Reply.stepped runtime).1 = _
        rw [run_map, outcome]
        rfl
    | _ => exact (silent (fun _ => rfl) member).elim
  | runUntilBlocked =>
    have answered : result ∈ stepsOf (runUntilBlocked.map Reply.ran runtime).1 := member
    rw [run_map] at answered
    cases outcome : (runUntilBlocked runtime).1 with
    | error error =>
      rw [outcome] at answered
      cases answered
    | ok results =>
      rw [outcome] at answered
      rw [runUntilBlocked, run_bind, run_get] at outcome
      exact runSteps_spares _ [] synced cancelled (List.forall_mem_nil _) outcome result answered
  | _ => exact (silent (fun _ => rfl) member).elim

/-! ### The fence -/

/-- A cancellation that succeeds puts up the fence. -/
theorem cancelTask_fence {taskId : Id} {runtime : Runtime σ ν} {state : DurableRunState}
    (synced : Synced runtime state) {reply : Reply}
    (answered : ((Command.cancelTask taskId).perform runtime).1 = .ok reply) :
    ∃ next, Synced ((Command.cancelTask taskId).perform runtime).2 next ∧
      Fence taskId state next := by
  have derivation := perform_performs (.cancelTask taskId) runtime
  rw [answered] at derivation
  generalize ((Command.cancelTask taskId).perform runtime).2 = reached at derivation ⊢
  cases derivation with
  | halt decided =>
    simp only [Command.decide, decideCancel] at decided
    split at decided <;> cases decided
  | replied chosen acted =>
    have allowed := allowed_of_chooses chosen
    obtain ⟨next, after, went⟩ := act_synced synced allowed acted
    refine ⟨next, after, ?_⟩
    cases chosen
    generalize outcome : (Except.ok () : Except RuntimeError Unit) = result at went
    cases went with
    | refused => cases outcome
    | replayed repeated =>
      cases repeated with
      | cancel _ recorded =>
        exact ⟨recorded, ⟨[], (List.append_nil _).symm, List.forall_mem_nil _⟩, ⟨[], (List.append_nil _).symm, List.forall_mem_nil _⟩,
          List.prefix_rfl⟩
    | fresh room own newKey accepted =>
      cases accepted with
      | cancellationKnown _ _ known =>
        exact ⟨mem_of_lookup known, ⟨[], (List.append_nil _).symm, List.forall_mem_nil _⟩,
          ⟨[], (List.append_nil _).symm, List.forall_mem_nil _⟩, List.prefix_rfl⟩
      | cancellation =>
        exact ⟨(mem_insert_iff _ _ _ _).mpr (.inl rfl), ⟨[], (List.append_nil _).symm, List.forall_mem_nil _⟩,
          ⟨[], (List.append_nil _).symm, List.forall_mem_nil _⟩, List.prefix_rfl⟩
  | again chosen => cases chosen
  | dispatched chosen => cases chosen

/-- The fence stands later. -/
theorem Later.fence {taskId : Id} {base state : DurableRunState} {first runtime : Runtime σ ν}
    (later : Later first runtime) (synced : Synced first state) (fence : Fence taskId base state) :
    ∃ next, Synced runtime next ∧ Fence taskId base next := by
  induction later with
  | here => exact ⟨state, synced, fence⟩
  | performed _ operation ih =>
    obtain ⟨state, synced, fence⟩ := ih
    exact perform_fence operation synced fence
  | restored _ same restored ih =>
    obtain ⟨state, synced, fence⟩ := ih
    exact ⟨state, restored.synced same synced, fence⟩

/-- **A cancellation is a permanent fence.** Whenever a task was cancelled in a run, then in every state
that comes later, after any operations, failures, crashes and restores: since the cancellation no
admission and no dispatch was added for the task, and every admission, dispatch and outcome of before is
still there; no operation reports a step about the task; and an operation that completes it is the
recovery of its operation, whose success is known. -/
theorem cancellation_fence (history : History ν) (runtime later : Runtime σ ν)
    (driven : Driven history runtime) (taskId : Id) (reply : Reply)
    (cancelled : ((Command.cancelTask taskId).perform runtime).1 = .ok reply)
    (after : Later ((Command.cancelTask taskId).perform runtime).2 later) :
    ∃ base state, DurableStore.loadRun runtime.runId runtime.store = .ok base ∧
      DurableStore.loadRun later.runId later.store = .ok state ∧ Fence taskId base state ∧
      ∀ operation : Operation ν,
        (∀ result ∈ stepsOf (operation.perform later).1, result.task ≠ some taskId) ∧
        (later.workflow.isCompleted taskId = false →
          (operation.perform later).2.workflow.isCompleted taskId = true →
          ∃ command, operation = .command command ∧ RecoversSuccess taskId later command) := by
  obtain ⟨base, begun⟩ := driven.synced
  obtain ⟨fenced, synced, up⟩ := cancelTask_fence begun cancelled
  obtain ⟨state, reached, fence⟩ := after.fence synced up
  refine ⟨base, state, begun.loaded, reached.loaded, fence, fun operation =>
    ⟨perform_spares reached fence.cancelled, fun unfinished finished => ?_⟩⟩
  by_contra none
  have open_ : taskId ∉ state.completions := by
    rw [← reached.coherent.completed, unfinished]
    exact Bool.false_ne_true
  obtain ⟨next, synced, still⟩ := perform_unfinished reached fence.cancelled open_
    fun command same recovers => none ⟨command, same, recovers⟩
  exact still ((synced.coherent.completed taskId).mp finished)

end Runtime

/-- An attempt of the sample operation is admitted and not dispatched; then its task is cancelled. -/
def sampleAdmitted : List (Operation Unit) :=
  [.command (.recordEffectIntent sampleTask sampleOperation .idempotent), .command .step]

/-- After the cancellation the scheduler has nothing to do, and the attempt is never dispatched. -/
theorem cancellation_fence_sample :
    let _ := Persisted.postcard
    ∃ runtime, sampleStarted = .ok runtime ∧
      let fenced := ((Command.cancelTask sampleTask).perform (runtime.performAll sampleAdmitted)).2
      let later := fenced.performAll [.command .step, .command (.dispatchEffect sampleOperation)]
      ∃ state, InMemoryDurableStore.loadRun later.runId later.store = .ok state ∧
        sampleTask ∈ state.cancellations ∧
        ∀ result ∈ stepsOf (Command.step.perform later).1, result.task ≠ some sampleTask := by
  intro _
  obtain ⟨runtime, started, holds⟩ := exists_ok_of_any
    (show (sampleStarted.toOption.any fun runtime =>
      ((Command.cancelTask sampleTask).perform (runtime.performAll sampleAdmitted)).1 =
        .ok (.cancelled (.notDispatched sampleTask))) = true by decide +kernel)
  have driven := (sampleStarted_driven started).performAll sampleAdmitted
  obtain ⟨_, state, _, loaded, fence, spares⟩ := Runtime.cancellation_fence _ _ _ driven sampleTask _
    (of_decide_eq_true holds) ((Runtime.Later.here).performAll
      [.command .step, .command (.dispatchEffect sampleOperation)])
  exact ⟨runtime, started, state, loaded, fence.cancelled, (spares (.command .step)).1⟩

end Kernis
