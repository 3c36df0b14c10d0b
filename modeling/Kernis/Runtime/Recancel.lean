/-
**Cancelling a task again.**

The key of a cancellation names the task only, and its record names the operation of the task and the
newest attempt that the runtime holds of it. The store answers a repeated key for an equal record, and
refuses it for another one.

* `Owned.recorded` — a cancellation is remembered under the key of its task.
* `cancelTask_again` — what a cancellation of a cancelled task comes to; it never changes the store.
* `cancelTask_recorded` — a cancellation that succeeds leaves the record of its moment. `Later.recorded` —
  the record stays.
* `SameLineage` — the operation of a task, and its newest attempt, are the same in two runtimes.
* `cancellation_repeats_iff` — a later cancellation succeeds exactly if they are still the same.
-/

import Kernis.Runtime.Fence

namespace Kernis

open Std Fallible

theorem IdempotencyKey.ext_text {first second : IdempotencyKey}
    (same : first.text.val = second.text.val) : first = second := by
  obtain ⟨first⟩ := first
  obtain ⟨second⟩ := second
  exact congrArg IdempotencyKey.mk (Subtype.ext same)

namespace DurableRunState

variable [Postcard] {state : DurableRunState}

/-- **A cancellation is remembered under the key of its task**, with the record that is kept. -/
theorem Owned.recorded (owned : state.Owned) {taskId : Id} {record : CancellationRecord}
    (cancelled : state.cancellations[taskId]? = some record) {key : IdempotencyKey}
    (named : key.text.val = FactKind.cancellation.label ++ taskId.asStr) :
    ∃ revision, state.idempotency[key]? = some ([.recordCancellation record], revision) := by
  obtain ⟨other, member, same⟩ := owned.cancelled taskId (mem_of_lookup cancelled)
  obtain rfl : other = key := IdempotencyKey.ext_text (same.trans named.symm)
  obtain ⟨⟨mutations, revision⟩, found⟩ := exists_lookup_of_mem member
  have own : other.text.val =
      mutationKey state.revision (.recordCancellation ⟨state.runId, taskId, none, none⟩) := named
  obtain ⟨stored, rfl, fact, kind, _, _, subject⟩ := owned.replayed own found
  cases stored with
  | recordCancellation held =>
    cases Id.asStr_injective subject
    rw [show state.cancellations[held.taskId]? = some held from fact] at cancelled
    cases cancelled
    exact ⟨revision, found⟩
  | _ => cases kind

/-- **A cancellation of a cancelled task** is answered for the record that is kept, and refused for
another one. -/
theorem Owned.commit_again (owned : state.Owned) {taskId : Id} {record : CancellationRecord}
    (cancelled : state.cancellations[taskId]? = some record) {request : CommitRequest}
    (named : request.idempotencyKey.text.val = FactKind.cancellation.label ++ taskId.asStr)
    {again : CancellationRecord} (cancels : request.mutations = [.recordCancellation again]) :
    (again = record → state.commit request = .ok (⟨state.revision, true⟩, state)) ∧
      (again ≠ record → state.commit request = .error (.idempotencyConflict request.idempotencyKey)) := by
  obtain ⟨revision, remembered⟩ := owned.recorded cancelled named
  unfold DurableRunState.commit
  rw [remembered, cancels]
  refine ⟨fun same => ?_, fun other => ?_⟩
  · rw [same]
    exact if_pos rfl
  · refine if_neg fun same => other ?_
    cases same
    rfl

end DurableRunState

namespace Runtime

variable {σ ν : Type} [Postcard] [FaithfulStore σ]

/-- The key of a cancellation. -/
def cancelKey (taskId : Id) : IdempotencyKey :=
  ⟨⟨"cancel:".toList ++ taskId.asStr, blank_append_of_left (by decide) _⟩⟩

/-- The store's backend failed, which says nothing about the request. -/
def BackendFailed (result : Except RuntimeError Reply) : Prop :=
  ∃ error, result = .error (.store error) ∧ error.kind ≠ .domain

/-- **A cancellation of a cancelled task** changes nothing durable. It succeeds for the record that is
kept, and is refused for another one. -/
theorem cancelTask_again {runtime : Runtime σ ν} {state : DurableRunState} {taskId : Id}
    {record : CancellationRecord} (synced : Synced runtime state)
    (known : taskId ∈ runtime.workflow.topology.tasks)
    (cancelled : state.cancellations[taskId]? = some record) :
    FaithfulStore.content ((Command.cancelTask taskId).perform runtime).2.store =
        FaithfulStore.content runtime.store ∧
      (BackendFailed ((Command.cancelTask taskId).perform runtime).1 ∨
        if runtime.cancellationOf taskId = record then
          ((Command.cancelTask taskId).perform runtime).1 =
            .ok (.cancelled (runtime.cancellationReply taskId))
        else
          ((Command.cancelTask taskId).perform runtime).1 =
            .error (.store (.idempotencyConflict (cancelKey taskId)))) := by
  have present : (runtime.workflow.task taskId).isNone = false := by
    rw [← Option.not_isSome, Bool.not_eq_false']
    exact ExtTreeMap.mem_iff_isSome_getElem?.mp known
  have stored : (FaithfulStore.content runtime.store).runs[runtime.runId]? = some state :=
    synced.backed
  obtain ⟨revision, remembered⟩ :=
    synced.coherent.owned.recorded cancelled (show (cancelKey taskId).text.val = _ from rfl)
  have changed : (Command.cancelTask taskId).perform runtime =
      (act (.cancel (runtime.cancellationOf taskId))).map
        (fun _ => .cancelled (runtime.cancellationReply taskId)) runtime := by
    show (cancelTask taskId).map Reply.cancelled runtime = _
    rw [run_map, cancelTask_eq, present, if_neg Bool.false_ne_true, run_map, run_map]
    cases (act (.cancel (runtime.cancellationOf taskId)) runtime).1 <;> rfl
  rw [changed, run_map, act_eq]
  rcases answer : DurableStore.commit ((Action.cancel (runtime.cancellationOf taskId)).request runtime)
    runtime.store with ⟨result, store⟩
  have faithful := FaithfulStore.commits
    ((Action.cancel (runtime.cancellationOf taskId)).request runtime) runtime.store
  rw [answer] at faithful
  rcases faithful with ⟨answered, kept⟩ | ⟨⟨error, failed, backend⟩, same⟩
  · have found : (FaithfulStore.content runtime.store).runs[
        ((Action.cancel (runtime.cancellationOf taskId)).request runtime).runId]? = some state := stored
    have nonempty : ((Action.cancel (runtime.cancellationOf taskId)).request runtime).mutations ≠ [] :=
      List.cons_ne_nil _ _
    obtain ⟨repeated, refused⟩ := synced.coherent.owned.commit_again cancelled
      (show ((Action.cancel (runtime.cancellationOf taskId)).request
        runtime).idempotencyKey.text.val = _ from rfl) rfl
    unfold InMemoryDurableStore.commit at answered kept
    rw [if_neg nonempty, found] at answered kept
    by_cases equal : runtime.cancellationOf taskId = record
    · simp only [repeated equal, if_true] at answered kept
      cases answered
      rw [if_pos equal]
      exact ⟨kept, .inr rfl⟩
    · simp only [refused equal] at answered kept
      cases answered
      rw [if_neg equal]
      exact ⟨kept, .inr rfl⟩
  · cases failed
    exact ⟨same, .inl ⟨error, rfl, backend⟩⟩

/-! ### Later in a run -/

/-- The operation of a task, and the newest attempt held of it, are the same. -/
def SameLineage (taskId : Id) (runtime later : Runtime σ ν) : Prop :=
  later.journal.operationForTask taskId = runtime.journal.operationForTask taskId ∧
    ∀ operationId, runtime.journal.operationForTask taskId = some operationId →
      later.attemptForTask taskId (some operationId) =
        runtime.attemptForTask taskId (some operationId)

omit [Postcard] [FaithfulStore σ] in
theorem cancellationOf_eq_iff {runtime later : Runtime σ ν} {taskId : Id}
    (own : later.runId = runtime.runId) :
    later.cancellationOf taskId = runtime.cancellationOf taskId ↔ SameLineage taskId runtime later := by
  unfold cancellationOf SameLineage
  rw [own, CancellationRecord.mk.injEq]
  constructor
  · rintro ⟨_, _, operation, attempt⟩
    refine ⟨operation, fun operationId held => ?_⟩
    rw [operation, held] at attempt
    exact attempt
  · rintro ⟨operation, attempt⟩
    refine ⟨rfl, rfl, operation, ?_⟩
    rw [operation]
    cases held : runtime.journal.operationForTask taskId with
    | none => rfl
    | some operationId => exact attempt operationId held

/-- A task that was cancelled: it is in the workflow, and its record is kept. -/
structure Recorded (taskId : Id) (record : CancellationRecord) (runtime : Runtime σ ν)
    (state : DurableRunState) : Prop where
  consistent : Consistent runtime state
  known : taskId ∈ runtime.workflow.topology.tasks
  own : record.runId = state.runId
  kept : state.cancellations[taskId]? = some record

/-- An action keeps the run and the records of its cancellations. -/
theorem Acted.retains {runtime reached : Runtime σ ν} {state next : DurableRunState} {action : Action}
    {result : Except RuntimeError Unit} (acted : Acted runtime state action result reached next) :
    next.runId = state.runId ∧ Grows state.cancellations next.cancellations := by
  cases acted with
  | refused => exact ⟨rfl, .refl _⟩
  | replayed => exact ⟨rfl, .refl _⟩
  | fresh room own newKey accepted => exact ⟨accepted.extends.runId, accepted.extends.cancellations⟩

/-- **The record stays**, whatever is done later. -/
theorem Later.recorded {taskId : Id} {record : CancellationRecord} {first runtime : Runtime σ ν}
    {state : DurableRunState} (later : Later first runtime) (synced : Synced first state)
    (recorded : Recorded taskId record first state) :
    ∃ next, Synced runtime next ∧ Recorded taskId record runtime next := by
  refine later.invariant (Recorded taskId record) ?_ ?_ ?_ synced recorded
  · intro runtime reached state next action result allowed synced acted before
    obtain ⟨run, grows⟩ := acted.retains
    exact ⟨acted.consistent allowed synced before.consistent,
      acted.tasks allowed synced before.known, before.own.trans run.symm, grows before.kept⟩
  · intro runtime reached state quiet before
    refine ⟨quiet.consistent before.consistent, ?_, before.own, before.kept⟩
    rw [quiet.workflow]
    exact before.known
  · intro runtime next state store restored _ again before
    exact ⟨restored.consistent again before.consistent,
      (restored.tasks again before.consistent taskId).mp before.known, before.own, before.kept⟩

/-- A cancellation that succeeds is about a task of the workflow. -/
theorem cancelTask_known {runtime : Runtime σ ν} {taskId : Id} {reply : Reply}
    (answered : ((Command.cancelTask taskId).perform runtime).1 = .ok reply) :
    taskId ∈ runtime.workflow.topology.tasks := by
  have answered : ((cancelTask taskId).map Reply.cancelled runtime).1 = .ok reply := answered
  rw [run_map, cancelTask_eq] at answered
  by_cases unknown : (runtime.workflow.task taskId).isNone
  · rw [if_pos unknown] at answered
    cases answered
  · exact ExtTreeMap.mem_iff_isSome_getElem?.mpr (Option.isSome_iff_ne_none.mpr fun none =>
      unknown (Option.isNone_iff_eq_none.mpr none))

/-- **A cancellation that succeeds leaves the record of this moment**: a new one, or the equal one that
is there. -/
theorem cancelTask_recorded {runtime : Runtime σ ν} {state : DurableRunState} {taskId : Id}
    {reply : Reply} (synced : Synced runtime state) (consistent : Consistent runtime state)
    (answered : ((Command.cancelTask taskId).perform runtime).1 = .ok reply) :
    ∃ next, Synced ((Command.cancelTask taskId).perform runtime).2 next ∧
      Recorded taskId (runtime.cancellationOf taskId) ((Command.cancelTask taskId).perform runtime).2
        next := by
  have known := cancelTask_known answered
  -- A record that was there already is the record of this moment.
  have before {record : CancellationRecord} (kept : state.cancellations[taskId]? = some record) :
      runtime.cancellationOf taskId = record := by
    by_contra other
    rcases (cancelTask_again synced known kept).2 with ⟨error, failed, _⟩ | refused
    · rw [answered] at failed
      cases failed
    · rw [if_neg other, answered] at refused
      cases refused
  have derivation := perform_performs (.cancelTask taskId) runtime
  rw [answered] at derivation
  generalize ((Command.cancelTask taskId).perform runtime).2 = reached at derivation ⊢
  cases derivation with
  | halt decided =>
    simp only [Command.decide, decideCancel] at decided
    split at decided <;> cases decided
  | replied chosen acted =>
    have allowed := allowed_of_chooses chosen
    obtain ⟨next, after, went⟩ := act_synced synced allowed acted
    cases chosen
    have own : (runtime.cancellationOf taskId).runId = next.runId :=
      synced.coherent.runId.symm.trans went.retains.1.symm
    refine ⟨next, after, went.consistent allowed synced consistent, went.tasks allowed synced known,
      own, ?_⟩
    cases found : state.cancellations[taskId]? with
    | some record =>
      rw [before found]
      exact went.retains.2 found
    | none =>
      generalize outcome : (Except.ok () : Except RuntimeError Unit) = result at went
      cases went with
      | refused => cases outcome
      | replayed repeated =>
        cases repeated with
        | cancel _ recorded =>
          obtain ⟨record, held⟩ := exists_lookup_of_mem recorded
          exact absurd (held.symm.trans found) (fun same => by cases same)
      | fresh room _ newKey accepted =>
        cases accepted with
        | cancellationKnown _ _ held => exact absurd (held.symm.trans found) (fun same => by cases same)
        | cancellation => exact lookup_insert_self _ _ _
  | again chosen => cases chosen
  | dispatched chosen => cases chosen

/-- **Cancelling a task again**, once it was cancelled in a run, and whatever came in between: operations,
failures, crashes and restores. It changes no run of the store. Unless the store's backend fails, it
succeeds if the operation of the task and the newest attempt held of it are those of the first time, and
else it is refused as a conflict. -/
theorem cancellation_repeats_iff (history : History ν) (runtime later : Runtime σ ν)
    (driven : Driven history runtime) (taskId : Id) (reply : Reply)
    (cancelled : ((Command.cancelTask taskId).perform runtime).1 = .ok reply)
    (after : Later ((Command.cancelTask taskId).perform runtime).2 later) :
    FaithfulStore.content ((Command.cancelTask taskId).perform later).2.store =
        FaithfulStore.content later.store ∧
      (BackendFailed ((Command.cancelTask taskId).perform later).1 ∨
        (SameLineage taskId runtime later ∧ ((Command.cancelTask taskId).perform later).1 =
          .ok (.cancelled (later.cancellationReply taskId))) ∨
        (¬ SameLineage taskId runtime later ∧ ((Command.cancelTask taskId).perform later).1 =
          .error (.store (.idempotencyConflict (cancelKey taskId))))) := by
  obtain ⟨state, synced, consistent⟩ := driven.consistent
  obtain ⟨first, begun, recorded⟩ := cancelTask_recorded synced consistent cancelled
  obtain ⟨next, reached, recorded⟩ := after.recorded begun recorded
  have own : later.runId = runtime.runId := reached.coherent.runId.symm.trans recorded.own.symm
  obtain ⟨same, answer⟩ := cancelTask_again reached recorded.known recorded.kept
  refine ⟨same, answer.imp_right fun answer => ?_⟩
  by_cases lineage : SameLineage taskId runtime later
  · rw [if_pos ((cancellationOf_eq_iff own).mpr lineage)] at answer
    exact .inl ⟨lineage, answer⟩
  · rw [if_neg fun equal => lineage ((cancellationOf_eq_iff own).mp equal)] at answer
    exact .inr ⟨lineage, answer⟩

end Runtime

/-- The sample operation is dispatched. -/
def sampleUncertain (started : Runtime InMemoryDurableStore Unit) :
    Runtime InMemoryDurableStore Unit :=
  let _ := Persisted.postcard
  started.performAll [.command (.recordEffectIntent sampleTask sampleOperation .nonIdempotent),
    .command (.dispatchEffect sampleOperation)]

/-- The task is cancelled, the outcome of its operation arrives late, and it is recovered. -/
def sampleOvertaken (started : Runtime InMemoryDurableStore Unit) : Runtime InMemoryDurableStore Unit :=
  let _ := Persisted.postcard
  ((Command.cancelTask sampleTask).perform (sampleUncertain started)).2.performAll
    [.command sampleLate, .command (.recover sampleOperation), .command .step]

/-- The second cancellation names the same attempt as the first one, and changes nothing. -/
theorem cancellation_repeats_sample :
    let _ := Persisted.postcard
    ∃ started, sampleStarted = .ok started ∧
      ((Command.cancelTask sampleTask).perform (sampleUncertain started)).1 =
        .ok (.cancelled (.alreadyDispatched sampleTask sampleOperation
          (generatedAttemptId sampleRun 1))) ∧
      ((Command.cancelTask sampleTask).perform (sampleOvertaken started)).1 =
        .ok (.cancelled (.alreadyDispatched sampleTask sampleOperation
          (generatedAttemptId sampleRun 1))) ∧
      ((Command.cancelTask sampleTask).perform (sampleOvertaken started)).2.store =
        (sampleOvertaken started).store := by
  intro _
  obtain ⟨started, starts, holds⟩ := exists_ok_of_any
    (show (sampleStarted.toOption.any fun started =>
      ((Command.cancelTask sampleTask).perform (sampleUncertain started)).1 =
          .ok (.cancelled (.alreadyDispatched sampleTask sampleOperation
            (generatedAttemptId sampleRun 1))) ∧
        ((Command.cancelTask sampleTask).perform (sampleOvertaken started)).1.toOption.isSome = true ∧
        (sampleUncertain started).journal.operationForTask sampleTask = some sampleOperation ∧
        (sampleOvertaken started).journal.operationForTask sampleTask = some sampleOperation ∧
        (sampleOvertaken started).attemptForTask sampleTask (some sampleOperation) =
          (sampleUncertain started).attemptForTask sampleTask (some sampleOperation) ∧
        (sampleOvertaken started).cancellationReply sampleTask =
          .alreadyDispatched sampleTask sampleOperation (generatedAttemptId sampleRun 1)) = true by
      decide +kernel)
  obtain ⟨first, answered, before, after, attempt, reply⟩ := of_decide_eq_true holds
  have lineage : Runtime.SameLineage sampleTask (sampleUncertain started) (sampleOvertaken started) := by
    refine ⟨after.trans before.symm, fun operationId operation => ?_⟩
    cases before.symm.trans operation
    exact attempt
  have driven := (sampleStarted_driven starts).performAll
    [.command (.recordEffectIntent sampleTask sampleOperation .nonIdempotent),
      .command (.dispatchEffect sampleOperation)]
  obtain ⟨same, answer⟩ := Runtime.cancellation_repeats_iff _ _ (sampleOvertaken started) driven sampleTask
    _ first ((Runtime.Later.here).performAll _)
  refine ⟨started, starts, first, ?_, same⟩
  rcases answer with ⟨error, failed, _⟩ | ⟨_, second⟩ | ⟨other, _⟩
  · rw [failed] at answered
    cases answered
  · rw [second, reply]
  · exact absurd lineage other

/-- **An operation that is recorded between two cancellations** makes the second one a conflict. -/
theorem recancellation_conflicts :
    let _ := Persisted.postcard
    ∃ (runtime later : Runtime InMemoryDurableStore Unit) (history : History Unit),
      Runtime.Driven history runtime ∧
      ((Command.cancelTask sampleTask).perform runtime).1 =
        .ok (.cancelled (.notDispatched sampleTask)) ∧
      Runtime.Later ((Command.cancelTask sampleTask).perform runtime).2 later ∧
      ((Command.cancelTask sampleTask).perform later).1 =
        .error (.store (.idempotencyConflict (Runtime.cancelKey sampleTask))) := by
  intro _
  obtain ⟨runtime, started, holds⟩ := exists_ok_of_any
    (show (sampleStarted.toOption.any fun runtime =>
      ((Command.cancelTask sampleTask).perform runtime).1 =
          .ok (.cancelled (.notDispatched sampleTask)) ∧
        ((Command.cancelTask sampleTask).perform
          (((Command.cancelTask sampleTask).perform runtime).2.performAll
            [.command (.recordEffectIntent sampleTask sampleOperation .idempotent)])).1 =
          .error (.store (.idempotencyConflict (Runtime.cancelKey sampleTask)))) = true by
      decide +kernel)
  obtain ⟨first, second⟩ := of_decide_eq_true holds
  exact ⟨runtime, _, _, sampleStarted_driven started, first, (Runtime.Later.here).performAll _, second⟩

end Kernis
