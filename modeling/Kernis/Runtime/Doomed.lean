/-
**Tasks that nothing can complete any more.**

A task is completed by its plain attempt or by the known success of its effect, and both can be lost for
good: the effect failed, or the task was cancelled before its effect was dispatched.

* `Doomed` — one of the two happened, in the terms of the durable facts and of a runtime's views.
* `Accepted.effectState_same` — the state of an effect changes only by a dispatch of it or an outcome of
  its latest dispatch.
* `Accepted.doomed`, `perform_doomed`, `Later.doomed` — a doomed task stays doomed and is never
  completed, whatever is performed and however often the run is restored.
-/

import Kernis.Runtime.Fence

namespace Kernis

open Std Fallible

namespace DurableRunState

variable {state next : DurableRunState} {taskId : Id} {operationId : OperationId}

/-- **Nothing completes the task any more.** -/
def Doomed (state : DurableRunState) (taskId : Id) : Prop :=
  match state.operationForTask taskId with
  | none => taskId ∈ state.cancellations
  | some operationId => state.effectState operationId = .outcomeKnown .failed ∨
      (taskId ∈ state.cancellations ∧ state.effectState operationId = .prepared)

theorem doomed_of_none (none_ : state.operationForTask taskId = none) :
    state.Doomed taskId ↔ taskId ∈ state.cancellations := by
  unfold Doomed
  rw [none_]

theorem doomed_of_some (owner : state.operationForTask taskId = some operationId) :
    state.Doomed taskId ↔ state.effectState operationId = .outcomeKnown .failed ∨
      (taskId ∈ state.cancellations ∧ state.effectState operationId = .prepared) := by
  unfold Doomed
  rw [owner]

/-- The operation of a task has an intent. -/
theorem Lineage.owned_intent (lineage : state.Lineage)
    (owner : state.operationForTask taskId = some operationId) :
    ∃ intent, state.intents[operationId]? = some intent ∧ intent.taskId = taskId :=
  (lineage.inverse taskId operationId).mp owner

/-- No two tasks have one operation. -/
theorem Lineage.owner_unique (lineage : state.Lineage) {other : Id}
    (owner : state.operationForTask taskId = some operationId)
    (again : state.operationForTask other = some operationId) : taskId = other := by
  obtain ⟨intent, found, mine⟩ := lineage.owned_intent owner
  obtain ⟨second, same, yours⟩ := lineage.owned_intent again
  rw [found] at same
  cases same
  exact mine.symm.trans yours

/-- **The state of an effect changes only by a dispatch of it, or an outcome of its latest dispatch.** -/
theorem Accepted.effectState_same {mutation : DurableMutation}
    (accepted : Accepted state mutation next) (prepared : operationId ∈ state.intents)
    (dispatches : ∀ sent, mutation = .recordDispatch sent → sent.operationId ≠ operationId)
    (outcomes : ∀ fact latest, mutation = .recordOutcome fact →
      state.latestDispatch operationId = some latest → fact.attemptId ≠ latest.attemptId) :
    next.effectState operationId = state.effectState operationId := by
  cases accepted with
  | intent fact unknown free =>
    refine effectState_congr ?_ rfl fun _ _ => rfl
    show operationId ∈ state.intents.insert fact.operationId fact ↔ _
    rw [mem_insert_iff]
    exact ⟨fun _ => prepared, .inr⟩
  | dispatch sent =>
    exact effectState_congr .rfl (latestDispatch_push_ne (dispatches sent rfl)) fun _ _ => rfl
  | outcome fact =>
    exact effectState_congr .rfl rfl fun latest last =>
      lookup_insert_ne _ _ (outcomes fact latest rfl last)
  | _ => rfl

/-- What a task's fate depends on. -/
theorem doomed_congr (owner : next.operationForTask taskId = state.operationForTask taskId)
    (cancelled : taskId ∈ next.cancellations ↔ taskId ∈ state.cancellations)
    (effect : ∀ operationId, state.operationForTask taskId = some operationId →
      next.effectState operationId = state.effectState operationId) :
    next.Doomed taskId ↔ state.Doomed taskId := by
  cases same : state.operationForTask taskId with
  | none => rw [doomed_of_none same, doomed_of_none (owner.trans same), cancelled]
  | some operationId =>
    rw [doomed_of_some same, doomed_of_some (owner.trans same), cancelled, effect operationId same]

/-- A new operation is prepared. -/
theorem effectState_intent (lineage : state.Lineage) {fact : EffectIntent}
    (unknown : fact.operationId ∉ state.intents) :
    ({ state with
        taskOperations := state.taskOperations.insert fact.taskId fact.operationId
        intents := state.intents.insert fact.operationId fact } : DurableRunState).effectState
      fact.operationId = .prepared := by
  have unsent := lineage.dispatchesOf_nil unknown
  have known : fact.operationId ∈ state.intents.insert fact.operationId fact :=
    (mem_insert_iff _ _ _ _).mpr (.inl rfl)
  unfold effectState latestDispatch
  rw [if_neg (not_not.mpr known)]
  unfold dispatchesOf at unsent ⊢
  rw [unsent]
  rfl

/-- An effect that is prepared was not dispatched. -/
theorem latestDispatch_of_prepared (prepared : state.effectState operationId = .prepared) :
    state.latestDispatch operationId = none := by
  cases latest : state.latestDispatch operationId with
  | none => rfl
  | some dispatch =>
    unfold effectState at prepared
    simp only [latest] at prepared
    repeat' split at prepared
    all_goals cases prepared

/-- **A doomed task stays doomed** while its effect is not dispatched. -/
theorem Accepted.doomed {mutation : DurableMutation} (lineage : state.Lineage)
    (accepted : Accepted state mutation next) (doomed : state.Doomed taskId)
    (unsent : ∀ sent, mutation = .recordDispatch sent →
      state.operationForTask taskId ≠ some sent.operationId) : next.Doomed taskId := by
  have more := accepted.extends
  have fenced : taskId ∈ state.cancellations → taskId ∈ next.cancellations := by
    intro cancelled
    obtain ⟨record, held⟩ := exists_lookup_of_mem cancelled
    exact mem_of_lookup (more.cancellations held)
  cases owner : state.operationForTask taskId with
  | none =>
    have cancelled := (doomed_of_none owner).mp doomed
    cases later : next.operationForTask taskId with
    | none => exact (doomed_of_none later).mpr (fenced cancelled)
    | some operationId =>
      refine (doomed_of_some later).mpr (.inr ⟨fenced cancelled, ?_⟩)
      -- Only a new intent gives the task an operation.
      cases accepted with
      | intent fact unknown free =>
        have given : (state.taskOperations.insert fact.taskId fact.operationId)[taskId]? =
            some operationId := later
        rw [lookup_insert] at given
        split at given
        · cases given
          exact effectState_intent lineage unknown
        · cases owner.symm.trans given
      | _ => cases owner.symm.trans later
  | some operationId =>
    obtain ⟨intent, found, mine⟩ := lineage.owned_intent owner
    have kept : next.operationForTask taskId = some operationId := by
      cases accepted with
      | intent fact unknown free =>
        show (state.taskOperations.insert fact.taskId fact.operationId)[taskId]? = _
        rw [lookup_insert_ne]
        · exact owner
        · rintro rfl
          exact free (mem_of_lookup owner)
      | _ => exact owner
    have elsewhere : ∀ sent, mutation = .recordDispatch sent → sent.operationId ≠ operationId := by
      rintro sent same rfl
      exact unsent sent same owner
    refine (doomed_of_some kept).mpr ?_
    rcases (doomed_of_some owner).mp doomed with failed | ⟨cancelled, prepared⟩
    · exact .inl (accepted.known failed elsewhere)
    · refine .inr ⟨fenced cancelled, ?_⟩
      rw [accepted.effectState_same (mem_of_lookup found) elsewhere, prepared]
      intro fact latest _ last
      rw [latestDispatch_of_prepared prepared] at last
      cases last

end DurableRunState

namespace Runtime

variable {σ ν : Type}

/-- **Nothing completes the task any more**, in the views of a runtime. -/
def Doomed (runtime : Runtime σ ν) (taskId : Id) : Prop :=
  match runtime.journal.operationForTask taskId with
  | none => taskId ∈ runtime.cancelled
  | some operationId => runtime.journal.state operationId = .outcomeKnown .failed ∨
      (taskId ∈ runtime.cancelled ∧ runtime.journal.state operationId = .prepared)

instance (runtime : Runtime σ ν) (taskId : Id) : Decidable (runtime.Doomed taskId) := by
  unfold Doomed
  split <;> infer_instance

variable [Postcard] [FaithfulStore σ]

theorem Synced.operationForTask {runtime : Runtime σ ν} {state : DurableRunState}
    (synced : Synced runtime state) (taskId : Id) :
    runtime.journal.operationForTask taskId = state.operationForTask taskId := by
  rw [synced.coherent.journal]
  rfl

theorem Synced.effectState {runtime : Runtime σ ν} {state : DurableRunState}
    (synced : Synced runtime state) (operationId : OperationId) :
    runtime.journal.state operationId = state.effectState operationId := by
  rw [synced.coherent.journal, DurableRunState.state_journal synced.coherent.owned.lineage]

/-- The views of a runtime in step tell which tasks are doomed. -/
theorem Synced.doomed_iff {runtime : Runtime σ ν} {state : DurableRunState}
    (synced : Synced runtime state) (taskId : Id) :
    runtime.Doomed taskId ↔ state.Doomed taskId := by
  unfold Doomed DurableRunState.Doomed
  rw [synced.operationForTask]
  cases state.operationForTask taskId with
  | none => exact synced.coherent.cancelled taskId
  | some operationId => simp only [synced.effectState, synced.coherent.cancelled]

/-! ### A doomed task stays doomed -/

section Acted

variable {runtime reached : Runtime σ ν} {state next : DurableRunState} {action : Action}
  {result : Except RuntimeError Unit} {taskId : Id}

/-- The effect of a doomed task is not dispatched. -/
theorem Synced.undispatched (synced : Synced runtime state) (doomed : state.Doomed taskId)
    {fact : DispatchRecord} {journal : DurableJournal}
    (allowed : runtime.Allowed (.dispatch fact journal)) :
    state.operationForTask taskId ≠ some fact.operationId := by
  intro owner
  obtain ⟨intent, found, live, _, guard, _⟩ := allowed
  obtain ⟨own, held, mine⟩ := synced.coherent.owned.lineage.owned_intent owner
  rw [synced.coherent.intent found] at held
  cases held
  rw [synced.effectState] at guard
  rcases (DurableRunState.doomed_of_some owner).mp doomed with failed | ⟨cancelled, _⟩
  · rw [failed] at guard
    rcases guard with fresh | ⟨unknown, _⟩
    · cases fresh
    · cases unknown
  · exact live (mine ▸ (synced.coherent.cancelled taskId).mpr cancelled)

/-- **Every allowed action leaves a doomed task doomed.** -/
theorem Acted.doomed (acted : Acted runtime state action result reached next)
    (allowed : runtime.Allowed action) (synced : Synced runtime state)
    (doomed : state.Doomed taskId) : next.Doomed taskId := by
  cases acted with
  | refused => exact doomed
  | replayed => exact doomed
  | @fresh store candidate key room own newKey accepted =>
    show candidate.Doomed taskId
    refine accepted.doomed synced.coherent.owned.lineage doomed fun sent same => ?_
    cases action with
    | dispatch fact journal =>
      cases same
      exact synced.undispatched doomed allowed
    | _ => cases same

/-- A doomed task has no known success. -/
theorem Synced.not_succeeded (synced : Synced runtime state) (doomed : state.Doomed taskId)
    {operationId : OperationId} (owner : state.operationForTask taskId = some operationId) :
    runtime.journal.state operationId ≠ .outcomeKnown .succeeded := by
  intro succeeded
  rw [synced.effectState] at succeeded
  rcases (DurableRunState.doomed_of_some owner).mp doomed with failed | ⟨_, prepared⟩
  · cases failed.symm.trans succeeded
  · cases prepared.symm.trans succeeded

/-- **No command chooses to complete a doomed task.** -/
theorem Synced.not_chosen (synced : Synced runtime state) (doomed : state.Doomed taskId)
    {command : Command} {fact : CompletionRecord} {workflow : WorkflowGraph} {after : After}
    (chosen : Chooses runtime command (.complete fact workflow) after) : fact.taskId ≠ taskId := by
  rintro rfl
  have lineage := synced.coherent.owned.lineage
  cases chosen with
  | recover found known succeeded =>
    have owner := (lineage.inverse _ _).mpr ⟨_, synced.coherent.intent found, rfl⟩
    exact synced.not_succeeded doomed owner succeeded
  | stepComplete idle ready owned =>
    rw [synced.operationForTask] at owned
    have cancelled := (DurableRunState.doomed_of_none owned).mp doomed
    exact nextReady_live ready ((synced.coherent.cancelled _).mpr cancelled)
  | stepKnown idle ready owned found known succeeded =>
    rw [synced.operationForTask] at owned
    exact synced.not_succeeded doomed owned succeeded

end Acted

/-- **No operation completes a doomed task**, and it stays doomed. -/
theorem perform_doomed {taskId : Id} {state : DurableRunState} (operation : Operation ν)
    {runtime : Runtime σ ν} (synced : Synced runtime state) (doomed : state.Doomed taskId)
    (unfinished : taskId ∉ state.completions) :
    ∃ next, Synced (operation.perform runtime).2 next ∧ next.Doomed taskId ∧
      taskId ∉ next.completions := by
  refine perform_guarded (fun _ state => state.Doomed taskId ∧ taskId ∉ state.completions)
    (fun _ _ => True) ?_ ?_ (fun _ _ => trivial) (fun _ => trivial) (fun _ _ before => before)
    (fun _ _ => trivial) synced ⟨doomed, unfinished⟩
  · rintro runtime reached state next command action after result _ chosen synced acted
      ⟨doomed, unfinished⟩
    refine ⟨acted.doomed (allowed_of_chooses chosen) synced doomed,
      acted.unfinished (fun fact workflow same => ?_) unfinished⟩
    subst same
    exact synced.not_chosen doomed chosen
  · rintro runtime reached state next fact journal result allowed synced acted ⟨doomed, unfinished⟩
    exact ⟨acted.doomed allowed synced doomed,
      acted.unfinished (fun _ _ same => by cases same) unfinished⟩

/-- **A doomed task is never completed later.** -/
theorem Later.doomed {taskId : Id} {state : DurableRunState} {first runtime : Runtime σ ν}
    (later : Later first runtime) (synced : Synced first state) (doomed : state.Doomed taskId)
    (unfinished : taskId ∉ state.completions) :
    ∃ next, Synced runtime next ∧ next.Doomed taskId ∧ taskId ∉ next.completions := by
  induction later with
  | here => exact ⟨state, synced, doomed, unfinished⟩
  | performed _ operation ih =>
    obtain ⟨state, synced, doomed, unfinished⟩ := ih
    exact perform_doomed operation synced doomed unfinished
  | restored _ same restored ih =>
    obtain ⟨state, synced, doomed, unfinished⟩ := ih
    exact ⟨state, restored.synced same synced, doomed, unfinished⟩

end Runtime

end Kernis
