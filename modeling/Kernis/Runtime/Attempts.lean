/-
**Admitted attempts and the attempts that a runtime holds.**

A runtime parks an attempt whose start it could not announce in a single slot. Only the scheduler
looks at the slot before it admits another attempt; a dispatch does not.

* `Crowds runtime operation` — a dispatch that is about to admit an attempt while an attempt is
  parked and the lifecycle stream is full.
* `Accounted` — the started attempts and the parked one are exactly the admitted ones.
* `attempts_accounted` — it holds in every run in which no operation crowds.
* `admitted_attempt_forgotten` — a crowding dispatch forgets the attempt that was parked.
-/

import Kernis.Runtime.Delivery
import Kernis.Runtime.Guarded

namespace Kernis

open Std Fallible

/-- What names an attempt. -/
def TaskAttempt.lineage (attempt : TaskAttempt) : RunId × Id × AttemptId × Option OperationId :=
  (attempt.runId, attempt.taskId, attempt.attemptId, attempt.operationId)

/-- What names an admission. -/
def AttemptAdmission.lineage (admission : AttemptAdmission) :
    RunId × Id × AttemptId × Option OperationId :=
  (admission.runId, admission.taskId, admission.attemptId, admission.operationId)

namespace Runtime

variable {σ ν : Type}

/-- **Every admitted attempt is held exactly once, and nothing else is.** -/
def Accounted (runtime : Runtime σ ν) (state : DurableRunState) : Prop :=
  (runtime.known.map TaskAttempt.lineage).Perm (state.admissionHistory.map AttemptAdmission.lineage)

/-- A slot or a place in the stream is free. -/
def Spacious (runtime : Runtime σ ν) : Prop :=
  runtime.pendingStarted = none ∨
    runtime.executionEvents.items.length ≠ runtime.executionEvents.capacity

/-- A dispatch of this operation has to admit an attempt first: it was never dispatched and no
attempt waits for it, or its last dispatch has no outcome and it may be repeated. -/
def NeedsAttempt (runtime : Runtime σ ν) (operationId : OperationId) : Prop :=
  ∃ intent pins, runtime.journal.intent operationId = .ok intent ∧
    intent.taskId ∉ runtime.cancelled ∧
    captureCapabilityPins runtime.scope runtime.taskConfigs intent.taskId none = .ok pins ∧
    ((runtime.journal.state operationId = .prepared ∧
        runtime.pendingAttempt intent.taskId operationId = none) ∨
      (runtime.journal.state operationId = .outcomeUnknown ∧ intent.semantics ≠ .nonIdempotent))

/-- A dispatch that has to admit an attempt while one is parked and the lifecycle stream is full. -/
def Crowds (runtime : Runtime σ ν) (operation : Operation ν) : Prop :=
  ∃ operationId, operation = .command (.dispatchEffect operationId) ∧
    runtime.NeedsAttempt operationId ∧ runtime.pendingStarted.isSome ∧
    runtime.executionEvents.items.length = runtime.executionEvents.capacity

/-- An admission that does not crowd has space. -/
theorem spacious_of_chooses {runtime : Runtime σ ν} {command : Command} {attempt : TaskAttempt}
    {after : After} (chosen : Chooses runtime command (.admission attempt) after)
    (room : ¬ Crowds runtime (.command command)) : Spacious runtime := by
  have dispatches {operationId : OperationId} (same : command = .dispatchEffect operationId)
      (needs : runtime.NeedsAttempt operationId) : Spacious runtime := by
    subst same
    by_contra crowded
    unfold Spacious at crowded
    push Not at crowded
    exact room ⟨operationId, rfl, needs, Option.isSome_iff_ne_none.mpr crowded.1, crowded.2⟩
  cases chosen with
  | begin found live prepared missing pinned =>
    exact dispatches rfl ⟨_, _, found, live, pinned, .inl ⟨prepared, missing⟩⟩
  | retry found live unknown idempotent pinned =>
    exact dispatches rfl ⟨_, _, found, live, pinned, .inr ⟨unknown, idempotent⟩⟩
  | stepBegin idle => exact .inl idle
  | stepAdmit idle => exact .inl idle

section Again

variable [DurableStore σ]

/-- A dispatch that starts over has its attempt, so it admits no other. -/
theorem not_crowds_again {command : Command} {runtime middle : Runtime σ ν} {action : Action}
    (chosen : Chooses runtime command action .again)
    (acted : act action runtime = (.ok (), middle)) : ¬ Crowds middle (.command command) := by
  rintro ⟨operationId, same, ⟨intent, _, again, _, _, needs⟩, _⟩
  cases same
  cases chosen with
  | begin found live prepared missing pinned =>
    obtain ⟨store, revision, sequencer, events, same⟩ := act_admit_ok acted
    rcases needs with ⟨_, without⟩ | ⟨unknown, _⟩
    · rw [same] at again
      cases found.symm.trans again
      have waiting := attemptForTask_push missing (runtime.belongsTo_nextAttempt _ _ _)
        (show middle.pendingStarted = runtime.pendingStarted by rw [same]; rfl)
        (show middle.attempts = _ by rw [same])
      rw [pendingAttempt, waiting] at without
      cases without
    · rw [same] at unknown
      exact absurd (prepared.symm.trans unknown) (by decide)

end Again

variable [Postcard] [FaithfulStore σ]

/-- **An action with space keeps the attempts accounted for.** -/
theorem Acted.accounted {runtime reached : Runtime σ ν} {state next : DurableRunState}
    {action : Action} {result : Except RuntimeError Unit}
    (acted : Acted runtime state action result reached next) (synced : Synced runtime state)
    (space : ∀ attempt, action = .admission attempt → Spacious runtime)
    (accounted : Accounted runtime state) : Accounted reached next := by
  cases acted with
  | refused => exact accounted
  | replayed repeated => cases repeated <;> exact accounted
  | @fresh store candidate key room own newKey accepted =>
    have coherent := synced.coherent
    have bound : runtime.executionSequencer.nextSequence < u64Max :=
      Nat.lt_of_le_of_lt coherent.sequence room
    cases action with
    | admission attempt =>
      have number : runtime.nextAttemptNumber < u64Max := by
        have := coherent.owned.room
        rw [coherent.number]
        omega
      cases accepted with
      | admission =>
        show (_ : List _).Perm ((state.admissionHistory ++ [attempt.admission]).map _)
        rw [List.map_append]
        refine List.Perm.trans ?_ (accounted.append_right _)
        show (_ : List _).Perm (runtime.known.map TaskAttempt.lineage ++ [attempt.lineage])
        rcases Coherent.settle_admit_cases attempt (runtime.accepted store (state.revision + 1))
          number coherent.live bound with ⟨events, settled⟩ | ⟨item, full, settled⟩
        · rw [settled]
          simp only [known, accepted, List.map_append, List.map_cons, List.map_nil,
            List.append_assoc]
          exact List.Perm.append_left _ List.perm_append_comm
        · rw [settled]
          rcases space attempt rfl with idle | roomy
          · simp [known, idle, Runtime.accepted]
          · exact absurd full roomy
    | complete fact workflow =>
      obtain ⟨events, result, settled, _⟩ := Coherent.settle_complete_cases fact workflow
        (runtime.accepted store (state.revision + 1)) coherent.live bound
      rw [settled]
      cases accepted <;> exact accounted
    | _ => cases accepted <;> exact accounted

omit [Postcard] [FaithfulStore σ] in
theorem not_crowds_step (runtime : Runtime σ ν) : ¬ Crowds runtime (.command .step) := by
  rintro ⟨_, same, _⟩
  cases same

omit [Postcard] [FaithfulStore σ] in
theorem Quiet.accounted {runtime reached : Runtime σ ν} {state : DurableRunState}
    (quiet : Quiet runtime reached) (accounted : Accounted runtime state) :
    Accounted reached state := by
  unfold Accounted
  rw [quiet.known]
  exact accounted

/-- **An operation that does not crowd keeps the attempts accounted for.** -/
theorem perform_accounted {operation : Operation ν} {runtime : Runtime σ ν}
    {state : DurableRunState} (synced : Synced runtime state)
    (accounted : Accounted runtime state) (room : ¬ Crowds runtime operation) :
    ∃ next, Synced (operation.perform runtime).2 next ∧
      Accounted (operation.perform runtime).2 next := by
  refine perform_guarded Accounted (fun runtime command => ¬ Crowds runtime (.command command))
    ?_ ?_ ?_ not_crowds_step (fun _ quiet accounted => quiet.accounted accounted)
    (fun command same => same ▸ room) synced accounted
  · intro runtime reached state next command action after result room chosen synced acted accounted
    refine acted.accounted synced ?_ accounted
    rintro attempt rfl
    exact spacious_of_chooses chosen room
  · intro runtime reached state next fact journal result allowed synced acted accounted
    exact acted.accounted synced (fun _ same => by cases same) accounted
  · intro runtime middle command action chosen acted
    exact not_crowds_again chosen acted

/-! ### Runs -/

/-- **A runtime in a run in which no operation crowds.** -/
inductive Uncrowded : Runtime σ ν → Prop
  | started {store : σ} {runtime : Runtime σ ν}
      (clean : (FaithfulStore.content store).AllReachable) (started : Started store runtime) :
      Uncrowded runtime
  | performed {runtime : Runtime σ ν} {operation : Operation ν} (run : Uncrowded runtime)
      (room : ¬ Crowds runtime operation) : Uncrowded (operation.perform runtime).2
  | restored {runtime next : Runtime σ ν} {store : σ} (run : Uncrowded runtime)
      (same : FaithfulStore.content store = FaithfulStore.content runtime.store)
      (restored : Restored runtime.runId store next) : Uncrowded next

omit [Postcard] [FaithfulStore σ] in
theorem lineage_of_restores {admissions : List AttemptAdmission} {attempts : List TaskAttempt}
    (restores : List.Forall₂ Restores admissions attempts) :
    attempts.map TaskAttempt.lineage = admissions.map AttemptAdmission.lineage := by
  induction restores with
  | nil => rfl
  | @cons admission attempt _ _ one _ ih =>
    obtain ⟨run, task, identity, operation⟩ := one
    rw [List.map_cons, List.map_cons, ih]
    simp only [TaskAttempt.lineage, AttemptAdmission.lineage, run, task, identity, operation]

/-- A restore holds exactly the admitted attempts. -/
theorem Restored.accounted {runtime next : Runtime σ ν} {store : σ} {state : DurableRunState}
    (same : FaithfulStore.content store = FaithfulStore.content runtime.store)
    (restored : Restored runtime.runId store next) (synced : Synced runtime state) :
    Accounted next state := by
  obtain ⟨_, _, _, _, loaded, _, load, inner⟩ := restored.inner
  rw [FaithfulStore.load, InMemoryDurableStore.loadRun, same, synced.backed] at load
  cases load
  obtain ⟨_, _, attempts, _, _, repinned, rfl⟩ := restoreLoaded_ok.mp inner
  simp only [Accounted, known, build, Option.map_none, Option.toList_none, List.append_nil]
  rw [lineage_of_restores (restoreAttempts_ok repinned)]

theorem uncrowded_accounted {runtime : Runtime σ ν} (run : Uncrowded runtime) :
    ∃ state, Synced runtime state ∧ Accounted runtime state := by
  induction run with
  | started clean started =>
    obtain ⟨_, _, _, _, identity, _, _, built, inner⟩ := started.inner
    obtain ⟨synced, _, rfl⟩ := startWithIdentity_synced clean built inner
    exact ⟨_, synced, .nil⟩
  | performed _ room ih =>
    obtain ⟨state, synced, accounted⟩ := ih
    exact perform_accounted synced accounted room
  | restored _ same restored ih =>
    obtain ⟨state, synced, _⟩ := ih
    exact ⟨state, restored.synced same synced, restored.accounted same synced⟩

/-- **No admitted attempt is lost** in a run in which no dispatch crowds: the started attempts and the
parked one are exactly the admitted ones, each once. -/
theorem attempts_accounted (runtime : Runtime σ ν) (run : Uncrowded runtime) :
    ∃ state, DurableStore.loadRun runtime.runId runtime.store = .ok state ∧
      ((runtime.attempts ++ (runtime.pendingStarted.map Prod.fst).toList).map
        TaskAttempt.lineage).Perm (state.admissionHistory.map AttemptAdmission.lineage) ∧
      ((runtime.attempts ++ (runtime.pendingStarted.map Prod.fst).toList).map
        TaskAttempt.attemptId).Nodup := by
  obtain ⟨state, synced, accounted⟩ := uncrowded_accounted run
  refine ⟨state, synced.loaded, accounted, ?_⟩
  have identities := accounted.map fun lineage => lineage.2.2.1
  rw [List.map_map, List.map_map] at identities
  exact identities.nodup_iff.mpr synced.coherent.owned.lineage.admissions.unique

/-- Whether no attempt is parked before any of the operations. -/
def freeThroughout (runtime : Runtime σ ν) : List (Operation ν) → Bool
  | [] => true
  | operation :: rest =>
    runtime.pendingStarted.isNone && freeThroughout (operation.perform runtime).2 rest

/-- A run goes on with operations before which no attempt is parked. -/
theorem Uncrowded.performAll {runtime : Runtime σ ν} (run : Uncrowded runtime)
    (operations : List (Operation ν)) (free : runtime.freeThroughout operations = true) :
    Uncrowded (runtime.performAll operations) := by
  induction operations generalizing runtime with
  | nil => exact run
  | cons operation rest ih =>
    obtain ⟨none, later⟩ := Bool.and_eq_true_iff.mp free
    have room : ¬ Crowds runtime operation := by
      rintro ⟨_, _, _, parked, _⟩
      rw [Option.isNone_iff_eq_none.mp none] at parked
      cases parked
    exact ih (.performed run room) later

theorem Driven.followAll {history : History ν} {runtime : Runtime σ ν}
    (driven : Driven history runtime) (consumer : Consumer) (operations : List (Operation ν)) :
    Driven (history ++ runtime.answers operations) (runtime.followAll consumer operations).1 := by
  induction operations generalizing history runtime consumer with
  | nil =>
    rw [answers, List.append_nil]
    exact driven
  | cons operation rest ih =>
    have after := ih (driven.performed operation)
      (consumer.observe operation (operation.perform runtime).1)
    rw [List.append_assoc] at after
    exact after

end Runtime

/-- The sample operation, safe to repeat, is dispatched once more than the lifecycle stream has
places. -/
def sampleParking : List (Operation Unit) :=
  .command (.recordEffectIntent sampleTask sampleOperation .idempotent) ::
    List.replicate 129 (.command (.dispatchEffect sampleOperation))

/-- 128 attempts are started and one is parked, and these are the admitted attempts, each once. -/
theorem attempts_accounted_sample :
    let _ := Persisted.postcard
    ∃ runtime reached : Runtime InMemoryDurableStore Unit, sampleStarted = .ok runtime ∧
      runtime.performAll sampleParking = reached ∧ reached.attempts.length = 128 ∧
        (reached.pendingStarted.map fun pending => pending.1.attemptId) =
          some (generatedAttemptId sampleRun 129) ∧
        ∃ state, InMemoryDurableStore.loadRun reached.runId reached.store = .ok state ∧
          ((reached.attempts ++ (reached.pendingStarted.map Prod.fst).toList).map
            TaskAttempt.lineage).Perm (state.admissionHistory.map AttemptAdmission.lineage) ∧
          ((reached.attempts ++ (reached.pendingStarted.map Prod.fst).toList).map
            TaskAttempt.attemptId).Nodup := by
  intro _
  obtain ⟨runtime, started, holds⟩ := exists_ok_of_any
    (show (sampleStarted.toOption.any fun runtime =>
      (runtime.freeThroughout sampleParking = true ∧
        (runtime.performAll sampleParking).attempts.length = 128 ∧
        ((runtime.performAll sampleParking).pendingStarted.map fun pending => pending.1.attemptId) =
          some (generatedAttemptId sampleRun 129))) = true by decide +kernel)
  obtain ⟨free, count, parked⟩ := of_decide_eq_true holds
  have fresh : Runtime.Uncrowded runtime := .started InMemoryDurableStore.allReachable_new
    (.run (.batch .empty sampleWorkflow_built) (Prod.ext started rfl))
  obtain ⟨state, loaded, accounted, once⟩ :=
    Runtime.attempts_accounted _ (fresh.performAll sampleParking free)
  exact ⟨runtime, _, started, rfl, count, parked, state, loaded, accounted, once⟩

/-- The overflow leaves an admitted attempt that the runtime holds nowhere. -/
theorem Overflowed.unaccounted [Postcard] {history : History Unit}
    {runtime : Runtime InMemoryDurableStore Unit} {consumer : Consumer}
    (driven : Runtime.Driven history runtime) (overflowed : Overflowed runtime consumer) :
    ∃ state attemptId, InMemoryDurableStore.loadRun runtime.runId runtime.store = .ok state ∧
      attemptId ∈ state.admissionHistory.map AttemptAdmission.attemptId ∧
      attemptId ∉ runtime.known.map TaskAttempt.attemptId := by
  obtain ⟨state, loaded, member⟩ := exists_ok_of_any overflowed.admitted
  obtain ⟨other, synced⟩ := driven.synced
  cases loaded.symm.trans synced.loaded
  have admitted := synced.coherent.owned.lineage.admissions.mem_iff.mp (of_decide_eq_true member)
  exact ⟨state, _, loaded, admitted, overflowed.forgotten⟩

/-- **A dispatch forgets the parked attempt**: after the overflow an attempt is admitted that the
runtime holds nowhere. -/
theorem admitted_attempt_forgotten :
    let _ := Persisted.postcard
    ∃ (history : History Unit) (runtime : Runtime InMemoryDurableStore Unit)
      (state : DurableRunState) (attemptId : AttemptId),
      Runtime.Driven history runtime ∧
        InMemoryDurableStore.loadRun runtime.runId runtime.store = .ok state ∧
        attemptId ∈ state.admissionHistory.map AttemptAdmission.attemptId ∧
        attemptId ∉ (runtime.attempts ++ (runtime.pendingStarted.map Prod.fst).toList).map
          TaskAttempt.attemptId := by
  intro _
  obtain ⟨runtime, started, overflowed⟩ := sampleOverflow_reached
  have driven := (sampleStarted_driven started).followAll ⟨[], []⟩ sampleOverflow
  obtain ⟨state, attemptId, holds⟩ := overflowed.unaccounted driven
  exact ⟨_, _, state, attemptId, driven, holds⟩

end Kernis
