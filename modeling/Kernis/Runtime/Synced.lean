/-
**Runtimes in step with their store.**

* `Synced runtime state` — the store holds the run in a state, and the runtime's views are those of
  that state.
* `perform_synced` — every operation keeps this, and what every action and every local change keep
  beside it (`Quiet`: only the scope, the streams and the place of a known attempt changed).
* `Started.synced`, `Restored.synced` — a start over a store of reachable runs, and a restore of a
  run in step, are in step.
-/

import Kernis.Runtime.Created
import Kernis.Runtime.Faithful

namespace Kernis

open Std Fallible

namespace Runtime

variable {σ ν : Type} [Postcard] [FaithfulStore σ]

/-- The store holds the run in a state, and the views are those of that state. -/
structure Synced (runtime : Runtime σ ν) (state : DurableRunState) : Prop where
  backed : runtime.Backed state
  coherent : Coherent runtime state

theorem Acted.synced {runtime reached : Runtime σ ν} {state next : DurableRunState}
    {action : Action} {result : Except RuntimeError Unit}
    (acted : Acted runtime state action result reached next) (allowed : runtime.Allowed action)
    (synced : Synced runtime state) : Synced reached next :=
  ⟨acted.backed synced.backed, acted.coherent allowed synced.coherent⟩

/-! ### Local changes -/

omit [Postcard] [FaithfulStore σ] in
/-- Nothing changed but the scope, the streams and the place of a known attempt. -/
structure Quiet (runtime reached : Runtime σ ν) : Prop where
  runId : reached.runId = runtime.runId
  workflow : reached.workflow = runtime.workflow
  journal : reached.journal = runtime.journal
  store : reached.store = runtime.store
  storeRevision : reached.storeRevision = runtime.storeRevision
  identityProvenance : reached.identityProvenance = runtime.identityProvenance
  taskConfigs : reached.taskConfigs = runtime.taskConfigs
  cancelled : reached.cancelled = runtime.cancelled
  nextAttemptNumber : reached.nextAttemptNumber = runtime.nextAttemptNumber
  executionSequencer : reached.executionSequencer = runtime.executionSequencer
  known : reached.known = runtime.known

theorem Quiet.synced {runtime reached : Runtime σ ν} {state : DurableRunState}
    (quiet : Quiet runtime reached) (synced : Synced runtime state) : Synced reached state := by
  obtain ⟨backed, coherent⟩ := synced
  refine ⟨?_, coherent.owned, ?_, ?_, ?_, ?_, ?_, ?_, ?_, ?_, ?_⟩
  · rw [Backed, quiet.store, quiet.runId]
    exact backed
  · rw [quiet.runId, coherent.runId]
  · rw [quiet.storeRevision, coherent.revision]
  · rw [quiet.journal, coherent.journal]
  · rw [quiet.cancelled]
    exact coherent.cancelled
  · rw [quiet.workflow]
    exact coherent.completed
  · rw [quiet.nextAttemptNumber, coherent.number]
  · rw [quiet.known]
    exact coherent.known
  · rw [quiet.executionSequencer, coherent.live]
  · rw [quiet.executionSequencer]
    exact coherent.sequence

omit [Postcard] [FaithfulStore σ] in
theorem Observes.quiet {runtime reached : Runtime σ ν} (observed : Observes runtime reached) :
    Quiet runtime reached := by
  obtain ⟨_, _, _, _, _, rfl⟩ := observed
  exact ⟨rfl, rfl, rfl, rfl, rfl, rfl, rfl, rfl, rfl, rfl, rfl⟩

omit [Postcard] [FaithfulStore σ] in
/-- A retry moves a parked attempt to the started ones, or changes nothing that is viewed. -/
theorem quiet_retry (item : StreamItem RuntimeEvent) (runtime : Runtime σ ν) :
    Quiet runtime (retryExecutionEvent item runtime).2 := by
  rw [retryExecutionEvent_eq]
  cases pending : runtime.pendingStarted with
  | none =>
    simp only
    split
    · refine ⟨rfl, rfl, rfl, rfl, rfl, rfl, rfl, rfl, rfl, rfl, ?_⟩
      simp [known, pending]
    · exact ⟨rfl, rfl, rfl, rfl, rfl, rfl, rfl, rfl, rfl, rfl, rfl⟩
  | some held =>
    obtain ⟨attempt, parked⟩ := held
    simp only
    split
    · refine ⟨rfl, rfl, rfl, rfl, rfl, rfl, rfl, rfl, rfl, rfl, ?_⟩
      simp [known, pending]
    · refine ⟨rfl, rfl, rfl, rfl, rfl, rfl, rfl, rfl, rfl, rfl, ?_⟩
      simp [known, pending]

end Runtime

/-- The operations that commit. -/
def Operation.commits {ν : Type} : Operation ν → Bool
  | .command _ | .runUntilBlocked => true
  | _ => false

namespace Runtime

variable {σ ν : Type}

/-- An operation that commits nothing is a local change. -/
theorem quiet_of_not_commits [DurableStore σ] {operation : Operation ν}
    (silent : operation.commits = false) (runtime : Runtime σ ν) :
    Quiet runtime (operation.perform runtime).2 := by
  cases operation with
  | command command => cases silent
  | runUntilBlocked => cases silent
  | drainExecutionEvents => exact ⟨rfl, rfl, rfl, rfl, rfl, rfl, rfl, rfl, rfl, rfl, rfl⟩
  | retryExecutionEvent item => exact quiet_retry item runtime
  | _ => exact (perform_observes rfl runtime).1.quiet

variable [Postcard] [FaithfulStore σ]

/-! ### Operations -/

/-- What commands keep. -/
theorem perform_command_synced (Inv : Runtime σ ν → DurableRunState → Prop)
    (step : ∀ {runtime reached state next action result}, Allowed runtime action →
      Synced runtime state → Acted runtime state action result reached next →
      Inv runtime state → Inv reached next)
    (command : Command) {runtime : Runtime σ ν} {state : DurableRunState}
    (synced : Synced runtime state) (before : Inv runtime state) :
    ∃ next, Synced (command.perform runtime).2 next ∧ Inv (command.perform runtime).2 next := by
  refine perform_preserves (fun runtime => ∃ state, Synced runtime state ∧ Inv runtime state)
    ?_ command ⟨state, synced, before⟩
  rintro runtime action allowed ⟨state, synced, before⟩
  obtain ⟨next, acted⟩ := act_acted allowed synced.backed synced.coherent
  exact ⟨next, acted.synced allowed synced, step allowed synced acted before⟩

/-- What the scheduler loop keeps. -/
theorem runUntilBlocked_synced (Inv : Runtime σ ν → DurableRunState → Prop)
    (step : ∀ {runtime reached state next action result}, Allowed runtime action →
      Synced runtime state → Acted runtime state action result reached next →
      Inv runtime state → Inv reached next)
    {runtime : Runtime σ ν} {state : DurableRunState} (synced : Synced runtime state)
    (before : Inv runtime state) :
    ∃ next, Synced (runUntilBlocked runtime).2 next ∧ Inv (runUntilBlocked runtime).2 next := by
  refine runUntilBlocked_keeps
    (fun runtime : Runtime σ ν => ∃ state, Synced runtime state ∧ Inv runtime state) ?_
    ⟨state, synced, before⟩
  rintro runtime ⟨state, synced, before⟩
  exact perform_command_synced Inv step .step synced before

/-- **What every action and every local change keep, every operation keeps**, and the runtime stays
in step with its store. -/
theorem perform_synced (Inv : Runtime σ ν → DurableRunState → Prop)
    (step : ∀ {runtime reached state next action result}, Allowed runtime action →
      Synced runtime state → Acted runtime state action result reached next →
      Inv runtime state → Inv reached next)
    (quiet : ∀ {runtime reached state}, Quiet runtime reached → Inv runtime state →
      Inv reached state)
    (operation : Operation ν) {runtime : Runtime σ ν} {state : DurableRunState}
    (synced : Synced runtime state) (before : Inv runtime state) :
    ∃ next, Synced (operation.perform runtime).2 next ∧ Inv (operation.perform runtime).2 next := by
  cases committing : operation.commits with
  | false =>
    have same := quiet_of_not_commits committing runtime
    exact ⟨state, same.synced synced, quiet same before⟩
  | true =>
    cases operation with
    | command command => exact perform_command_synced Inv step command synced before
    | runUntilBlocked => exact runUntilBlocked_synced Inv step synced before
    | _ => cases committing

end Runtime

end Kernis
