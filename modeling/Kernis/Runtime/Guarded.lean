/-
**Runs whose commands pass a guard.**

Some facts hold only as long as the caller keeps to a discipline. `perform_guarded` is the induction
rule for one operation: what the choices of a guarded command keep, the operation keeps.
-/

import Kernis.Runtime.Driven

namespace Kernis

open Std Fallible

namespace Runtime

variable {σ ν : Type} [Postcard] [FaithfulStore σ]

section Guarded

variable (Inv : Runtime σ ν → DurableRunState → Prop) (Good : Runtime σ ν → Command → Prop)
  (acts : ∀ {runtime reached state next command action after result}, Good runtime command →
    Chooses runtime command action after → Synced runtime state →
    Acted runtime state action result reached next → Inv runtime state → Inv reached next)
  (dispatches : ∀ {runtime reached state next fact journal result},
    Allowed runtime (.dispatch fact journal) → Synced runtime state →
    Acted runtime state (.dispatch fact journal) result reached next → Inv runtime state →
    Inv reached next)
  (again : ∀ {runtime middle : Runtime σ ν} {command action}, Chooses runtime command action .again →
    act action runtime = (.ok (), middle) → Good middle command)

include acts dispatches again

/-- **What a guarded command keeps.** -/
theorem command_guarded {command : Command} {runtime : Runtime σ ν} {state : DurableRunState}
    (good : Good runtime command) (synced : Synced runtime state) (before : Inv runtime state) :
    ∃ next, Synced (command.perform runtime).2 next ∧ Inv (command.perform runtime).2 next := by
  have derivation := perform_performs command runtime
  generalize (command.perform runtime).1 = result at derivation
  generalize (command.perform runtime).2 = reached at derivation ⊢
  have once {runtime reached : Runtime σ ν} {state : DurableRunState} {action : Action}
      {after : After} {result : Except RuntimeError Unit} (good : Good runtime command)
      (synced : Synced runtime state) (before : Inv runtime state)
      (chosen : Chooses runtime command action after)
      (acted : act action runtime = (result, reached)) :
      ∃ next, Synced reached next ∧ Inv reached next := by
    obtain ⟨next, after, went⟩ := act_synced synced (allowed_of_chooses chosen) acted
    exact ⟨next, after, acts good chosen synced went before⟩
  induction derivation generalizing state with
  | halt => exact ⟨state, synced, before⟩
  | failed chosen acted => exact once good synced before chosen acted
  | replied chosen acted => exact once good synced before chosen acted
  | again chosen acted _ ih =>
    obtain ⟨next, between, kept⟩ := once good synced before chosen acted
    exact ih (again chosen acted) between kept
  | undispatched chosen acted => exact once good synced before chosen acted
  | misdispatched chosen acted persisted failed =>
    obtain ⟨next, between, kept⟩ := once good synced before chosen acted
    have allowed := allowed_dispatch_of_chooses chosen acted persisted
    obtain ⟨last, after, went⟩ := act_synced between allowed failed
    exact ⟨last, after, dispatches allowed between went kept⟩
  | dispatched chosen acted persisted recorded =>
    obtain ⟨next, between, kept⟩ := once good synced before chosen acted
    have allowed := allowed_dispatch_of_chooses chosen acted persisted
    obtain ⟨last, after, went⟩ := act_synced between allowed recorded
    exact ⟨last, after, dispatches allowed between went kept⟩

/-- **What a guarded operation keeps.** The scheduler's own steps must pass the guard. -/
theorem perform_guarded (steps : ∀ runtime : Runtime σ ν, Good runtime .step)
    {operation : Operation ν} {runtime : Runtime σ ν} {state : DurableRunState}
    (quiet : operation.commits = false → Quiet runtime (operation.perform runtime).2 →
      Inv runtime state → Inv (operation.perform runtime).2 state)
    (good : ∀ command, operation = .command command → Good runtime command)
    (synced : Synced runtime state) (before : Inv runtime state) :
    ∃ next, Synced (operation.perform runtime).2 next ∧ Inv (operation.perform runtime).2 next := by
  cases committing : operation.commits with
  | false =>
    have same := quiet_of_not_commits committing runtime
    exact ⟨state, same.synced synced, quiet committing same before⟩
  | true =>
    cases operation with
    | command command =>
      exact command_guarded Inv Good acts dispatches again (good command rfl) synced before
    | runUntilBlocked =>
      refine runUntilBlocked_keeps
        (fun runtime : Runtime σ ν => ∃ state, Synced runtime state ∧ Inv runtime state) ?_
        ⟨state, synced, before⟩
      rintro runtime ⟨state, synced, before⟩
      exact command_guarded Inv Good acts dispatches again (steps runtime) synced before
    | _ => cases committing

end Guarded

end Runtime

end Kernis
