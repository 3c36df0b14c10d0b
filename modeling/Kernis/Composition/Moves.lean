/-
**The moves of an activation.**

* `Activation.Move` — what one event does to an activation that does not roll back; `move_step`: every
  event does one of these, whatever it is.
* `Aligned` — the fibers are those of the first contributions, in their order; `Aligned.step`.
* `Plans.contributions` — the plugins of a plan, in the order of their activation, are those of its
  modules.
-/

import Kernis.Composition.Rollback
import Kernis.Composition.Slots

namespace Kernis

open Std

variable {ν : Type}

/-- What the fiber that an activation waits for does at an event. -/
def ActivationEvent.work : ActivationEvent ν → Option (FiberEvent ν)
  | .advance => some .go
  | .returned result => some (.returned result)
  | .cleaned result => some (.cleaned result)
  | _ => none

namespace Activation

variable {activation : Activation ν}

/-- An activation that does not roll back. -/
def Live (activation : Activation ν) : Prop :=
  match activation.phase with
  | .rollingBack _ _ _ | .failed _ _ => False
  | _ => True

/-! ### Failures and moves -/

/-- **How an activation fails**: with the modules that are to be rolled back and the cause. -/
inductive Failure (activation : Activation ν) :
    ActivationEvent ν → List ActivatedModule → CompositionError → Prop
  | duplicate {registration : ModuleRegistration ν} {current : ActivatedModule}
      {contribution : PluginContribution} {rest : List PluginContribution}
      (here : activation.phase = .module registration current (.registering (contribution :: rest)))
      (known : contribution.plugin.id ∈ activation.registry) :
      Failure activation .advance (activation.finished ++ [current])
        (.activationFailed current.moduleId (.pluginRegistration contribution.plugin.id
          (.duplicate contribution.plugin.id)))
  | unknown {registration : ModuleRegistration ν} {current : ActivatedModule}
      {contribution : PluginContribution} {rest : List PluginContribution}
      {fibers : List (Id × Nat)} (here : activation.phase =
        .module registration current (.instantiating (contribution :: rest) fibers))
      (absent : contribution.plugin.id ∉ activation.registry) :
      Failure activation .advance (activation.finished ++ [current])
        (.activationFailed current.moduleId (.fiberInstantiate contribution.plugin.id
          (.unknown contribution.plugin.id)))
  | invalid {registration : ModuleRegistration ν} {current : ActivatedModule}
      {contribution : PluginContribution} {rest : List PluginContribution}
      {fibers : List (Id × Nat)} {reason : Text} (here : activation.phase =
        .module registration current (.instantiating (contribution :: rest) fibers))
      (refused : contribution.plugin.validator contribution.config = .error reason) :
      Failure activation .advance (activation.finished ++ [current])
        (.activationFailed current.moduleId (.fiberInstantiate contribution.plugin.id
          (.fiber (.invalidConfig contribution.plugin.id reason))))
  | start {registration : ModuleRegistration ν} {current : ActivatedModule} {pluginId : Id}
      {index : Nat} {rest : List (Id × Nat)} {reason : FiberError}
      (here : activation.phase = .module registration current (.awaiting pluginId index rest))
      (answered : activation.answerOf index = some (.failed reason)) :
      Failure activation .advance (activation.finished ++ [current])
        (.activationFailed current.moduleId (.fiberStart pluginId reason))
  | hook {registration : ModuleRegistration ν} {current : ActivatedModule} (reason : Text)
      (here : activation.phase = .module registration current .hooking) :
      Failure activation (.hook (.error reason)) (activation.finished ++ [current])
        (.activationFailed current.moduleId (.activateHook reason))
  | reconciliation {report : ReconcileReport}
      (here : activation.phase = .reconciling [] false report)
      (fails : report.isSuccess = false) :
      Failure activation .advance activation.finished
        (.reconciliationFailed (report.errors.map Prod.snd) (report.cleanupErrors.map Prod.snd))

/-- **A move**: what one event does to an activation that does not roll back. -/
inductive Move (activation : Activation ν) : ActivationEvent ν → Activation ν → Prop
  | still {event : ActivationEvent ν} (idle : event = .advance → ∀ snapshot drove report,
      activation.phase ≠ .reconciling snapshot drove report) : Move activation event activation
  | worked {event : ActivationEvent ν} {work : FiberEvent ν} (works : event.work = some work)
      {index : Nat} {held : CapabilityFiber ν} (found : activation.fibers[index]? = some held)
      (awaited : activation.phase.awaited = some index)
      (unlocked : ¬ (activation.tree.poisoned = true ∧ held.locks = true)) :
      Move activation event { activation with
        tree := (held.step activation.tree work).1
        fibers := activation.fibers.set index (held.step activation.tree work).2 }
  | registers {index stack : Nat} {label : Text} {held : CapabilityFiber ν}
      (found : activation.fibers[index]? = some held) :
      Move activation (.register index stack label) { activation with
        fibers := activation.fibers.set index (held.register stack label) }
  | scope {call : ScopeCall ν} (foreign : activation.foreign call = true) :
      Move activation (.scope call) { activation with tree := (activation.tree.step call).2 }
  | begun {registration : ModuleRegistration ν} {rest : List (ModuleRegistration ν)}
      (here : activation.phase = .next) (left : activation.rest = registration :: rest) :
      Move activation .advance { activation with
        rest := rest
        phase := .module registration
          ⟨registration.definition.id, [], [], registration.onDispose, false⟩
          (.registering registration.plugins) }
  | all (here : activation.phase = .next) (left : activation.rest = []) :
      Move activation .advance { activation with
        phase := .reconciling activation.snapshot false ⟨[], [], []⟩ }
  | plugins {registration : ModuleRegistration ν} {current : ActivatedModule}
      (here : activation.phase = .module registration current (.registering [])) :
      Move activation .advance { activation with
        phase := .module registration current (.instantiating registration.plugins []) }
  | registered {registration : ModuleRegistration ν} {current : ActivatedModule}
      {contribution : PluginContribution} {rest : List PluginContribution}
      (here : activation.phase = .module registration current (.registering (contribution :: rest)))
      (absent : contribution.plugin.id ∉ activation.registry) :
      Move activation .advance { activation with
        registry := activation.registry.insert contribution.plugin.id
        log := activation.log ++ [(current.moduleId, .registered contribution.plugin.id)]
        phase := .module registration
          { current with plugins := current.plugins ++ [contribution.plugin.id] }
          (.registering rest) }
  | fibers {registration : ModuleRegistration ν} {current : ActivatedModule}
      {fibers : List (Id × Nat)}
      (here : activation.phase = .module registration current (.instantiating [] fibers)) :
      Move activation .advance { activation with
        phase := .module registration current (.starting fibers) }
  | instantiated {registration : ModuleRegistration ν} {current : ActivatedModule}
      {contribution : PluginContribution} {rest : List PluginContribution}
      {fibers : List (Id × Nat)} (here : activation.phase =
        .module registration current (.instantiating (contribution :: rest) fibers))
      (known : contribution.plugin.id ∈ activation.registry) :
      Move activation .advance { activation with
        fibers := activation.fibers ++
          [.new contribution.plugin activation.context contribution.config]
        log := activation.log ++ [(current.moduleId,
          .instantiated contribution.plugin.id activation.fibers.length)]
        phase := .module registration current
          (.instantiating rest (fibers ++ [(contribution.plugin.id, activation.fibers.length)])) }
  | starts {registration : ModuleRegistration ν} {current : ActivatedModule} {pluginId : Id}
      {index : Nat} {rest : List (Id × Nat)} (here : activation.phase =
        .module registration current (.starting ((pluginId, index) :: rest))) :
      Move activation .advance { activation with
        fibers := activation.fibers.modify index fun held => held.begin activation.tree .start
        log := activation.log ++ [(current.moduleId, ActivationAct.started pluginId index)]
        phase := .module registration current (.awaiting pluginId index rest) }
  | hooks {registration : ModuleRegistration ν} {current : ActivatedModule}
      (here : activation.phase = .module registration current (.starting []))
      (has : registration.onActivate = true) :
      Move activation .advance { activation with
        log := activation.log ++ [(current.moduleId, .hooked)]
        phase := .module registration current .hooking }
  | completes {event : ActivationEvent ν} {registration : ModuleRegistration ν}
      {current : ActivatedModule}
      (here : activation.phase = .module registration current (.starting []) ∧
          registration.onActivate = false ∨
        activation.phase = .module registration current .hooking) :
      Move activation event (activation.complete current)
  | answered {registration : ModuleRegistration ν} {current : ActivatedModule} {pluginId : Id}
      {index : Nat} {rest : List (Id × Nat)}
      (here : activation.phase = .module registration current (.awaiting pluginId index rest))
      (rested : ∀ held, activation.fibers[index]? = some held → held.transition = .free)
      {answer : FiberAnswer} (answers : activation.answerOf index = some answer)
      (fine : ∀ reason, answer ≠ .failed reason) :
      Move activation .advance { activation with
        phase := .module registration
          { current with fibers := current.fibers ++ [(pluginId, index)] } (.starting rest) }
  | passes {index : Nat} {snapshot : List Nat} {drove : Bool} {report : ReconcileReport}
      (here : activation.phase = .reconciling (index :: snapshot) drove report)
      (settled : activation.fibers[index]?.any
        (CapabilityFiber.needsReconciliation activation.tree) = false) :
      Move activation .advance { activation with phase := .reconciling snapshot drove report }
  | drives {index : Nat} {snapshot : List Nat} {drove : Bool} {report : ReconcileReport}
      (here : activation.phase = .reconciling (index :: snapshot) drove report)
      (needs : activation.fibers[index]?.any
        (CapabilityFiber.needsReconciliation activation.tree) = true) :
      Move activation .advance { activation with
        fibers := activation.fibers.modify index fun held => held.begin activation.tree .start
        phase := .driving index snapshot { report with driven := report.driven ++ [index] } }
  | again {report : ReconcileReport} (here : activation.phase = .reconciling [] true report) :
      Move activation .advance { activation with
        phase := .reconciling activation.snapshot false report }
  | driven {index : Nat} {snapshot : List Nat} {report : ReconcileReport}
      (here : activation.phase = .driving index snapshot report)
      (rested : ∀ held, activation.fibers[index]? = some held → held.transition = .free) :
      Move activation .advance (activation.driven index snapshot report)
  | activated {report : ReconcileReport} (here : activation.phase = .reconciling [] false report)
      (success : report.isSuccess = true) :
      Move activation .advance { activation with phase := .activated }
  | fails {event : ActivationEvent ν} {owned : List ActivatedModule} {cause : CompositionError}
      (failure : activation.Failure event owned cause) :
      Move activation event (activation.fail owned cause)

/-- **What the activation does** between two waits is a move. -/
theorem move_advance (live : activation.Live) (ready : activation.ready = true) :
    activation.Move .advance activation.advance := by
  unfold advance
  unfold Live at live
  have rested {index : Nat} (awaited : activation.phase.awaited = some index) :
      ∀ held, activation.fibers[index]? = some held → held.transition = .free :=
    fun held found => free_of_ready ready found awaited
  split
  · rename_i here
    unfold nextModule
    split
    · exact .all here ‹_›
    · exact .begun here ‹_›
  · rename_i registration current phase here
    cases phase with
    | registering contributions =>
      cases contributions with
      | nil => exact .plugins here
      | cons contribution rest =>
        simp only [inModule]
        split
        · exact .fails (.duplicate here ‹_›)
        · exact .registered here ‹_›
    | instantiating contributions fibers =>
      cases contributions with
      | nil => exact .fibers here
      | cons contribution rest =>
        simp only [inModule]
        split
        · exact .fails (.unknown here ‹_›)
        · rename_i known
          split
          · exact .fails (.invalid here ‹_›)
          · exact .instantiated here (not_not.mp known)
    | starting fibers =>
      cases fibers with
      | nil =>
        simp only [inModule]
        split
        · exact .hooks here ‹_›
        · rename_i none_
          exact .completes (.inl ⟨here, Bool.eq_false_iff.mpr none_⟩)
      | cons entry rest => exact .starts here
    | awaiting pluginId index rest =>
      simp only [inModule]
      split
      · exact .fails (.start here ‹_›)
      · rename_i answer fine answers
        refine .answered here (rested (by rw [here]; rfl)) answers fun reason same => ?_
        exact fine reason same
      · exact .still fun _ _ _ _ same => by cases here.symm.trans same
    | hooking => exact .still fun _ _ _ _ same => by cases here.symm.trans same
  · rename_i snapshot drove report here
    unfold reconcile
    split
    · split
      · exact .drives here ‹_›
      · exact .passes here (Bool.eq_false_iff.mpr ‹_›)
    · split
      · rename_i drove
        subst drove
        exact .again here
      · rename_i rests
        rw [Bool.not_eq_true] at rests
        subst rests
        split
        · exact .activated here ‹_›
        · exact .fails (.reconciliation here (Bool.eq_false_iff.mpr ‹_›))
  · rename_i index snapshot report here
    exact .driven here (rested (by rw [here]; rfl))
  · rename_i cause ledger wait here
    rw [here] at live
    exact live.elim
  · rename_i cause report here
    exact .still fun _ _ _ _ same => by cases here.symm.trans same
  · rename_i here
    exact .still fun _ _ _ _ same => by cases here.symm.trans same

/-- The fiber that the activation waits for works. -/
theorem move_awaitedStep {event : ActivationEvent ν} {work : FiberEvent ν}
    (works : event.work = some work) (busy : event = .advance → activation.ready ≠ true) :
    activation.Move event (activation.awaitedStep work) := by
  have still : activation.Move event activation := by
    refine .still fun advances snapshot drove report here => busy advances ?_
    unfold ready
    rw [here]
    rfl
  unfold awaitedStep
  split
  · exact still
  · rename_i index awaited
    cases found : activation.fibers[index]? with
    | none =>
      unfold fiberStep
      rw [found]
      split
      · exact still
      · exact still
    | some held =>
      split
      · exact still
      · rename_i unlocked
        unfold fiberStep
        rw [found]
        exact .worked works found awaited fun locked => unlocked ⟨locked.1, locked.2⟩

/-- **Every event is a move**, until the activation fails. -/
theorem move_step (live : activation.Live) (event : ActivationEvent ν) :
    activation.Move event (activation.step event) := by
  cases event with
  | advance =>
    simp only [step]
    split
    · exact move_advance live ‹_›
    · exact move_awaitedStep rfl fun _ => ‹_›
  | returned result => exact move_awaitedStep rfl (fun same => by cases same)
  | cleaned result => exact move_awaitedStep rfl (fun same => by cases same)
  | hook result =>
    simp only [step, hook]
    split
    · rename_i registration current here
      split
      · exact .completes (.inr here)
      · exact .fails (.hook _ here)
    · rename_i cause ledger here
      unfold Live at live
      rw [here] at live
      exact live.elim
    · exact .still (fun same => by cases same)
  | register index stack label =>
    simp only [step, fiberStep]
    split
    · exact .still (fun same => by cases same)
    · exact .registers ‹_›
  | scope call =>
    simp only [step]
    split
    · exact .scope ‹_›
    · exact .still (fun same => by cases same)

/-- Something happens to a fiber. -/
theorem phase_awaitedStep (event : FiberEvent ν) :
    (activation.awaitedStep event).phase = activation.phase := by
  unfold awaitedStep fiberStep
  split
  · rfl
  · split
    · rfl
    · split
      · rfl
      · rfl

theorem not_live_of_retreats {later : Activation ν} {cause : CompositionError}
    (retreats : Retreats activation later cause) : ¬ later.Live := by
  unfold Live
  rcases retreats.phase with ⟨ledger, wait, here⟩ | ⟨report, here⟩
  · rw [here]
    exact not_false
  · rw [here]
    exact not_false

/-- **An activation that rolls back does not go back.** -/
theorem live_of_step {event : ActivationEvent ν} (live : (activation.step event).Live) :
    activation.Live := by
  have kept (same : (activation.step event).phase = activation.phase) : activation.Live := by
    unfold Live at live ⊢
    rw [← same]
    exact live
  cases event with
  | advance =>
    simp only [step] at live kept
    split at live
    · rename_i ready
      rw [if_pos ready] at kept
      cases here : activation.phase with
      | rollingBack cause ledger wait =>
        unfold advance at live
        rw [here] at live
        exact absurd live (not_live_of_retreats (retreats_rollBack here))
      | failed cause report =>
        refine kept ?_
        unfold advance
        rw [here]
        exact here
      | _ =>
        unfold Live
        rw [here]
        trivial
    · rename_i busy
      rw [if_neg busy] at kept
      exact kept (phase_awaitedStep _)
  | returned result => exact kept (phase_awaitedStep _)
  | cleaned result => exact kept (phase_awaitedStep _)
  | hook result =>
    simp only [step] at live kept
    cases here : activation.phase with
    | rollingBack cause ledger wait =>
      unfold hook at live kept
      rw [here] at live kept
      cases wait with
      | hook => exact absurd live (not_live_of_retreats (retreats_settle here result))
      | _ => exact kept here
    | failed cause report =>
      refine kept ?_
      unfold hook
      rw [here]
      exact here
    | _ =>
      unfold Live
      rw [here]
      trivial
  | register index stack label =>
    refine kept ?_
    simp only [step, fiberStep]
    split
    · rfl
    · rfl
  | scope call =>
    refine kept ?_
    simp only [step]
    split
    · rfl
    · rfl

end Activation

/-! ### The fibers and their plugins -/

/-- The plugin of a fiber and its context. -/
def CapabilityFiber.face (fiber : CapabilityFiber ν) : PluginDefinition × List ContextState :=
  (fiber.definition, fiber.context)

theorem CapabilityFiber.face_start {fiber : CapabilityFiber ν} (tree : ScopeTree ν)
    (free : fiber.transition = .free) : (fiber.begin tree .start).face = fiber.face := by
  rw [begin_start tree free]
  unfold startDrive
  split
  · rfl
  · split
    · rfl
    · rfl

theorem CapabilityFiber.face_step (fiber : CapabilityFiber ν) (tree : ScopeTree ν)
    {event : FiberEvent ν} (works : event.Works) : (fiber.step tree event).2.face = fiber.face := by
  have goes := fiber.goes_step tree works
  unfold face
  rw [goes.definition, goes.context]

/-- The contributions of a module that were not instantiated. -/
def ModulePhase.left (registration : ModuleRegistration ν) : ModulePhase → List PluginContribution
  | .registering _ => registration.plugins
  | .instantiating contributions _ => contributions
  | _ => []

/-- An event of the awaited fiber is one of a running call. -/
theorem ActivationEvent.works {event : ActivationEvent ν} {work : FiberEvent ν}
    (works : event.work = some work) : work.Works := by
  cases event with
  | advance =>
    cases works
    exact .go
  | returned result =>
    cases works
    exact .returned result
  | cleaned result =>
    cases works
    exact .cleaned result
  | hook result => cases works
  | register index stack label => cases works
  | scope call => cases works

namespace Activation

variable {activation : Activation ν} {registrations : List (ModuleRegistration ν)}

/-- The contributions that were not instantiated. -/
def left (activation : Activation ν) : List PluginContribution :=
  match activation.phase with
  | .module registration _ phase =>
    phase.left registration ++ activation.rest.flatMap ModuleRegistration.plugins
  | _ => activation.rest.flatMap ModuleRegistration.plugins

/-- A plugin in the context of the runtime. -/
def placed (activation : Activation ν) (contribution : PluginContribution) :
    PluginDefinition × List ContextState := (contribution.plugin, activation.context)

/-- **The fibers are those of the first contributions**, in their order and all in one context. -/
structure Aligned (registrations : List (ModuleRegistration ν)) (activation : Activation ν) :
    Prop where
  fibers : activation.fibers.map CapabilityFiber.face ++ activation.left.map activation.placed =
    (registrations.flatMap ModuleRegistration.plugins).map activation.placed
  rest : ∀ registration ∈ activation.rest, registration ∈ registrations
  current : ∀ registration current phase,
    activation.phase = .module registration current phase → registration ∈ registrations

/-- Nothing is instantiated. -/
theorem Aligned.of {later : Activation ν} (aligned : Aligned registrations activation)
    (faces : later.fibers.map CapabilityFiber.face = activation.fibers.map CapabilityFiber.face)
    (context : later.context = activation.context) (left : later.left = activation.left)
    (rest : ∀ registration ∈ later.rest, registration ∈ activation.rest)
    (current : ∀ registration current phase,
      later.phase = .module registration current phase → registration ∈ registrations) :
    Aligned registrations later where
  fibers := by
    unfold placed
    rw [faces, left, context]
    exact aligned.fibers
  rest := fun registration member => aligned.rest registration (rest registration member)
  current := current

/-- The fibers keep their plugins when one of them changes. -/
theorem faces_modify {fibers : List (CapabilityFiber ν)} {index : Nat}
    {change : CapabilityFiber ν → CapabilityFiber ν}
    (kept : ∀ held, fibers[index]? = some held → (change held).face = held.face) :
    (fibers.modify index change).map CapabilityFiber.face = fibers.map CapabilityFiber.face := by
  refine List.ext_getElem? fun position => ?_
  rw [List.getElem?_map, List.getElem?_map, List.getElem?_modify]
  split
  · rename_i same
    subst same
    cases found : fibers[index]? with
    | none => rfl
    | some held => exact congrArg some (kept held found)
  · rw [id_map']

theorem faces_set {fibers : List (CapabilityFiber ν)} {index : Nat} {held next : CapabilityFiber ν}
    (found : fibers[index]? = some held) (kept : next.face = held.face) :
    (fibers.set index next).map CapabilityFiber.face = fibers.map CapabilityFiber.face := by
  have same := modify_eq_set found fun _ => next
  rw [← same]
  refine faces_modify fun other here => ?_
  rw [found, Option.some.injEq] at here
  rw [← here, kept]

/-- A start of a fiber that waits for nothing. -/
theorem faces_start {awaited : Option Nat} {owned : List ActivatedModule} {pending : List (Id × Nat)}
    (holds : Holds activation.registry activation.fibers awaited owned pending)
    (unawaited : awaited = none) (index : Nat) :
    (activation.fibers.modify index fun held => held.begin activation.tree .start).map
      CapabilityFiber.face = activation.fibers.map CapabilityFiber.face := by
  refine faces_modify fun held found => CapabilityFiber.face_start activation.tree ?_
  exact holds.idle index held found (by rw [unawaited]; exact fun same => by cases same)

/-- What an activation holds while it does not roll back. -/
theorem Stands.holds (stands : Stands registrations activation) (live : activation.Live) :
    ∃ owned pending, Holds activation.registry activation.fibers activation.phase.awaited owned
      pending := by
  unfold Stands at stands
  unfold Live at live
  cases here : activation.phase with
  | next =>
    rw [here] at stands
    exact ⟨_, _, stands.2.2⟩
  | module registration current phase =>
    rw [here] at stands
    exact ⟨_, _, stands.2.2.1⟩
  | reconciling snapshot drove report =>
    rw [here] at stands
    exact ⟨_, _, stands.2.2.1⟩
  | driving index snapshot report =>
    rw [here] at stands
    exact ⟨_, _, stands.2.2.1⟩
  | rollingBack cause ledger wait =>
    rw [here] at live
    exact live.elim
  | failed cause report =>
    rw [here] at live
    exact live.elim
  | activated =>
    rw [here] at stands
    exact ⟨_, _, stands.2.2.1⟩

/-- A module goes on and instantiates nothing. -/
theorem Aligned.within {later : Activation ν} {registration : ModuleRegistration ν}
    {current next : ActivatedModule} {phase after : ModulePhase}
    (aligned : Aligned registrations activation)
    (here : activation.phase = .module registration current phase)
    (there : later.phase = .module registration next after)
    (left : after.left registration = phase.left registration)
    (faces : later.fibers.map CapabilityFiber.face = activation.fibers.map CapabilityFiber.face)
    (context : later.context = activation.context) (rest : later.rest = activation.rest) :
    Aligned registrations later := by
  refine aligned.of faces context ?_ (fun registration member => rest ▸ member) ?_
  · unfold Activation.left
    rw [here, there]
    simp only
    rw [left, rest]
  · intro registration current phase same
    rw [there] at same
    cases same
    exact aligned.current _ _ _ here

/-- No module is begun. -/
theorem Aligned.outside {later : Activation ν} (aligned : Aligned registrations activation)
    (left : activation.left = activation.rest.flatMap ModuleRegistration.plugins)
    (outside : ∀ registration current phase, later.phase ≠ .module registration current phase)
    (faces : later.fibers.map CapabilityFiber.face = activation.fibers.map CapabilityFiber.face)
    (context : later.context = activation.context) (rest : later.rest = activation.rest) :
    Aligned registrations later := by
  refine aligned.of faces context ?_ (fun registration member => rest ▸ member)
    fun registration current phase same => absurd same (outside registration current phase)
  rw [left, ← rest]
  unfold Activation.left
  split
  · rename_i same
    exact absurd same (outside _ _ _)
  · rfl

/-- **A move keeps the fibers aligned.** -/
theorem Aligned.move {event : ActivationEvent ν} {later : Activation ν}
    (stands : Stands registrations activation) (live : activation.Live)
    (aligned : Aligned registrations activation) (move : activation.Move event later)
    (lives : later.Live) : Aligned registrations later := by
  obtain ⟨owned, pending, holds⟩ := stands.holds live
  have left {phase : ActivationPhase ν} (here : activation.phase = phase) :
      activation.left = { activation with phase := phase }.left := by
    rw [← here]
  cases move with
  | still => exact aligned
  | worked works found awaited unlocked =>
    exact aligned.of (faces_set found (CapabilityFiber.face_step _ _ (ActivationEvent.works works)))
      rfl rfl (fun _ => id) aligned.current
  | registers found =>
    exact aligned.of (faces_set found (CapabilityFiber.face_step _ activation.tree
      (.register _ _))) rfl rfl (fun _ => id) aligned.current
  | scope foreign => exact aligned.of rfl rfl rfl (fun _ => id) aligned.current
  | begun here others =>
    refine aligned.of rfl rfl ?_ (fun registration member => ?_) ?_
    · unfold Activation.left
      rw [here, others]
      rfl
    · rw [others]
      exact List.mem_cons_of_mem _ member
    · rintro registration current phase ⟨⟩
      refine aligned.rest _ ?_
      rw [others]
      exact List.mem_cons_self
  | all here others => exact aligned.outside (left here) (fun _ _ _ same => by cases same) rfl rfl rfl
  | plugins here => exact aligned.within here rfl rfl rfl rfl rfl
  | registered here absent => exact aligned.within here rfl rfl rfl rfl rfl
  | fibers here => exact aligned.within here rfl rfl rfl rfl rfl
  | instantiated here known =>
    refine ⟨?_, aligned.rest, ?_⟩
    · have before := aligned.fibers
      rw [left here] at before
      refine Eq.trans ?_ before
      unfold Activation.left
      simp only [ModulePhase.left]
      rw [List.map_append, List.append_assoc]
      rfl
    · rintro registration current phase ⟨⟩
      exact aligned.current _ _ _ here
  | starts here =>
    exact aligned.within here rfl rfl (faces_start holds (by rw [here]; rfl) _) rfl rfl
  | hooks here has => exact aligned.within here rfl rfl rfl rfl rfl
  | completes here =>
    rcases here with ⟨here, _⟩ | here
    · exact aligned.outside (left here) (fun _ _ _ same => by cases same) rfl rfl rfl
    · exact aligned.outside (left here) (fun _ _ _ same => by cases same) rfl rfl rfl
  | answered here rested answers fine => exact aligned.within here rfl rfl rfl rfl rfl
  | passes here settled => exact aligned.outside (left here) (fun _ _ _ same => by cases same) rfl rfl rfl
  | drives here needs =>
    exact aligned.outside (left here) (fun _ _ _ same => by cases same)
      (faces_start holds (by rw [here]; rfl) _) rfl rfl
  | again here => exact aligned.outside (left here) (fun _ _ _ same => by cases same) rfl rfl rfl
  | driven here rested => exact aligned.outside (left here) (fun _ _ _ same => by cases same) rfl rfl rfl
  | activated here success => exact aligned.outside (left here) (fun _ _ _ same => by cases same) rfl rfl rfl
  | fails failure => exact lives.elim

/-- What holds at the start. -/
theorem aligned_start (plan : CompositionPlan ν) (tree : ScopeTree ν) :
    Aligned plan.registrations (Activation.start plan tree) :=
  ⟨rfl, fun _ => id, (fun _ _ _ same => by cases same)⟩

/-- **A step keeps the fibers aligned.** -/
theorem Aligned.step (stands : Stands registrations activation) (event : ActivationEvent ν)
    (aligned : activation.Live → Aligned registrations activation)
    (lives : (activation.step event).Live) : Aligned registrations (activation.step event) :=
  have live := live_of_step lives
  (aligned live).move stands live (move_step live event) lives

end Activation

/-! ### The plugins of a plan -/

namespace Plans

variable {builder : CompositionBuilder ν} {plan : CompositionPlan ν}

/-- A plan orders all its modules. -/
theorem registrations_perm (plans : Plans builder.modules plan) :
    plan.registrations.Perm (valuesOf builder.modules) := by
  obtain ⟨same, length⟩ := deterministicOrder_ok.mp plans.order
  have all : ∀ moduleId : Id, moduleId ∈ builder.modules → moduleId ∈ plan.order := by
    intro moduleId member
    rw [same] at length ⊢
    have size : builder.modules.size = (dependencySets builder.modules).size :=
      ExtTreeMap.size_map.symm
    rw [size, Counting.length_order_iff] at length
    exact length moduleId (mem_dependencySets.mpr member)
  have order : plan.order.Perm builder.modules.keys := by
    refine (List.perm_ext_iff_of_nodup plans.order_nodup ExtTreeMap.nodup_keys).mpr fun moduleId => ?_
    rw [ExtTreeMap.mem_keys]
    refine ⟨fun member => ?_, all moduleId⟩
    rw [same] at member
    exact mem_dependencySets.mp (Counting.mem_of_order member)
  unfold CompositionPlan.registrations
  rw [plans.registered, valuesOf_eq_filterMap]
  exact order.filterMap _

/-- **The plugins of a plan**, in the order of their activation. -/
theorem contributions (plans : Plans builder.modules plan) :
    (plan.registrations.flatMap ModuleRegistration.plugins).Perm
      ((contributed builder.modules ModuleRegistration.plugins).map Prod.snd) := by
  have same : (contributed builder.modules ModuleRegistration.plugins).map Prod.snd =
      (valuesOf builder.modules).flatMap ModuleRegistration.plugins := by
    unfold contributed valuesOf
    rw [List.map_flatMap, List.flatMap_map]
    refine List.flatMap_congr fun entry _ => ?_
    rw [List.map_map]
    exact List.map_id _
  rw [same]
  exact plans.registrations_perm.flatMap_right _

/-- No two plugins have one identity. -/
theorem plugins_distinct (plans : Plans builder.modules plan) :
    ((plan.registrations.flatMap ModuleRegistration.plugins).map
      fun contribution => contribution.plugin.id).Nodup := by
  refine (plans.contributions.map _).nodup_iff.mpr ?_
  rw [List.map_map]
  exact plans.plugin_slots.distinct

/-- No two plugins publish into one slot. -/
theorem slots_distinct (plans : Plans builder.modules plan) :
    ((plan.registrations.flatMap ModuleRegistration.plugins).map
      fun contribution => contribution.plugin.capability.id).Nodup := by
  refine (plans.contributions.map _).nodup_iff.mpr ?_
  rw [List.map_map]
  exact plans.plugin_slots.single

end Plans

end Kernis
