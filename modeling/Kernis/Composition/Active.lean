/-
**What an activated composition runs.**

* `Follows` — what a run keeps in which no dependency is missing; `Follows.run`.
* `Activation.Active` — hooks are invoked, and activations succeed, with active plugins.
* `activation_means_active` — such a run is active in every state; `hook_before_active` — others are not.
-/

import Kernis.Composition.Fares

namespace Kernis

open Std

variable {ν : Type}

namespace Activation

variable {activation : Activation ν} {registrations : List (ModuleRegistration ν)} {overlooked : Bool}

/-! ### Runs -/

/-- **What a run without missing dependencies keeps.** -/
structure Follows (registrations : List (ModuleRegistration ν)) (overlooked : Bool)
    (activation : Activation ν) : Prop where
  stands : Stands registrations activation
  aligned : activation.Live → Aligned registrations activation
  fares : activation.Live → Fares overlooked activation

/-- What holds at the start. -/
theorem follows_start (plan : CompositionPlan ν) (scope : Scope ν) (nextEntryId : Nat) :
    Follows plan.registrations false (Activation.start plan (.ofScope scope nextEntryId)) where
  stands := stands_start plan _
  aligned := fun _ => aligned_start plan _
  fares := fun _ => ⟨rfl, rfl, fun _ member => absurd member List.not_mem_nil,
    fun _ member => absurd member List.not_mem_nil⟩

/-- **A step keeps it.** -/
theorem Follows.step (distinct : Distinct registrations)
    (follows : Follows registrations overlooked activation) (event : ActivationEvent ν)
    (hit : activation.misses event = false) (looked : (activation.ends event && overlooked) = false)
    (untaken : activation.takes event = false) :
    Follows registrations (activation.overlooks overlooked event) (activation.step event) where
  stands := stands_step distinct.modules follows.stands event
  aligned := Aligned.step follows.stands event follows.aligned
  fares := by
    intro lives
    have live := live_of_step lives
    have aligned := follows.aligned live
    have fares := follows.fares live
    have move := move_step live event
    obtain ⟨root, started⟩ := fares.started_move distinct follows.stands live aligned move untaken
    refine ⟨?_, root, started, fares.calm_move distinct follows.stands live aligned move hit looked⟩
    exact (context_move move).trans fares.context

/-- **A run keeps it.** -/
theorem Follows.run (distinct : Distinct registrations) {events : List (ActivationEvent ν)}
    (follows : Follows registrations overlooked activation)
    (favours : activation.favours overlooked events = true) :
    ∃ later, Follows registrations later (activation.run events) := by
  induction events generalizing activation overlooked with
  | nil => exact ⟨overlooked, follows⟩
  | cons event rest ih =>
    unfold Activation.favours at favours
    simp only [Bool.and_eq_true, Bool.not_eq_true'] at favours
    obtain ⟨⟨⟨hit, looked⟩, untaken⟩, rest⟩ := favours
    exact ih (follows.step distinct event hit looked untaken) rest

/-! ### Active plugins -/

/-- A plugin runs: it has a fiber, and all its fibers are active. -/
def Runs (activation : Activation ν) (plugin : PluginDefinition) : Prop :=
  (∃ fiber ∈ activation.fibers, fiber.definition = plugin) ∧
    ∀ fiber ∈ activation.fibers, fiber.definition.id = plugin.id → fiber.state = .active

/-- **Activation means active**: a module whose activate hook is invoked is one of the composition and all
its plugins run, and once the activation has succeeded all plugins run and their slots are published in the
scope of the runtime. -/
structure Active (modules : BTreeMap Id (ModuleRegistration ν)) (activation : Activation ν) :
    Prop where
  hooks : ∀ registration current, activation.phase = .module registration current .hooking →
    modules[registration.definition.id]? = some registration ∧
      ∀ contribution ∈ registration.plugins, activation.Runs contribution.plugin
  activated : activation.phase = .activated →
    ∀ entry ∈ contributed modules ModuleRegistration.plugins,
      activation.Runs entry.2.plugin ∧
        entry.2.plugin.capability.id ∈ (activation.tree.topology.level 0).entries

/-- A fiber that has the identity of a contributed plugin is one of that plugin. -/
theorem Aligned.plugin (aligned : Aligned registrations activation) (distinct : Distinct registrations)
    {contribution : PluginContribution}
    (member : contribution ∈ registrations.flatMap ModuleRegistration.plugins)
    {fiber : CapabilityFiber ν} (inside : fiber ∈ activation.fibers)
    (named : fiber.definition.id = contribution.plugin.id) :
    fiber.definition = contribution.plugin := by
  have listed : fiber.definition ∈ (registrations.flatMap ModuleRegistration.plugins).map
      PluginContribution.plugin := by
    have all := aligned.map fun plugin => plugin
    refine all ▸ List.mem_append_left _ ?_
    exact List.mem_map_of_mem (f := CapabilityFiber.definition) inside
  obtain ⟨other, known, same⟩ := List.mem_map.mp listed
  rw [← same] at named ⊢
  rw [List.inj_on_of_nodup_map distinct.plugins known member named]

/-- The plugins of a module run when its hook is invoked. -/
theorem Follows.hooks (distinct : Distinct registrations)
    (follows : Follows registrations overlooked activation) {registration : ModuleRegistration ν}
    {current : ActivatedModule} (here : activation.phase = .module registration current .hooking)
    {contribution : PluginContribution} (member : contribution ∈ registration.plugins) :
    activation.Runs contribution.plugin := by
  have live : activation.Live := by
    unfold Live
    rw [here]
    trivial
  have aligned := follows.aligned live
  have calm := (follows.fares live).calm
  unfold Calm at calm
  rw [here] at calm
  have stands := follows.stands
  unfold Stands at stands
  rw [here] at stands
  obtain ⟨_, _, holds, plugins, fibers⟩ := stands
  have mine : contribution.plugin.id ∈ registration.pluginIds := List.mem_map_of_mem member
  have listed : contribution ∈ registrations.flatMap ModuleRegistration.plugins :=
    List.mem_flatMap.mpr ⟨registration, aligned.current _ _ _ here, member⟩
  refine ⟨?_, fun fiber inside named => ?_⟩
  · rw [← plugins, ← fibers] at mine
    obtain ⟨entry, known, named⟩ := List.mem_map.mp mine
    obtain ⟨fiber, found, same⟩ := holds.placed entry
      (List.mem_append_left _ (List.mem_flatMap.mpr ⟨current, List.mem_append_right _
        List.mem_cons_self, known⟩))
    have inside := List.mem_of_getElem? found
    exact ⟨fiber, inside, aligned.plugin distinct listed inside (same.trans named)⟩
  · obtain ⟨index, found⟩ := List.mem_iff_getElem?.mp inside
    exact (calm.served index fiber found List.not_mem_nil).active (calm.hooked rfl) (named ▸ mine)

/-- All plugins run once the activation has succeeded. -/
theorem Follows.activated (follows : Follows registrations overlooked activation)
    (here : activation.phase = .activated) {contribution : PluginContribution}
    (member : contribution ∈ registrations.flatMap ModuleRegistration.plugins) :
    activation.Runs contribution.plugin ∧
      contribution.plugin.capability.id ∈ (activation.tree.topology.level 0).entries := by
  have live : activation.Live := by
    unfold Live
    rw [here]
    trivial
  have aligned := follows.aligned live
  have fares := follows.fares live
  have calm := fares.calm
  unfold Calm at calm
  rw [here] at calm
  have stands := follows.stands
  unfold Stands at stands
  rw [here] at stands
  have none_ : activation.left = [] := by
    unfold left
    rw [here]
    simp only
    rw [stands.2.2.2]
    rfl
  have listed : contribution.plugin ∈ activation.fibers.map CapabilityFiber.definition := by
    have all := aligned.map fun plugin => plugin
    rw [none_, List.map_nil, List.append_nil] at all
    exact all ▸ List.mem_map_of_mem (f := PluginContribution.plugin) member
  obtain ⟨fiber, inside, same⟩ := List.mem_map.mp listed
  refine ⟨⟨⟨fiber, inside, same⟩, fun other known _ => calm other known⟩, ?_⟩
  have slot := (fares.started fiber inside).slot (calm fiber inside)
  rw [scope_of_context ((aligned.context inside).trans fares.context), same] at slot
  exact slot

end Activation

/-- The contributions of a plan are distinct. -/
theorem Plans.distinct {builder : CompositionBuilder ν} {plan : CompositionPlan ν}
    (plans : Plans builder.modules plan) : Activation.Distinct plan.registrations where
  modules := by
    rw [plans.registrations_eq]
    exact plans.order_nodup
  plugins := plans.plugins_distinct
  slots := plans.slots_distinct

/-- A run that favours the activation is active in every state. -/
theorem Plans.active {builder : CompositionBuilder ν} {plan : CompositionPlan ν}
    (plans : Plans builder.modules plan) (scope : Scope ν) (nextEntryId : Nat)
    (events : List (ActivationEvent ν))
    (favours : (Activation.start plan (.ofScope scope nextEntryId)).favours false events = true) :
    ((Activation.start plan (.ofScope scope nextEntryId)).run events).Active builder.modules := by
  obtain ⟨overlooked, follows⟩ :=
    (Activation.follows_start plan scope nextEntryId).run plans.distinct favours
  generalize (Activation.start plan (.ofScope scope nextEntryId)).run events = activation at follows ⊢
  refine ⟨fun registration current here => ⟨?_, fun contribution member =>
    follows.hooks plans.distinct here member⟩, fun here entry member => ?_⟩
  · have live : activation.Live := by
      unfold Activation.Live
      rw [here]
      trivial
    rw [← plans.registered]
    exact plans.registration ((follows.aligned live).current _ _ _ here)
  · refine follows.activated here ?_
    exact plans.contributions.symm.subset (List.mem_map_of_mem member)

/-- **Activation means active**, in every run in which no dependency is missing where the activation does
not look again and nobody takes the slot of an active fiber. -/
theorem activation_means_active {builder : CompositionBuilder ν} {plan : CompositionPlan ν}
    (built : builder.build = .ok plan) (scope : Scope ν) (nextEntryId : Nat)
    (events : List (ActivationEvent ν))
    (favours : (Activation.start plan (.ofScope scope nextEntryId)).favours false events = true) :
    ((Activation.start plan (.ofScope scope nextEntryId)).run events).Active builder.modules :=
  (plans_iff.mp built).active scope nextEntryId events favours

/-- The plugins of the module whose hook is invoked. -/
def ActivationPhase.hooked : ActivationPhase ν → List PluginContribution
  | .module registration _ .hooking => registration.plugins
  | _ => []

/-- Whether the activation has succeeded. -/
def ActivationPhase.succeeded : ActivationPhase ν → Bool
  | .activated => true
  | _ => false

theorem ActivationPhase.activated_of_succeeded {ν : Type} {phase : ActivationPhase ν}
    (succeeded : phase.succeeded = true) : phase = .activated := by
  cases phase with
  | activated => rfl
  | _ => cases succeeded

/-- A plugin that requires the sample. -/
def sampleConsumer : PluginDefinition := ⟨sampleB, sampleDefinition sampleB [sampleA], fun _ => .ok ()⟩

/-- A module is activated: its one factory returns, and so does its hook. -/
def sampleModuleRun : List (ActivationEvent Unit) :=
  .replicate 7 .advance ++ [.returned (.ok ())] ++ .replicate 3 .advance ++ [.hook (.ok ())]

/-- A plugin and one that requires it are activated in this order. -/
theorem activation_means_active_sample : ∃ builder plan,
    CompositionBuilder.registerAll [sampleModule sampleA [] [FiberSystem.samplePlugin],
      sampleModule sampleB [] [sampleConsumer]] = .ok builder ∧ builder.build = .ok plan ∧
      ((Activation.start plan (.ofScope .root 1)).run
        (sampleModuleRun ++ sampleModuleRun ++ .replicate 4 .advance)).phase.succeeded = true ∧
      ((Activation.start plan (.ofScope .root 1)).run
        (sampleModuleRun ++ sampleModuleRun ++ .replicate 4 .advance)).Active builder.modules := by
  obtain ⟨builder, made, built⟩ := exists_ok_of_any
    (show ((CompositionBuilder.registerAll [sampleModule sampleA [] [FiberSystem.samplePlugin],
      sampleModule sampleB [] [sampleConsumer]]).toOption.any fun builder =>
      builder.build.toOption.any fun plan =>
        ((Activation.start plan (.ofScope .root 1)).run
          (sampleModuleRun ++ sampleModuleRun ++ .replicate 4 .advance)).phase.succeeded &&
        (Activation.start plan (.ofScope .root 1)).favours false
          (sampleModuleRun ++ sampleModuleRun ++ .replicate 4 .advance)) = true by decide +kernel)
  obtain ⟨plan, built, fine⟩ := exists_ok_of_any built
  rw [Bool.and_eq_true] at fine
  exact ⟨builder, plan, made, built, fine.1, activation_means_active built .root 1 _ fine.2⟩

/-- **A hook runs before the plugin of its module is active**: the plugin requires what a later module
publishes. -/
theorem hook_before_active : ¬ ∀ (builder : CompositionBuilder Unit) (plan : CompositionPlan Unit),
    builder.build = .ok plan → ∀ (scope : Scope Unit) (nextEntryId : Nat)
      (events : List (ActivationEvent Unit)),
        ((Activation.start plan (.ofScope scope nextEntryId)).run events).Active builder.modules := by
  intro all
  obtain ⟨builder, _, built⟩ := exists_ok_of_any
    (show ((CompositionBuilder.registerAll [sampleModule sampleA [] [sampleConsumer],
      sampleModule sampleB [] [FiberSystem.samplePlugin]]).toOption.any fun builder =>
      builder.build.toOption.any fun plan =>
        let activation := (Activation.start plan (.ofScope .root 1)).run (.replicate 9 .advance)
        activation.phase.hooked.any fun contribution => activation.fibers.any fun fiber =>
          fiber.definition.id = contribution.plugin.id && fiber.state = .pending) = true
      by decide +kernel)
  obtain ⟨plan, built, fails⟩ := exists_ok_of_any built
  have active := all builder plan built .root 1 (.replicate 9 .advance)
  generalize (Activation.start plan (.ofScope .root 1)).run (.replicate 9 .advance) = activation
    at fails active
  obtain ⟨contribution, member, fails⟩ := List.any_eq_true.mp fails
  obtain ⟨fiber, inside, fails⟩ := List.any_eq_true.mp fails
  rw [Bool.and_eq_true, decide_eq_true_eq, decide_eq_true_eq] at fails
  unfold ActivationPhase.hooked at member
  split at member
  · rename_i here
    have runs := (active.hooks _ _ here).2 contribution member
    exact absurd ((runs.2 fiber inside fails.1).symm.trans fails.2) nofun
  · exact absurd member List.not_mem_nil

end Kernis
