/-
**A built plan fails only through host code.**

* `Undisturbed` — what a run keeps in which nobody but the fibers uses the scope of the runtime;
  `Undisturbed.move`.
* `CompositionError.Hosted` — the failures that host code returned; `hosted_of_failure`.
* `CompositionPlan.Blameless` — the definition is valid, the factories are complete, and a start fails
  through the configuration, the store or host code; `built_blameless`.
* `CompositionPlan.Constructs` — the runtimes of a plan, started or restored, and what their activation
  comes to; `constructed_activation`.
-/

import Kernis.Capability.Undisturbed
import Kernis.Composition.Active
import Kernis.Runtime.Constructs

namespace Kernis

open Std

variable {ν : Type}

/-- An event that touches no scope of the runtime. -/
def ActivationEvent.quiet : ActivationEvent ν → Bool
  | .scope .elsewhere => true
  | .scope _ => false
  | _ => true

/-- What the fibers hear when this is what the activation is told. -/
def ActivationEvent.heardIn (told : ActivationEvent ν → Prop) (event : FiberEvent ν) : Prop :=
  ∃ source, told source ∧ source.work = some event

/-- What a reconciliation found its plugins returned. -/
structure ReconcileReport.Returned (heard : FiberEvent ν → Prop) (report : ReconcileReport) : Prop where
  errors : ∀ entry ∈ report.errors, entry.2.Returned heard
  cleanupErrors : ∀ entry ∈ report.cleanupErrors, ∀ error ∈ entry.2, error.Returned heard

/-- **A failure that host code returned**: the check of a configuration, a factory with what the disposers
of its load returned, or an activate hook. -/
def CompositionError.Hosted (contributions : List PluginContribution) (told : ActivationEvent ν → Prop) :
    CompositionError → Prop
  | .activationFailed _ (.fiberInstantiate pluginId reason) => ∃ contribution ∈ contributions,
    contribution.plugin.id = pluginId ∧ ∃ text,
      contribution.plugin.validator contribution.config = .error text ∧
        reason = .fiber (.invalidConfig pluginId text)
  | .activationFailed _ (.fiberStart _ reason) => reason.Returned (ActivationEvent.heardIn told)
  | .activationFailed _ (.activateHook reason) => told (.hook (.error reason))
  | .reconciliationFailed errors cleanupErrors => (errors ≠ [] ∨ cleanupErrors ≠ []) ∧
    (∀ error ∈ errors, error.Returned (ActivationEvent.heardIn told)) ∧
      ∀ each ∈ cleanupErrors, ∀ error ∈ each, error.Returned (ActivationEvent.heardIn told)
  | _ => False

/-- The cause of a failed activation. -/
def ActivationPhase.cause : ActivationPhase ν → Option CompositionError
  | .rollingBack cause _ _ | .failed cause _ => some cause
  | _ => none

namespace Activation

variable {activation : Activation ν} {registrations : List (ModuleRegistration ν)}
  {told : ActivationEvent ν → Prop}

/-- The report of the reconciliation under way. -/
def Reported (heard : FiberEvent ν → Prop) (activation : Activation ν) : Prop :=
  match activation.phase with
  | .reconciling _ _ report | .driving _ _ report => report.Returned heard
  | _ => True

/-- What the scope of the runtime publishes: the names of these contributions are free, and no fiber is
disturbed. -/
structure Publishes (told : ActivationEvent ν → Prop) (left : List PluginContribution)
    (entries : BTreeMap Id (CapabilityHandle ν)) (activation : Activation ν) : Prop where
  sole : activation.tree.Sole entries
  vacant : ∀ contribution ∈ left, contribution.plugin.capability.id ∉ entries
  fibers : ∀ fiber ∈ activation.fibers,
    fiber.Undisturbed (ActivationEvent.heardIn told) entries activation.tree

/-- **An activation whose scope nobody else uses**: what was not instantiated has its names free, and no
fiber is disturbed. -/
structure Undisturbed (registrations : List (ModuleRegistration ν)) (told : ActivationEvent ν → Prop)
    (activation : Activation ν) : Prop where
  context : activation.context = rootContext
  left : ∀ contribution ∈ activation.left,
    contribution ∈ registrations.flatMap ModuleRegistration.plugins
  published : ∃ entries, Publishes told activation.left entries activation
  reported : activation.Reported (ActivationEvent.heardIn told)

/-! ### Moves -/

/-- A move instantiates the first of what is left, or nothing. -/
theorem left_move {event : ActivationEvent ν} {later : Activation ν}
    (move : activation.Move event later) (lives : later.Live) {contribution : PluginContribution}
    (member : contribution ∈ later.left) : contribution ∈ activation.left := by
  unfold left at member ⊢
  cases move with
  | begun here others =>
    rw [here]
    simp only
    rw [others]
    exact member
  | instantiated here known =>
    rw [here]
    exact List.mem_cons_of_mem _ member
  | completes here =>
    rcases here with ⟨here, _⟩ | here
    · rw [here]
      exact member
    · rw [here]
      exact member
  | fails failure => exact lives.elim
  | still => exact member
  | worked works found awaited unlocked => exact member
  | registers found => exact member
  | scope foreign => exact member
  | all here =>
    rw [here]
    exact member
  | plugins here =>
    rw [here]
    exact member
  | registered here =>
    rw [here]
    exact member
  | fibers here =>
    rw [here]
    exact member
  | starts here =>
    rw [here]
    exact member
  | hooks here =>
    rw [here]
    exact member
  | answered here =>
    rw [here]
    exact member
  | passes here =>
    rw [here]
    exact member
  | drives here =>
    rw [here]
    exact member
  | again here =>
    rw [here]
    exact member
  | driven here =>
    rw [here]
    exact member
  | activated here =>
    rw [here]
    exact member

/-- The awaited fiber works. -/
theorem Undisturbed.worked (distinct : Distinct registrations)
    (stands : Stands registrations activation) (live : activation.Live)
    (aligned : Aligned registrations activation)
    (undisturbed : Undisturbed registrations told activation) {event : ActivationEvent ν}
    (hears : told event) {work : FiberEvent ν} (works : event.work = some work) {index : Nat}
    {held : CapabilityFiber ν} (found : activation.fibers[index]? = some held)
    (awaited : activation.phase.awaited = some index)
    (unlocked : ¬ (activation.tree.poisoned = true ∧ held.locks = true)) :
    ∃ entries, Publishes told activation.left entries { activation with
      tree := (held.step activation.tree work).1
      fibers := activation.fibers.set index (held.step activation.tree work).2 } := by
  obtain ⟨owned, pending, holds⟩ := stands.holds live
  obtain ⟨entries, sole, vacant, fibers⟩ := undisturbed.published
  have member := List.mem_of_getElem? found
  have mine := fibers held member
  have scope := scope_of_context mine.context
  have alive : activation.tree.topology.live held.scope = true := by
    rw [scope, sole.topology]
    rfl
  obtain ⟨started, touches⟩ := mine.started.step mine.unasked alive (ActivationEvent.works works)
    unlocked
  obtain ⟨others, adds, after, moved⟩ := mine.step sole (ActivationEvent.works works)
    ⟨event, hears, works⟩ unlocked started
  refine ⟨others, after, fun contribution inside => ?_, fun fiber inside => ?_⟩
  · refine adds.absent ?_ (vacant contribution inside)
    have nodup := distinct.slots
    rw [← aligned.map fun plugin => plugin.capability.id] at nodup
    exact (List.nodup_append.mp nodup).2.2 _
      (List.mem_map_of_mem (f := fun fiber : CapabilityFiber ν => fiber.definition.capability.id) member)
      _ (List.mem_map_of_mem
        (f := fun contribution : PluginContribution => contribution.plugin.capability.id) inside)
  · obtain ⟨position, here⟩ := List.mem_iff_getElem?.mp inside
    rcases getElem?_of_set here with ⟨_, rfl⟩ | ⟨apart, before⟩
    · exact moved
    · have other := fibers fiber (List.mem_of_getElem? before)
      have free : fiber.transition = .free := by
        refine holds.idle position fiber before ?_
        rw [awaited]
        exact fun same => apart (Option.some.inj same)
      have named := aligned.apart distinct found before apart
      exact other.beside free named adds sole after (other.started.beside free touches named)

/-- A fiber at rest is started. -/
theorem Publishes.begins {left : List PluginContribution} {entries : BTreeMap Id (CapabilityHandle ν)}
    (publishes : Publishes told left entries activation) {awaited : Option Nat}
    {owned : List ActivatedModule} {pending : List (Id × Nat)}
    (holds : Holds activation.registry activation.fibers awaited owned pending)
    (unawaited : awaited = none) (index : Nat) :
    ∀ fiber ∈ activation.fibers.modify index fun held => held.begin activation.tree .start,
      fiber.Undisturbed (ActivationEvent.heardIn told) entries activation.tree := by
  intro fiber member
  rcases mem_of_modify member with before | ⟨held, found, rfl⟩
  · exact publishes.fibers fiber before
  · refine (publishes.fibers held (List.mem_of_getElem? found)).begin ?_
    exact holds.idle index held found (by rw [unawaited]; exact fun same => by cases same)

/-- Others use no scope of the runtime. -/
theorem Publishes.elsewhere {left : List PluginContribution} {entries : BTreeMap Id (CapabilityHandle ν)}
    (publishes : Publishes told left entries activation) :
    Publishes told left entries { activation with tree := (activation.tree.step .elsewhere).2 } := by
  have same : (activation.tree.step .elsewhere).2.topology = activation.tree.topology := by
    simp only [ScopeTree.step]
    split
    · rfl
    · rfl
  refine ⟨publishes.sole.of_topology same, publishes.vacant, fun fiber member => ?_⟩
  have fiberStands := publishes.fibers fiber member
  refine fiberStands.frame same (fiberStands.started.frame
    (fun poisoned => ScopeTree.poisoned_step poisoned .elsewhere)
    (fun publication begun _ found => ScopeTree.pending_step (fun _ same => by cases same) found) ?_)
  rw [same]
  exact fun _ => id

/-- **A move keeps what is published.** -/
theorem Undisturbed.published_move (distinct : Distinct registrations)
    (stands : Stands registrations activation) (live : activation.Live)
    (aligned : Aligned registrations activation)
    (undisturbed : Undisturbed registrations told activation) {event : ActivationEvent ν}
    (hears : told event) (quiet : event.quiet = true) {later : Activation ν}
    (move : activation.Move event later) (lives : later.Live) :
    ∃ entries, Publishes told later.left entries later := by
  have fewer {contribution : PluginContribution} (member : contribution ∈ later.left) :
      contribution ∈ activation.left := left_move move lives member
  obtain ⟨owned, pending, holds⟩ := stands.holds live
  obtain ⟨entries, publishes⟩ := undisturbed.published
  have vacant : ∀ contribution ∈ later.left, contribution.plugin.capability.id ∉ entries :=
    fun contribution member => publishes.vacant contribution (fewer member)
  cases move with
  | worked works found awaited unlocked =>
    exact undisturbed.worked distinct stands live aligned hears works found awaited unlocked
  | registers found =>
    refine ⟨entries, publishes.sole, vacant, fun fiber member => ?_⟩
    rcases List.mem_or_eq_of_mem_set member with before | rfl
    · exact publishes.fibers fiber before
    · exact (publishes.fibers _ (List.mem_of_getElem? found)).register _ _
  | scope foreign =>
    rename_i call
    cases call with
    | elsewhere => exact ⟨entries, publishes.elsewhere⟩
    | _ => cases quiet
  | @instantiated registration current contribution rest fibers here known =>
    refine ⟨entries, publishes.sole, vacant, fun fiber member => ?_⟩
    rcases List.mem_append.mp member with before | now
    · exact publishes.fibers fiber before
    · rw [List.mem_singleton.mp now, undisturbed.context]
      refine CapabilityFiber.undisturbed_new _ _ (publishes.vacant contribution ?_)
      unfold Activation.left
      rw [here]
      exact List.mem_cons_self
  | starts here =>
    exact ⟨entries, publishes.sole, vacant, publishes.begins holds (by rw [here]; rfl) _⟩
  | drives here needs =>
    exact ⟨entries, publishes.sole, vacant, publishes.begins holds (by rw [here]; rfl) _⟩
  | _ => exact ⟨entries, publishes.sole, vacant, publishes.fibers⟩

/-- **A move reports what the plugins returned.** -/
theorem Undisturbed.reported_move (undisturbed : Undisturbed registrations told activation)
    {event : ActivationEvent ν} {later : Activation ν} (move : activation.Move event later)
    (lives : later.Live) : later.Reported (ActivationEvent.heardIn told) := by
  have reported := undisturbed.reported
  obtain ⟨entries, publishes⟩ := undisturbed.published
  unfold Reported at reported ⊢
  cases move with
  | still => exact reported
  | worked works found awaited unlocked => exact reported
  | registers found => exact reported
  | scope foreign => exact reported
  | all here =>
    exact ⟨fun _ member => absurd member List.not_mem_nil, fun _ member => absurd member List.not_mem_nil⟩
  | passes here settled =>
    rw [here] at reported
    exact reported
  | drives here needs =>
    rw [here] at reported
    exact ⟨reported.errors, reported.cleanupErrors⟩
  | again here =>
    rw [here] at reported
    exact reported
  | @driven index snapshot report here rested =>
    rw [here] at reported
    refine ⟨fun entry member => ?_, fun entry member => ?_⟩
    · simp only at member
      split at member
      · rename_i error answered
        rcases List.mem_append.mp member with before | now
        · exact reported.errors entry before
        · rw [List.mem_singleton.mp now]
          unfold answerOf at answered
          obtain ⟨fiber, found, last⟩ := Option.bind_eq_some_iff.mp answered
          exact (publishes.fibers fiber (List.mem_of_getElem? found)).answered error last
      · exact reported.errors entry member
    · rcases List.mem_append.mp member with before | now
      · exact reported.cleanupErrors entry before
      · unfold cleanupErrorsOf at now
        split at now
        · rename_i held found
          split at now
          · exact absurd now List.not_mem_nil
          · rw [List.mem_singleton.mp now]
            exact (publishes.fibers held (List.mem_of_getElem? found)).cleaned
        · exact absurd now List.not_mem_nil
  | fails failure => exact lives.elim
  | _ => trivial

/-! ### Failures -/

/-- No plugin is registered twice. -/
theorem unregistered (distinct : Distinct registrations) (stands : Stands registrations activation)
    (aligned : Aligned registrations activation) {registration : ModuleRegistration ν}
    {current : ActivatedModule} {contribution : PluginContribution} {rest : List PluginContribution}
    (here : activation.phase = .module registration current (.registering (contribution :: rest))) :
    contribution.plugin.id ∉ activation.registry := by
  unfold Stands at stands
  rw [here] at stands
  obtain ⟨begun, _, holds, _, fits⟩ := stands
  rw [holds.registered]
  intro member
  obtain ⟨module, inside, named⟩ := List.mem_flatMap.mp member
  rcases List.mem_append.mp inside with done | now
  · -- A complete module has a fiber for each of its plugins, and this one has none yet.
    rw [← begun.started module done] at named
    obtain ⟨entry, listed, same⟩ := List.mem_map.mp named
    obtain ⟨fiber, found, identity⟩ := holds.placed entry
      (List.mem_append_left _ (List.mem_flatMap.mpr ⟨module, inside, listed⟩))
    have mine : contribution.plugin.id ∈ registration.pluginIds := by
      rw [← fits]
      exact List.mem_append_right _ List.mem_cons_self
    obtain ⟨other, contributes, again⟩ := List.mem_map.mp mine
    have waits : other ∈ left activation := by
      unfold left
      rw [here]
      exact List.mem_append_left _ contributes
    exact aligned.unbegun distinct waits (List.mem_of_getElem? found)
      ((identity.trans same).trans again.symm)
  · rw [List.mem_singleton.mp now] at named
    have nodup : registration.pluginIds.Nodup := by
      have all := distinct.plugins
      rw [List.map_flatMap] at all
      exact (List.nodup_flatMap.mp all).1 registration (aligned.current _ _ _ here)
    rw [← fits] at nodup
    exact (List.nodup_append.mp nodup).2.2 _ named _ List.mem_cons_self rfl

/-- The plugins of a module are registered when its fibers are instantiated. -/
theorem registered (stands : Stands registrations activation) {registration : ModuleRegistration ν}
    {current : ActivatedModule} {contribution : PluginContribution} {rest : List PluginContribution}
    {fibers : List (Id × Nat)} (here : activation.phase =
      .module registration current (.instantiating (contribution :: rest) fibers)) :
    contribution.plugin.id ∈ activation.registry := by
  unfold Stands at stands
  rw [here] at stands
  obtain ⟨_, _, holds, _, _, fits⟩ := stands
  rw [holds.registered]
  refine List.mem_flatMap.mpr ⟨current, List.mem_append_right _ List.mem_cons_self, ?_⟩
  rw [← fits]
  exact List.mem_append_right _ List.mem_cons_self

/-- **A failure is the host's.** -/
theorem Undisturbed.hosted (distinct : Distinct registrations)
    (stands : Stands registrations activation) (aligned : Aligned registrations activation)
    (undisturbed : Undisturbed registrations told activation) {event : ActivationEvent ν}
    (hears : told event) {owned : List ActivatedModule} {cause : CompositionError}
    (failure : activation.Failure event owned cause) :
    cause.Hosted (registrations.flatMap ModuleRegistration.plugins) told := by
  obtain ⟨entries, publishes⟩ := undisturbed.published
  cases failure with
  | duplicate here known => exact absurd known (unregistered distinct stands aligned here)
  | unknown here absent => exact absurd (registered stands here) absent
  | @invalid registration current contribution rest fibers reason here refused =>
    refine ⟨contribution, undisturbed.left contribution ?_, rfl, reason, refused, rfl⟩
    unfold Activation.left
    rw [here]
    exact List.mem_cons_self
  | start here answered =>
    unfold answerOf at answered
    obtain ⟨fiber, found, last⟩ := Option.bind_eq_some_iff.mp answered
    exact (publishes.fibers fiber (List.mem_of_getElem? found)).answered _ last
  | hook reason here => exact hears
  | @reconciliation report here fails =>
    have reported := undisturbed.reported
    unfold Reported at reported
    rw [here] at reported
    refine ⟨?_, fun error member => ?_, fun each member => ?_⟩
    · by_contra none_
      obtain ⟨errors, cleanupErrors⟩ := not_or.mp none_
      rw [not_not, List.map_eq_nil_iff] at errors cleanupErrors
      unfold ReconcileReport.isSuccess at fails
      rw [errors, cleanupErrors] at fails
      cases fails
    · obtain ⟨entry, inside, rfl⟩ := List.mem_map.mp member
      exact reported.errors entry inside
    · obtain ⟨entry, inside, rfl⟩ := List.mem_map.mp member
      exact reported.cleanupErrors entry inside

/-! ### Runs -/

theorem cause_of_retreats {later : Activation ν} {cause : CompositionError}
    (retreats : Retreats activation later cause) : later.phase.cause = some cause := by
  rcases retreats.phase with ⟨ledger, wait, here⟩ | ⟨report, here⟩
  · rw [here]
    rfl
  · rw [here]
    rfl

/-- **A rollback keeps its cause.** -/
theorem cause_step {cause : CompositionError} (rolls : activation.phase.cause = some cause)
    (event : ActivationEvent ν) : (activation.step event).phase.cause = some cause := by
  have kept (same : (activation.step event).phase = activation.phase) :
      (activation.step event).phase.cause = some cause := by
    rw [same]
    exact rolls
  cases event with
  | advance =>
    simp only [step] at kept ⊢
    split
    · rename_i ready
      rw [if_pos ready] at kept
      unfold advance at kept ⊢
      cases here : activation.phase with
      | rollingBack other ledger wait =>
        rw [here] at rolls
        cases rolls
        exact cause_of_retreats (retreats_rollBack here)
      | failed other report =>
        rw [here] at kept
        exact kept here
      | _ =>
        rw [here] at rolls
        cases rolls
    · rename_i busy
      rw [if_neg busy] at kept
      exact kept (phase_awaitedStep _)
  | returned result => exact kept (phase_awaitedStep _)
  | cleaned result => exact kept (phase_awaitedStep _)
  | hook result =>
    simp only [step, hook] at kept ⊢
    split
    · rename_i here
      rw [here] at rolls
      cases rolls
    · rename_i other ledger here
      rw [here] at rolls
      cases rolls
      exact cause_of_retreats (retreats_settle here result)
    · exact rolls
  | register index stack label =>
    refine kept ?_
    simp only [step, fiberStep]
    split
    · rfl
    · rfl
  | scope call =>
    refine kept ?_
    simp only [step]
    split
    · rfl
    · rfl

theorem cause_of_live (live : activation.Live) : activation.phase.cause = none := by
  unfold Live at live
  unfold ActivationPhase.cause
  split
  · rename_i here
    rw [here] at live
    exact live.elim
  · rename_i here
    rw [here] at live
    exact live.elim
  · rfl

/-- A cause comes with a failure. -/
theorem failure_of_move (live : activation.Live) {event : ActivationEvent ν} {later : Activation ν}
    (move : activation.Move event later) {cause : CompositionError}
    (failed : later.phase.cause = some cause) : ∃ owned, activation.Failure event owned cause := by
  have same (kept : later.phase = activation.phase) :
      ∃ owned, activation.Failure event owned cause := by
    rw [kept, cause_of_live live] at failed
    cases failed
  cases move with
  | fails failure =>
    cases failed
    exact ⟨_, failure⟩
  | still => exact same rfl
  | worked => exact same rfl
  | registers => exact same rfl
  | scope => exact same rfl
  | _ => cases failed

/-- **What a run keeps** in which nobody but the fibers uses the scope of the runtime. -/
structure Hosts (registrations : List (ModuleRegistration ν)) (told : ActivationEvent ν → Prop)
    (activation : Activation ν) : Prop where
  stands : Stands registrations activation
  aligned : activation.Live → Aligned registrations activation
  undisturbed : activation.Live → Undisturbed registrations told activation
  hosted : ∀ cause, activation.phase.cause = some cause →
    cause.Hosted (registrations.flatMap ModuleRegistration.plugins) told

/-- **A step keeps it.** -/
theorem Hosts.step (distinct : Distinct registrations) (hosts : Hosts registrations told activation)
    {event : ActivationEvent ν} (hears : told event) (quiet : event.quiet = true) :
    Hosts registrations told (activation.step event) where
  stands := stands_step distinct.modules hosts.stands event
  aligned := Aligned.step hosts.stands event hosts.aligned
  undisturbed := by
    intro lives
    have live := live_of_step lives
    have move := move_step live event
    have undisturbed := hosts.undisturbed live
    refine ⟨(context_move move).trans undisturbed.context, fun contribution member => ?_, ?_, ?_⟩
    · exact undisturbed.left contribution (left_move move lives member)
    · exact undisturbed.published_move distinct hosts.stands live (hosts.aligned live) hears quiet move
        lives
    · exact undisturbed.reported_move move lives
  hosted := by
    intro cause failed
    by_cases live : activation.Live
    · obtain ⟨owned, failure⟩ := failure_of_move live (move_step live event) failed
      exact (hosts.undisturbed live).hosted distinct hosts.stands (hosts.aligned live) hears failure
    · cases known : activation.phase.cause with
      | some other =>
        rw [cause_step known] at failed
        exact hosts.hosted cause (known.trans failed)
      | none =>
        unfold Live at live
        unfold ActivationPhase.cause at known
        split at live
        · rename_i here
          rw [here] at known
          cases known
        · rename_i here
          rw [here] at known
          cases known
        · exact absurd trivial live

/-- **A run keeps it.** -/
theorem Hosts.run (distinct : Distinct registrations) (hosts : Hosts registrations told activation)
    {events : List (ActivationEvent ν)} (hears : ∀ event ∈ events, told event)
    (quiet : events.all ActivationEvent.quiet = true) :
    Hosts registrations told (activation.run events) := by
  induction events generalizing activation with
  | nil => exact hosts
  | cons event rest ih =>
    rw [List.all_cons, Bool.and_eq_true] at quiet
    exact ih (hosts.step distinct (hears event List.mem_cons_self) quiet.1)
      (fun other member => hears other (List.mem_cons_of_mem _ member)) quiet.2

/-- What holds at the start. -/
theorem hosts_start (plan : CompositionPlan ν) {scope : Scope ν} (nextEntryId : Nat)
    {definitions : BTreeMap Id CapabilityDefinition} (rooted : Scope.RootOf definitions scope)
    (standing : Standing definitions)
    (vacant : ∀ contribution ∈ plan.registrations.flatMap ModuleRegistration.plugins,
      contribution.plugin.capability.id ∉ definitions) :
    Hosts plan.registrations told (Activation.start plan (.ofScope scope nextEntryId)) where
  stands := stands_start plan _
  aligned := fun _ => aligned_start plan _
  undisturbed := by
    intro live
    have same : definitionsOf scope.own.entries = definitions :=
      ExtTreeMap.ext_getElem? fun id => lookup_definitionsOf.trans (rooted.entries id)
    refine ⟨rfl, fun _ => id, ⟨scope.own.entries, ⟨rfl, same ▸ standing⟩, fun contribution member => ?_,
      fun _ member => absurd member List.not_mem_nil⟩, trivial⟩
    exact fun held => vacant contribution member (rooted.mem_entries.mp held)
  hosted := fun _ failed => by cases failed

end Activation

/-! ### Plans -/

namespace CompositionPlan

/-- **How the construction of a runtime fails**: a required key is not there, the factory of a declared
capability failed, or the store did. -/
inductive ConstructionFails (plan : CompositionPlan ν) (config : HostConfig) : CompositionError → Prop
  | configuration {moduleId : Id} {requirement : ConfigRequirement}
      (requires : (moduleId, requirement) ∈ contributed plan.modules
        fun registration => registration.definition.configRequirements)
      (required : requirement.required = true) (missing : config.contains requirement.key = false) :
      ConstructionFails plan config (.missingConfiguration moduleId requirement.key)
  | factory {declaration : CapabilityDeclaration} (declared : declaration ∈ plan.definition.capabilities)
      {factory : CapabilityFactory ν} {dependencies : ResolvedDependencies ν} {reason : Text}
      (registered : plan.factories.factoryFor declaration.id declaration.definitionIdentity =
        some factory) (fails : factory dependencies = .error reason) :
      ConstructionFails plan config (.runtimeConstructionFailed .start
        (.factory (.constructionFailed declaration.id declaration.definitionIdentity reason)))
  | store (source : StoreError) :
      ConstructionFails plan config (.runtimeConstructionFailed .start (.store source))

/-- **A plan that fails only through host code.** Its definition is valid and materializes nothing, its
factories are complete, the runtime is constructed unless the configuration, a factory or the store fails,
and an activation fails with what host code returned, as long as nobody else uses the scope. -/
structure Blameless (plan : CompositionPlan ν) : Prop where
  valid : ∃ validated, plan.definition.validated = .ok validated ∧
    Indexes CapabilityDeclaration.id plan.definition.capabilities validated.capabilities ∧
      plan.factories.validate validated = .ok ()
  complete : ∀ declaration ∈ plan.definition.capabilities,
    plan.factories.contains declaration.id declaration.definitionIdentity = true
  constructed : ∀ {σ : Type} [DurableStore σ] (runId : RunId) (config : HostConfig) (firstEntry : Nat)
    (store reached : σ) (error : CompositionError),
    plan.startRuntime runId config firstEntry store = (.error error, reached) →
      plan.ConstructionFails config error
  activated : ∀ {σ : Type} [DurableStore σ] (runId : RunId) (config : HostConfig) (firstEntry : Nat)
    (store reached : σ) (runtime : Runtime σ ν),
    plan.startRuntime runId config firstEntry store = (.ok runtime, reached) →
      ∀ (nextEntryId : Nat) (events : List (ActivationEvent ν)),
        events.all ActivationEvent.quiet = true → ∀ cause,
          ((Activation.start plan (.ofScope runtime.scope nextEntryId)).run events).phase.cause =
              some cause →
            cause.Hosted (plan.registrations.flatMap ModuleRegistration.plugins) (· ∈ events)

end CompositionPlan

namespace Plans

variable {builder : CompositionBuilder ν} {plan : CompositionPlan ν}

/-- What a missing key comes to. -/
theorem validateHost_error {config : HostConfig} {error : CompositionError}
    (refused : plan.validateHost config = .error error) : plan.ConstructionFails config error := by
  obtain ⟨⟨moduleId, requirement⟩, member, same⟩ := exists_error_of_forM refused
  simp only at same
  split at same
  · rename_i missing
    cases same
    exact .configuration member missing.1 (Bool.eq_false_iff.mpr missing.2)
  · cases same

/-- A runtime is constructed unless the host fails. -/
theorem startRuntime_error {σ : Type} [DurableStore σ] (plans : Plans builder.modules plan)
    {runId : RunId} {config : HostConfig} {firstEntry : Nat} {store reached : σ}
    {error : CompositionError}
    (fails : plan.startRuntime runId config firstEntry store = (.error error, reached)) :
    plan.ConstructionFails config error := by
  obtain ⟨validated, valid, indexes⟩ := plans.validates
  obtain ⟨declared, checks⟩ := validated_iff.mp valid
  unfold CompositionPlan.startRuntime at fails
  rcases Fallible.bind_error.mp fails with refused | ⟨_, _, fine, fails⟩
  · rw [Fallible.run_lift] at refused
    exact validateHost_error (Prod.mk.inj refused).1
  · split at fails
    · rename_i source middle constructs
      cases fails
      rcases Runtime.startFromDefinition_error checks (plans.covers indexes) constructs with
        ⟨capability, member, factory, dependencies, reason, registered, refused, rfl⟩ | ⟨source, rfl⟩
      · obtain ⟨id, found⟩ := mem_valuesOf.mp member
        exact .factory ((indexes.agrees _ _).mp found).1 registered refused
      · exact .store source
    · cases fails

/-- A reconstructed scope publishes what is declared. -/
theorem reconstructed_scope (plans : Plans builder.modules plan) {validated : ValidatedRunDefinition}
    (valid : plan.definition.validated = .ok validated) {firstEntry : Nat} {scope : Scope ν}
    (made : reconstructScope validated plan.factories firstEntry = .ok scope) :
    ∃ definitions, Scope.RootOf definitions scope ∧ Standing definitions ∧
      ∀ contribution ∈ plan.registrations.flatMap ModuleRegistration.plugins,
        contribution.plugin.capability.id ∉ definitions := by
  obtain ⟨other, again, indexes⟩ := plans.validates
  obtain rfl : validated = other := Except.ok.inj (valid.symm.trans again)
  obtain ⟨declared, checks⟩ := validated_iff.mp valid
  rcases reconstructScope_cases checks (plans.covers indexes) firstEntry with
    ⟨_, refused, _⟩ | ⟨same, definitions, constructs, rooted, standing, known⟩
  · rw [made] at refused
    cases refused
  · obtain rfl : scope = same := Except.ok.inj (made.symm.trans constructs)
    refine ⟨definitions, rooted, standing, fun contribution member published => ?_⟩
    obtain ⟨declaration, found⟩ := exists_lookup_of_mem (known _ published)
    obtain ⟨listed, named⟩ := (indexes.agrees _ _).mp found
    obtain ⟨entry, inside, rfl⟩ := List.mem_map.mp (plans.contributions.subset member)
    exact plans.undeclared inside listed named

end Plans

/-- **A runtime that a plan constructs**, for a fresh run or for a durable one. -/
inductive CompositionPlan.Constructs {σ : Type} [DurableStore σ] (plan : CompositionPlan ν)
    (runtime : Runtime σ ν) : Prop
  | started {runId : RunId} {config : HostConfig} {firstEntry : Nat} {store reached : σ}
      (starts : plan.startRuntime runId config firstEntry store = (.ok runtime, reached)) :
      Constructs plan runtime
  | restored {runId : RunId} {config : HostConfig} {firstEntry : Nat} {store : σ}
      (restores : plan.restoreRuntime runId config firstEntry store = .ok runtime) :
      Constructs plan runtime

/-- The scope of a constructed runtime is reconstructed from the definition. -/
theorem CompositionPlan.Constructs.scope {σ : Type} [DurableStore σ] {plan : CompositionPlan ν}
    {runtime : Runtime σ ν} (constructs : plan.Constructs runtime) :
    ∃ validated firstEntry, plan.definition.validated = .ok validated ∧
      reconstructScope validated plan.factories firstEntry = .ok runtime.scope := by
  cases constructs with
  | started starts =>
    unfold CompositionPlan.startRuntime at starts
    obtain ⟨_, _, fine, starts⟩ := Fallible.bind_ok.mp starts
    split at starts
    · cases starts
    · rename_i constructed
      cases starts
      obtain ⟨validated, workflow, taskConfigs, scope, valid, _, _, made, identified⟩ :=
        Runtime.startFromDefinition_ok.mp constructed
      obtain ⟨_, _, _, _, _, _, rfl⟩ := Runtime.startWithIdentity_ok.mp identified
      exact ⟨validated, _, valid, made⟩
  | restored restores =>
    unfold CompositionPlan.restoreRuntime at restores
    obtain ⟨_, fine, restores⟩ := except_bind_ok.mp restores
    obtain ⟨validated, state, workflow, taskConfigs, scope, valid, _, _, _, _, made, loaded⟩ :=
      Runtime.restoreFromDefinition_ok.mp (except_mapError_ok.mp restores)
    obtain ⟨_, _, _, _, _, _, rfl⟩ := Runtime.restoreLoaded_ok.mp loaded
    exact ⟨validated, _, valid, made⟩

/-- **A built plan can fail only through host code.** -/
theorem built_blameless {builder : CompositionBuilder ν} {plan : CompositionPlan ν}
    (built : builder.build = .ok plan) : plan.Blameless := by
  have plans := plans_iff.mp built
  obtain ⟨validated, valid, indexes⟩ := plans.validates
  refine ⟨⟨validated, valid, indexes, plans.covers indexes⟩, fun _ => plans.served,
    fun _ _ _ _ _ _ => plans.startRuntime_error, ?_⟩
  intro σ _ runId config firstEntry store reached runtime starts nextEntryId events quiet cause failed
  obtain ⟨_, _, valid, made⟩ := (CompositionPlan.Constructs.started starts).scope
  obtain ⟨definitions, rooted, standing, vacant⟩ := plans.reconstructed_scope valid made
  exact ((Activation.hosts_start plan nextEntryId rooted standing vacant).run plans.distinct
    (fun _ => id) quiet).hosted cause failed

/-- A module that needs a key, and declares a capability for its task, with the factory. -/
def sampleProvider : ModuleRegistration Unit :=
  ⟨⟨sampleA, [], [⟨sampleTask, [], [], [⟨sampleAA, ⟨"provider".toList⟩⟩], none⟩],
    [.declarative ⟨sampleAA, "sample".toList, ⟨"provider".toList⟩, []⟩], [⟨sampleD, true⟩]⟩,
    [⟨sampleAA, ⟨"provider".toList⟩, fun _ => .ok ()⟩], [], false, false⟩

/-- A plugin that requires the declared capability. -/
def sampleDependent : PluginDefinition := ⟨sampleB, sampleDefinition sampleB [sampleAA], fun _ => .ok ()⟩

/-- A configuration with the key. -/
def sampleConfig : HostConfig := ⟨(∅ : BTreeMap Id Text).insert sampleD []⟩

/-- The first module is activated, and the factory of the plugin fails. -/
def samplePluginFails : List (ActivationEvent Unit) :=
  .replicate 11 .advance ++ [.returned (.error [])] ++ .replicate 8 .advance

/-- Without its key the plan constructs no runtime. With it the capability is constructed, and a plugin
that fails is the one cause of a failed activation. -/
theorem built_blameless_sample :
    let _ := Persisted.postcard
    ∃ builder plan missing runtime cause,
      CompositionBuilder.registerAll [sampleProvider, sampleModule sampleB [sampleA] [sampleDependent]] =
        .ok builder ∧ builder.build = .ok plan ∧
      (∃ validated, plan.definition.validated = .ok validated ∧
        plan.factories.validate validated = .ok ()) ∧
      (plan.startRuntime sampleRun ⟨∅⟩ 1 InMemoryDurableStore.new).1 = .error missing ∧
      plan.ConstructionFails ⟨∅⟩ missing ∧
      (plan.startRuntime sampleRun sampleConfig 1 InMemoryDurableStore.new).1 = .ok runtime ∧
      ((Activation.start plan (.ofScope runtime.scope 2)).run samplePluginFails).phase.cause =
        some cause ∧
      cause.Hosted (plan.registrations.flatMap ModuleRegistration.plugins) (· ∈ samplePluginFails) := by
  intro _
  obtain ⟨builder, made, built⟩ := exists_ok_of_any
    (show ((CompositionBuilder.registerAll [sampleProvider,
      sampleModule sampleB [sampleA] [sampleDependent]]).toOption.any fun builder =>
      builder.build.toOption.any fun plan =>
        (plan.startRuntime sampleRun ⟨∅⟩ 1 InMemoryDurableStore.new).1.toOption.isNone &&
          (plan.startRuntime sampleRun sampleConfig 1 InMemoryDurableStore.new).1.toOption.any
            fun runtime => ((Activation.start plan (.ofScope runtime.scope 2)).run
              samplePluginFails).phase.cause.isSome) = true by decide +kernel)
  obtain ⟨plan, built, fine⟩ := exists_ok_of_any built
  obtain ⟨refused, starts⟩ := Bool.and_eq_true_iff.mp fine
  obtain ⟨runtime, started, fails⟩ := exists_ok_of_any starts
  obtain ⟨cause, failed⟩ := Option.isSome_iff_exists.mp fails
  have blameless := built_blameless built
  obtain ⟨validated, valid, _, covered⟩ := blameless.valid
  cases missed : (plan.startRuntime sampleRun ⟨∅⟩ 1 InMemoryDurableStore.new).1 with
  | ok other =>
    rw [missed] at refused
    cases refused
  | error missing =>
    exact ⟨builder, plan, missing, runtime, cause, made, built, ⟨validated, valid, covered⟩, missed,
      blameless.constructed _ _ _ _ _ _ (Prod.ext missed rfl), started, failed,
      blameless.activated _ _ _ _ _ _ (Prod.ext started rfl) _ _ (by decide) _ failed⟩

/-- **The activation of a composition that was started or restored**: no plugin's slot is published in the
scope of the constructed runtime. In a run that favours the activation the hooks run with active plugins,
and it succeeds with every slot published there. Without other callers it fails only through host
code. -/
theorem constructed_activation {builder : CompositionBuilder ν} {plan : CompositionPlan ν}
    (built : builder.build = .ok plan) {σ : Type} [DurableStore σ] {runtime : Runtime σ ν}
    (constructs : plan.Constructs runtime) (nextEntryId : Nat) (events : List (ActivationEvent ν)) :
    let activation := (Activation.start plan (.ofScope runtime.scope nextEntryId)).run events
    (∀ entry ∈ contributed builder.modules ModuleRegistration.plugins,
      entry.2.plugin.capability.id ∉ runtime.scope.own.entries) ∧
    ((Activation.start plan (.ofScope runtime.scope nextEntryId)).favours false events = true →
      activation.Active builder.modules) ∧
    (events.all ActivationEvent.quiet = true → ∀ cause, activation.phase.cause = some cause →
      cause.Hosted (plan.registrations.flatMap ModuleRegistration.plugins) (· ∈ events)) := by
  intro activation
  have plans := plans_iff.mp built
  obtain ⟨_, _, valid, made⟩ := constructs.scope
  obtain ⟨definitions, rooted, standing, vacant⟩ := plans.reconstructed_scope valid made
  refine ⟨fun entry member published => ?_, plans.active runtime.scope nextEntryId events,
    fun quiet cause failed => ?_⟩
  · refine vacant entry.2 ?_ (rooted.mem_entries.mp published)
    exact plans.contributions.symm.subset (List.mem_map_of_mem member)
  · exact ((Activation.hosts_start plan nextEntryId rooted standing vacant).run plans.distinct
      (fun _ => id) quiet).hosted cause failed

end Kernis
