/-
**How the fibers of an activation fare.**

A start of a fiber whose dependencies are missing succeeds and leaves it pending. So an activate hook may
run before the plugins of its module are active, and an activation may end with plugins that never were.

* `Activation.favours` — the runs in which neither happens: no fiber of a module with an activate hook
  misses a dependency, the last round of the reconciliation comes upon no fiber whose dependencies do not
  resolve, and nobody takes the slot of an active fiber.
* `Fares.started_move` — the publications and the slots of the fibers, over every move.
* `Calm` — the states of the fibers in each phase; `Fares.calm_move`.
-/

import Kernis.Capability.Started
import Kernis.Composition.Moves

namespace Kernis

open Std

variable {ν : Type}

namespace Activation

/-! ### Runs without missing dependencies -/

/-- Whether a module with an activate hook waits for a fiber that is at the head of its loop and misses a
dependency. -/
def misses (activation : Activation ν) : ActivationEvent ν → Bool
  | .advance =>
    match activation.phase with
    | .module registration _ (.awaiting _ index _) => registration.onActivate &&
      activation.fibers[index]?.any (CapabilityFiber.misses activation.tree)
    | _ => false
  | _ => false

/-- Whether the round of the reconciliation has come upon a fiber whose dependencies do not resolve. -/
def overlooks (activation : Activation ν) (overlooked : Bool) : ActivationEvent ν → Bool
  | .advance =>
    match activation.phase with
    | .reconciling (index :: _) _ _ =>
      overlooked || activation.fibers[index]?.any (CapabilityFiber.lacks activation.tree)
    | .reconciling [] _ _ => false
    | _ => overlooked
  | _ => overlooked

/-- Whether a round of the reconciliation ends that drove no fiber. -/
def ends (activation : Activation ν) : ActivationEvent ν → Bool
  | .advance =>
    match activation.phase with
    | .reconciling [] false _ => true
    | _ => false
  | _ => false

/-- Whether a call of others takes the slot of an active fiber. -/
def takes (activation : Activation ν) : ActivationEvent ν → Bool
  | .scope call => activation.foreign call && activation.fibers.any fun held =>
    held.state = .active && held.definition.capability.id ∉
      ((activation.tree.step call).2.topology.level held.scope).entries
  | _ => false

/-- **A run in which no dependency is missing** where the activation does not look again, and nobody takes
the slot of an active fiber. `overlooked` says what the round has come upon. -/
def favours (activation : Activation ν) (overlooked : Bool) : List (ActivationEvent ν) → Bool
  | [] => true
  | event :: rest => !activation.misses event && !(activation.ends event && overlooked) &&
    !activation.takes event &&
      (activation.step event).favours (activation.overlooks overlooked event) rest

variable {activation : Activation ν} {registrations : List (ModuleRegistration ν)}

/-! ### The fibers of a plan -/

/-- The contributions of some modules have distinct plugins and distinct slots. -/
structure Distinct (registrations : List (ModuleRegistration ν)) : Prop where
  modules : (registrations.map fun registration => registration.definition.id).Nodup
  plugins : ((registrations.flatMap ModuleRegistration.plugins).map
    fun contribution => contribution.plugin.id).Nodup
  slots : ((registrations.flatMap ModuleRegistration.plugins).map
    fun contribution => contribution.plugin.capability.id).Nodup

/-- What is read off the plugins of the contributions. -/
theorem Aligned.map {α : Type} (aligned : Aligned registrations activation)
    (read : PluginDefinition → α) :
    activation.fibers.map (fun fiber => read fiber.definition) ++
      activation.left.map (fun contribution => read contribution.plugin) =
        (registrations.flatMap ModuleRegistration.plugins).map
          fun contribution => read contribution.plugin := by
  have same := congrArg (List.map fun face => read (Prod.fst face)) aligned.fibers
  rw [List.map_append, List.map_map, List.map_map, List.map_map] at same
  exact same

/-- All fibers are in the context of the runtime. -/
theorem Aligned.context (aligned : Aligned registrations activation) {fiber : CapabilityFiber ν}
    (member : fiber ∈ activation.fibers) : fiber.context = activation.context := by
  have inside : fiber.face ∈ (registrations.flatMap ModuleRegistration.plugins).map
      activation.placed := by
    rw [← aligned.fibers]
    exact List.mem_append_left _ (List.mem_map_of_mem member)
  obtain ⟨contribution, _, same⟩ := List.mem_map.mp inside
  exact (congrArg Prod.snd same).symm

/-- No two fibers have one slot. -/
theorem Aligned.apart (aligned : Aligned registrations activation) (distinct : Distinct registrations)
    {one other : Nat} {first second : CapabilityFiber ν} (found : activation.fibers[one]? = some first)
    (another : activation.fibers[other]? = some second) (apart : one ≠ other) :
    first.definition.capability.id ≠ second.definition.capability.id := by
  have nodup := distinct.slots
  rw [← aligned.map fun plugin => plugin.capability.id] at nodup
  have ids := (List.nodup_append.mp nodup).1
  intro same
  refine apart ((List.getElem?_inj ?_ ids).mp ?_)
  · rw [List.length_map]
    exact (List.getElem?_eq_some_iff.mp found).1
  · rw [List.getElem?_map, List.getElem?_map, found, another]
    exact congrArg some same

/-- A module that was not begun has no fibers. -/
theorem Aligned.unbegun (aligned : Aligned registrations activation) (distinct : Distinct registrations)
    {contribution : PluginContribution} (member : contribution ∈ activation.left)
    {fiber : CapabilityFiber ν} (inside : fiber ∈ activation.fibers) :
    fiber.definition.id ≠ contribution.plugin.id := by
  have nodup := distinct.plugins
  rw [← aligned.map PluginDefinition.id] at nodup
  exact (List.nodup_append.mp nodup).2.2 _ (List.mem_map_of_mem inside) _
    (List.mem_map_of_mem member)

end Activation

/-! ### How the fibers fare -/

/-- The fibers of a module that no start was called on. -/
def ModulePhase.waiting : ModulePhase → List (Id × Nat)
  | .registering _ | .hooking => []
  | .instantiating _ fibers | .starting fibers => fibers
  | .awaiting _ _ rest => rest

/-- The fiber that a module waits for. -/
def ModulePhase.awaits : ModulePhase → Option Nat
  | .awaiting _ index _ => some index
  | _ => none

/-- A fiber whose start succeeded; one of a module with an activate hook is active. -/
structure CapabilityFiber.Served (registration : ModuleRegistration ν) (fiber : CapabilityFiber ν) :
    Prop where
  answered : fiber.answers ≠ []
  fine : fiber.state ≠ .failed
  active : registration.onActivate = true → fiber.definition.id ∈ registration.pluginIds →
    fiber.state = .active

/-- **How the fibers fare while a module is activated.** -/
structure ModulePhase.Calm (registration : ModuleRegistration ν) (fibers : List (CapabilityFiber ν))
    (phase : ModulePhase) : Prop where
  waits : ∀ entry ∈ phase.waiting, ∀ fiber, fibers[entry.2]? = some fiber → fiber.state = .pending
  rises : ∀ index, phase.awaits = some index → registration.onActivate = true →
    ∀ fiber, fibers[index]? = some fiber → fiber.Rising
  served : ∀ index fiber, fibers[index]? = some fiber → index ∉ phase.pending.map Prod.snd →
    fiber.Served registration
  hooked : phase = .hooking → registration.onActivate = true

namespace Activation

variable {activation : Activation ν} {registrations : List (ModuleRegistration ν)}

/-- **How the fibers fare**, in each phase. -/
def Calm (overlooked : Bool) (activation : Activation ν) : Prop :=
  match activation.phase with
  | .next => ∀ fiber ∈ activation.fibers, fiber.answers ≠ [] ∧ fiber.state ≠ .failed
  | .module registration _ phase => phase.Calm registration activation.fibers
  | .reconciling snapshot drove report =>
    (∀ fiber ∈ activation.fibers, fiber.answers ≠ []) ∧
      (report.errors = [] → ∀ fiber ∈ activation.fibers, fiber.state ≠ .failed) ∧
      (drove = false → overlooked = false → ∀ (index : Nat) (fiber : CapabilityFiber ν),
        activation.fibers[index]? = some fiber → index ∉ snapshot →
          fiber.state = .active ∨ fiber.state = .failed)
  | .driving index _ report =>
    (∀ fiber ∈ activation.fibers, fiber.answers ≠ []) ∧
      (report.errors = [] → ∀ (position : Nat) (fiber : CapabilityFiber ν),
        activation.fibers[position]? = some fiber → position ≠ index → fiber.state ≠ .failed)
  | .rollingBack _ _ _ | .failed _ _ => True
  | .activated => ∀ fiber ∈ activation.fibers, fiber.state = .active

/-- **How an activation fares.** -/
structure Fares (overlooked : Bool) (activation : Activation ν) : Prop where
  context : activation.context = [⟨0, ∅, ∅⟩]
  live : activation.tree.topology.live 0 = true
  started : ∀ fiber ∈ activation.fibers, fiber.Started activation.tree
  calm : activation.Calm overlooked

/-! ### Publications and slots -/

/-- A fiber after one of them has changed. -/
theorem getElem?_of_modify {fibers : List (CapabilityFiber ν)} {index position : Nat}
    {change : CapabilityFiber ν → CapabilityFiber ν} {fiber : CapabilityFiber ν}
    (found : (fibers.modify index change)[position]? = some fiber) :
    index ≠ position ∧ fibers[position]? = some fiber ∨
      index = position ∧ ∃ held, fibers[index]? = some held ∧ fiber = change held := by
  rw [List.getElem?_modify] at found
  split at found
  · rename_i same
    subst same
    obtain ⟨held, here, changed⟩ := Option.map_eq_some_iff.mp found
    exact .inr ⟨rfl, held, here, changed.symm⟩
  · rename_i apart
    rw [id_map'] at found
    exact .inl ⟨apart, found⟩

theorem mem_of_modify {fibers : List (CapabilityFiber ν)} {index : Nat}
    {change : CapabilityFiber ν → CapabilityFiber ν} {fiber : CapabilityFiber ν}
    (member : fiber ∈ fibers.modify index change) :
    fiber ∈ fibers ∨ ∃ held, fibers[index]? = some held ∧ fiber = change held := by
  obtain ⟨position, found⟩ := List.mem_iff_getElem?.mp member
  rcases getElem?_of_modify found with ⟨_, before⟩ | ⟨_, changed⟩
  · exact .inl (List.mem_of_getElem? before)
  · exact .inr changed

/-- All fibers are in the root scope. -/
theorem scope_of_context {fiber : CapabilityFiber ν} (context : fiber.context = [⟨0, ∅, ∅⟩]) :
    fiber.scope = 0 := by
  unfold CapabilityFiber.scope
  rw [context]
  rfl

/-- A call of others completes no publication of the fibers and releases no scope of theirs. -/
theorem Fares.scope {overlooked : Bool} (fares : Fares overlooked activation)
    {call : ScopeCall ν} (foreign : activation.foreign call = true) (untaken : activation.takes (.scope call) = false) :
    (activation.tree.step call).2.topology.live 0 = true ∧
      ∀ fiber ∈ activation.fibers, fiber.Started (activation.tree.step call).2 := by
  refine ⟨(ScopeTree.step_kept fares.live ?_).1, fun fiber member => ?_⟩
  · rintro rfl
    unfold Activation.foreign at foreign
    simp only at foreign
    rw [fares.context] at foreign
    exact absurd foreign (by decide)
  · refine (fares.started fiber member).frame (fun poisoned => ScopeTree.poisoned_step poisoned call)
      (fun publication begun begins found => ScopeTree.pending_step (fun result same => ?_) found)
      fun active _ => ?_
    · subst same
      unfold Activation.foreign at foreign
      simp only [List.all_eq_true, decide_eq_true_eq] at foreign
      exact foreign fiber member begins
    · simp only [takes] at untaken
      rw [foreign, Bool.true_and, List.any_eq_false] at untaken
      have held := untaken fiber member
      simp only [active, decide_true, Bool.true_and, decide_eq_true_eq, not_not] at held
      exact held

/-- The awaited fiber works. -/
theorem Fares.worked {overlooked : Bool} (distinct : Distinct registrations)
    (stands : Stands registrations activation) (live : activation.Live)
    (aligned : Aligned registrations activation) (fares : Fares overlooked activation)
    {work : FiberEvent ν} (works : work.Works) {index : Nat} {held : CapabilityFiber ν}
    (found : activation.fibers[index]? = some held) (awaited : activation.phase.awaited = some index)
    (unlocked : ¬ (activation.tree.poisoned = true ∧ held.locks = true)) :
    (held.step activation.tree work).1.topology.live 0 = true ∧
      ∀ fiber ∈ activation.fibers.set index (held.step activation.tree work).2,
        fiber.Started (held.step activation.tree work).1 := by
  obtain ⟨owned, pending, holds⟩ := stands.holds live
  have member := List.mem_of_getElem? found
  have scope := scope_of_context ((aligned.context member).trans fares.context)
  obtain ⟨started, touches⟩ := (fares.started held member).step
    (holds.attended held member).2.1.unasked (by rw [scope]; exact fares.live) works unlocked
  refine ⟨(touches.live 0).trans fares.live, fun fiber inside => ?_⟩
  obtain ⟨position, here⟩ := List.mem_iff_getElem?.mp inside
  rcases getElem?_of_set here with ⟨_, rfl⟩ | ⟨apart, before⟩
  · exact started
  · refine (fares.started fiber (List.mem_of_getElem? before)).beside ?_ touches ?_
    · refine holds.idle position fiber before ?_
      rw [awaited]
      exact fun same => apart (Option.some.inj same)
    · exact aligned.apart distinct found before apart

/-- A fiber at rest is started. -/
theorem Fares.begins {overlooked : Bool} {awaited : Option Nat} {owned : List ActivatedModule}
    {pending : List (Id × Nat)} (fares : Fares overlooked activation)
    (holds : Holds activation.registry activation.fibers awaited owned pending)
    (unawaited : awaited = none) (index : Nat) :
    ∀ fiber ∈ activation.fibers.modify index fun held => held.begin activation.tree .start,
      fiber.Started activation.tree := by
  intro fiber member
  rcases mem_of_modify member with before | ⟨held, found, rfl⟩
  · exact fares.started fiber before
  · refine (fares.started held (List.mem_of_getElem? found)).begin
      (holds.attended held (List.mem_of_getElem? found)).2.1.unasked ?_
    exact holds.idle index held found (by rw [unawaited]; nofun)

/-- All moves are in one context. -/
theorem context_move {event : ActivationEvent ν} {later : Activation ν}
    (move : activation.Move event later) : later.context = activation.context := by
  cases move <;> rfl

/-- **A move keeps the publications and the slots.** -/
theorem Fares.started_move {overlooked : Bool} (distinct : Distinct registrations)
    (stands : Stands registrations activation) (live : activation.Live)
    (aligned : Aligned registrations activation) (fares : Fares overlooked activation)
    {event : ActivationEvent ν} {later : Activation ν} (move : activation.Move event later)
    (untaken : activation.takes event = false) :
    later.tree.topology.live 0 = true ∧ ∀ fiber ∈ later.fibers, fiber.Started later.tree := by
  obtain ⟨owned, pending, holds⟩ := stands.holds live
  cases move with
  | worked works found awaited unlocked =>
    exact fares.worked distinct stands live aligned (ActivationEvent.works works) found awaited
      unlocked
  | registers found =>
    refine ⟨fares.live, fun fiber member => ?_⟩
    rcases List.mem_or_eq_of_mem_set member with before | rfl
    · exact fares.started fiber before
    · exact (fares.started _ (List.mem_of_getElem? found)).register _ _
  | scope foreign => exact fares.scope foreign untaken
  | instantiated here known =>
    refine ⟨fares.live, fun fiber member => ?_⟩
    rcases List.mem_append.mp member with before | now
    · exact fares.started fiber before
    · rw [List.mem_singleton.mp now]
      exact CapabilityFiber.started_new _ _ _ _
  | starts here => exact ⟨fares.live, fares.begins holds (by rw [here]; rfl) _⟩
  | drives here needs => exact ⟨fares.live, fares.begins holds (by rw [here]; rfl) _⟩
  | _ => exact ⟨fares.live, fares.started⟩

end Activation

/-! ### The state of the fibers -/

theorem CapabilityFiber.register_kept (fiber : CapabilityFiber ν) (stack : Nat) (label : Text) :
    (fiber.register stack label).definition = fiber.definition ∧
      (fiber.register stack label).state = fiber.state ∧
      (fiber.register stack label).answers = fiber.answers ∧
      (fiber.register stack label).transition = fiber.transition := by
  unfold register
  split
  · exact ⟨rfl, rfl, rfl, rfl⟩
  · exact ⟨rfl, rfl, rfl, rfl⟩

/-- The holder of a lock goes on when the activation does. -/
theorem ActivationEvent.advances {event : ActivationEvent ν} (works : event.work = some .go) :
    event = .advance := by
  cases event with
  | advance => rfl
  | returned result => cases works
  | cleaned result => cases works
  | hook result => cases works
  | register index stack label => cases works
  | scope call => cases works

/-- An answered fiber stays answered. -/
theorem CapabilityFiber.Goes.answered {fiber next : CapabilityFiber ν} (goes : fiber.Goes next)
    (answered : fiber.answers ≠ []) : next.answers ≠ [] := by
  rcases goes.progress with ⟨same, _⟩ | ⟨call, answer, _, added, _⟩
  · rw [same]
    exact answered
  · rw [added]
    exact List.append_ne_nil_of_left_ne_nil answered _

theorem CapabilityFiber.answered_begin {fiber : CapabilityFiber ν} (tree : ScopeTree ν)
    (free : fiber.transition = .free) (answered : fiber.answers ≠ []) :
    (fiber.begin tree .start).answers ≠ [] := by
  rw [begin_start tree free]
  unfold startDrive
  split
  · exact List.append_ne_nil_of_left_ne_nil answered _
  · split
    · exact List.append_ne_nil_of_left_ne_nil answered _
    · exact answered

/-- A fiber of the module changes. -/
theorem ModulePhase.Calm.update {registration : ModuleRegistration ν} {fibers : List (CapabilityFiber ν)}
    {phase : ModulePhase} (calm : phase.Calm registration fibers) {index : Nat}
    {held next : CapabilityFiber ν} (found : fibers[index]? = some held)
    (waits : index ∈ phase.waiting.map Prod.snd → next.state = held.state)
    (rises : phase.awaits = some index → registration.onActivate = true → held.Rising → next.Rising)
    (served : index ∉ phase.pending.map Prod.snd → held.Served registration →
      next.Served registration) : phase.Calm registration (fibers.set index next) where
  waits := by
    intro entry member fiber here
    rcases getElem?_of_set here with ⟨same, rfl⟩ | ⟨_, before⟩
    · subst same
      rw [waits (List.mem_map_of_mem member)]
      exact calm.waits entry member held found
    · exact calm.waits entry member fiber before
  rises := by
    intro position awaits hook fiber here
    rcases getElem?_of_set here with ⟨rfl, rfl⟩ | ⟨_, before⟩
    · exact rises awaits hook (calm.rises index awaits hook held found)
    · exact calm.rises position awaits hook fiber before
  served := by
    intro position fiber here outside
    rcases getElem?_of_set here with ⟨rfl, rfl⟩ | ⟨_, before⟩
    · exact served outside (calm.served index held found outside)
    · exact calm.served position fiber before outside
  hooked := calm.hooked

namespace Activation

variable {activation : Activation ν} {registrations : List (ModuleRegistration ν)} {overlooked : Bool}

/-- A registration of an effect changes no state. -/
theorem Calm.register (calm : activation.Calm overlooked) {index : Nat} {held : CapabilityFiber ν}
    (found : activation.fibers[index]? = some held) (stack : Nat) (label : Text) :
    ({ activation with
      fibers := activation.fibers.set index (held.register stack label) } : Activation ν).Calm
        overlooked := by
  obtain ⟨definition, state, answers, transition⟩ := held.register_kept stack label
  have inside := List.mem_of_getElem? found
  have each {property : CapabilityFiber ν → Prop} (all : ∀ fiber ∈ activation.fibers, property fiber)
      (kept : property held → property (held.register stack label)) :
      ∀ fiber ∈ activation.fibers.set index (held.register stack label), property fiber := by
    intro fiber member
    rcases List.mem_or_eq_of_mem_set member with before | rfl
    · exact all fiber before
    · exact kept (all held inside)
  unfold Calm at calm ⊢
  simp only
  split
  · rename_i here
    rw [here] at calm
    exact each calm (by rw [state, answers]; exact id)
  · rename_i registration current phase here
    rw [here] at calm
    refine ModulePhase.Calm.update calm found (fun _ => state) (fun _ _ rising => ?_) fun _ served => ?_
    · unfold CapabilityFiber.Rising at rising ⊢
      rw [transition, state]
      exact rising
    · refine ⟨?_, ?_, fun hook mine => ?_⟩
      · rw [answers]
        exact served.answered
      · rw [state]
        exact served.fine
      · rw [state]
        exact served.active hook (definition ▸ mine)
  · rename_i snapshot drove report here
    rw [here] at calm
    obtain ⟨answered, fine, passed⟩ := calm
    refine ⟨each answered (by rw [answers]; exact id),
      fun none_ => each (fine none_) (by rw [state]; exact id), fun rests looks position fiber here => ?_⟩
    rcases getElem?_of_set here with ⟨rfl, rfl⟩ | ⟨_, before⟩
    · rw [state]
      exact passed rests looks index held found
    · exact passed rests looks position fiber before
  · rename_i driven snapshot report here
    rw [here] at calm
    obtain ⟨answered, fine⟩ := calm
    refine ⟨each answered (by rw [answers]; exact id), fun none_ position fiber here => ?_⟩
    rcases getElem?_of_set here with ⟨rfl, rfl⟩ | ⟨_, before⟩
    · rw [state]
      exact fine none_ index held found
    · exact fine none_ position fiber before
  · trivial
  · trivial
  · rename_i here
    rw [here] at calm
    exact each calm (by rw [state]; exact id)

/-- What a round comes upon changes with the reconciliation only. -/
theorem overlooks_outside (outside : ∀ snapshot drove report,
    activation.phase ≠ .reconciling snapshot drove report) (event : ActivationEvent ν) :
    activation.overlooks overlooked event = overlooked := by
  unfold overlooks
  split
  · split
    · exact absurd ‹_› (outside _ _ _)
    · exact absurd ‹_› (outside _ _ _)
    · rfl
  · rfl

/-- The awaited fiber of a module works. -/
theorem Fares.calm_module (fares : Fares overlooked activation)
    (stands : Stands registrations activation) {registration : ModuleRegistration ν}
    {current : ActivatedModule} {pluginId : Id} {index : Nat} {rest : List (Id × Nat)}
    (here : activation.phase = .module registration current (.awaiting pluginId index rest))
    {event : ActivationEvent ν} {work : FiberEvent ν} (works : event.work = some work)
    {held : CapabilityFiber ν} (found : activation.fibers[index]? = some held)
    (hit : activation.misses event = false) :
    ModulePhase.Calm registration
      (activation.fibers.set index (held.step activation.tree work).2)
      (.awaiting pluginId index rest) := by
  have member := List.mem_of_getElem? found
  unfold Stands at stands
  rw [here] at stands
  obtain ⟨_, _, holds, _⟩ := stands
  have numbered := holds.numbered
  rw [List.map_append, List.nodup_append] at numbered
  have apart := (List.nodup_cons.mp numbered.2.1).1
  have calm := fares.calm
  unfold Calm at calm
  rw [here] at calm
  refine ModulePhase.Calm.update calm found (fun waits => absurd waits apart)
    (fun _ hook rising => ?_) fun outside => absurd List.mem_cons_self outside
  refine rising.step (fares.started held member) (holds.attended held member).2.1.unasked
    (ActivationEvent.works works) fun goes => ?_
  subst goes
  obtain rfl := ActivationEvent.advances works
  unfold misses at hit
  rw [here] at hit
  simp only at hit
  rw [hook, found, Bool.true_and, Option.any_some] at hit
  exact hit

/-- The driven fiber works. -/
theorem Fares.calm_driving (fares : Fares overlooked activation) {index : Nat} {snapshot : List Nat}
    {report : ReconcileReport} (here : activation.phase = .driving index snapshot report)
    {work : FiberEvent ν} (works : work.Works) {held : CapabilityFiber ν}
    (found : activation.fibers[index]? = some held) :
    ({ activation with
      tree := (held.step activation.tree work).1
      fibers := activation.fibers.set index (held.step activation.tree work).2 } : Activation ν).Calm
        overlooked := by
  have calm := fares.calm
  unfold Calm at calm ⊢
  rw [here] at calm
  simp only
  rw [here]
  obtain ⟨answered, fine⟩ := calm
  refine ⟨fun fiber member => ?_, fun none_ position fiber other apart => ?_⟩
  · rcases List.mem_or_eq_of_mem_set member with before | rfl
    · exact answered fiber before
    · exact (held.goes_step activation.tree works).answered
        (answered held (List.mem_of_getElem? found))
  · rcases getElem?_of_set other with ⟨same, _⟩ | ⟨_, before⟩
    · exact absurd same.symm apart
    · exact fine none_ position fiber before apart

/-- A fiber of a module is started. -/
theorem Fares.calm_starts (fares : Fares overlooked activation)
    (stands : Stands registrations activation) {registration : ModuleRegistration ν}
    {current : ActivatedModule} {pluginId : Id} {index : Nat} {rest : List (Id × Nat)}
    (here : activation.phase = .module registration current (.starting ((pluginId, index) :: rest))) :
    ModulePhase.Calm registration
      (activation.fibers.modify index fun held => held.begin activation.tree .start)
      (.awaiting pluginId index rest) := by
  have calm := fares.calm
  unfold Calm at calm
  rw [here] at calm
  unfold Stands at stands
  rw [here] at stands
  obtain ⟨_, _, holds, _⟩ := stands
  have numbered := holds.numbered
  rw [List.map_append, List.nodup_append] at numbered
  have apart := (List.nodup_cons.mp numbered.2.1).1
  refine ⟨fun entry member fiber found => ?_, ?_, fun position fiber found outside => ?_, nofun⟩
  · rcases getElem?_of_modify found with ⟨_, before⟩ | ⟨same, _⟩
    · exact calm.waits entry (List.mem_cons_of_mem _ member) fiber before
    · have inside : entry.2 ∈ rest.map Prod.snd := List.mem_map_of_mem member
      exact absurd (same ▸ inside) apart
  · rintro position ⟨⟩ hook fiber found
    rcases getElem?_of_modify found with ⟨other, _⟩ | ⟨_, held, before, rfl⟩
    · exact absurd rfl other
    · have member := List.mem_of_getElem? before
      exact CapabilityFiber.rising_begin (holds.attended held member).2.1.unasked
        (holds.idle index held before nofun) (calm.waits _ List.mem_cons_self held before)
  · rcases getElem?_of_modify found with ⟨_, before⟩ | ⟨same, _⟩
    · exact calm.served position fiber before outside
    · exact absurd (by rw [same]; exact List.mem_cons_self) outside

/-- **A start succeeds.** -/
theorem Fares.calm_answered (fares : Fares overlooked activation) {registration : ModuleRegistration ν}
    {current : ActivatedModule} {pluginId : Id} {index : Nat} {rest : List (Id × Nat)}
    (here : activation.phase = .module registration current (.awaiting pluginId index rest))
    (rested : ∀ held, activation.fibers[index]? = some held → held.transition = .free)
    {answer : FiberAnswer} (answers : activation.answerOf index = some answer)
    (fine : ∀ reason, answer ≠ .failed reason) :
    ModulePhase.Calm registration activation.fibers (.starting rest) := by
  have calm := fares.calm
  unfold Calm at calm
  rw [here] at calm
  refine ⟨calm.waits, fun _ => nofun, fun position fiber found outside => ?_, nofun⟩
  by_cases same : position = index
  · subst same
    unfold answerOf at answers
    rw [found, Option.bind_some] at answers
    have free := rested fiber found
    have unfailed : fiber.state ≠ .failed := by
      intro failed
      obtain ⟨error, last⟩ :=
        (fares.started fiber (List.mem_of_getElem? found)).placed.failed free failed
      rw [last, Option.some.injEq] at answers
      exact fine error answers.symm
    refine ⟨?_, unfailed, fun hook _ => ?_⟩
    · intro none_
      unfold CapabilityFiber.lastAnswer at answers
      rw [none_] at answers
      cases answers
    · have rising := calm.rises position rfl hook fiber found
      unfold CapabilityFiber.Rising at rising
      rw [free] at rising
      exact rising.resolve_right unfailed
  · refine calm.served position fiber found fun inside => ?_
    rcases List.mem_cons.mp inside with here | later
    · exact same here
    · exact outside later

/-- A module begins, and has no fibers. -/
theorem Fares.calm_begun (distinct : Distinct registrations)
    (aligned : Aligned registrations activation) (fares : Fares overlooked activation)
    {registration : ModuleRegistration ν} {rest : List (ModuleRegistration ν)}
    (here : activation.phase = .next) (others : activation.rest = registration :: rest) :
    ModulePhase.Calm registration activation.fibers (.registering registration.plugins) := by
  have calm := fares.calm
  unfold Calm at calm
  rw [here] at calm
  refine ⟨fun _ member => absurd member List.not_mem_nil, fun _ => nofun,
    fun position fiber found _ => ?_, nofun⟩
  have member := List.mem_of_getElem? found
  obtain ⟨answered, fine⟩ := calm fiber member
  refine ⟨answered, fine, fun _ mine => ?_⟩
  obtain ⟨contribution, inside, same⟩ := List.mem_map.mp mine
  refine absurd same.symm (aligned.unbegun distinct ?_ member)
  unfold left
  rw [here]
  simp only
  rw [others]
  exact List.mem_flatMap.mpr ⟨registration, List.mem_cons_self, inside⟩

/-- A fiber is instantiated. -/
theorem Fares.calm_instantiated (fares : Fares overlooked activation)
    {registration : ModuleRegistration ν} {current : ActivatedModule}
    {contribution : PluginContribution} {rest : List PluginContribution} {fibers : List (Id × Nat)}
    (holds : ∀ entry ∈ fibers, entry.2 < activation.fibers.length) (here : activation.phase =
      .module registration current (.instantiating (contribution :: rest) fibers)) :
    ModulePhase.Calm registration
      (activation.fibers ++ [.new contribution.plugin activation.context contribution.config])
      (.instantiating rest (fibers ++ [(contribution.plugin.id, activation.fibers.length)])) := by
  have calm := fares.calm
  unfold Calm at calm
  rw [here] at calm
  refine ⟨fun entry member fiber found => ?_, fun _ => nofun, fun position fiber found outside => ?_,
    nofun⟩
  · rcases List.mem_append.mp member with before | now
    · rw [List.getElem?_append_left (holds entry before)] at found
      exact calm.waits entry before fiber found
    · rw [List.mem_singleton.mp now, List.getElem?_append_right (Nat.le_refl _), Nat.sub_self] at found
      cases found
      rfl
  · have outside : position ∉ (fibers ++ [(contribution.plugin.id, activation.fibers.length)]).map
        Prod.snd := outside
    rw [List.map_append, List.mem_append, not_or] at outside
    rw [List.getElem?_append] at found
    split at found
    · exact calm.served position fiber found outside.1
    · rename_i beyond
      have bound := (List.getElem?_eq_some_iff.mp found).1
      rw [List.length_singleton] at bound
      have same : position = activation.fibers.length := by omega
      exact absurd (List.mem_singleton.mpr same) outside.2

/-- **A fiber that is passed over** is active or failed, or its dependencies do not resolve. -/
theorem Fares.passed (fares : Fares overlooked activation) {index : Nat} {fiber : CapabilityFiber ν}
    (found : activation.fibers[index]? = some fiber) (free : fiber.transition = .free)
    (answered : fiber.answers ≠ []) (settled : activation.fibers[index]?.any
      (CapabilityFiber.needsReconciliation activation.tree) = false)
    (looks : activation.fibers[index]?.any (CapabilityFiber.lacks activation.tree) = false) :
    fiber.state = .active ∨ fiber.state = .failed := by
  have placed := (fares.started fiber (List.mem_of_getElem? found)).placed
  unfold CapabilityFiber.Placed at placed
  rw [free] at placed
  rcases placed with active | ⟨pending, depends⟩ | ⟨failed, _⟩
  · exact .inl active
  · rw [found, Option.any_some] at settled looks
    unfold CapabilityFiber.needsReconciliation at settled
    rw [pending] at settled
    unfold CapabilityFiber.lacks at looks
    rw [Option.isNone_eq_false_iff] at looks
    simp only [looks, Bool.and_true, Bool.not_eq_false'] at settled
    rw [← ExtTreeSet.isEmpty_toList, List.isEmpty_iff] at settled
    exact absurd settled (depends.resolve_left answered)
  · exact .inr failed

/-- **A move keeps how the fibers fare.** -/
theorem Fares.calm_move (distinct : Distinct registrations)
    (stands : Stands registrations activation) (live : activation.Live)
    (aligned : Aligned registrations activation) (fares : Fares overlooked activation)
    {event : ActivationEvent ν} {later : Activation ν} (move : activation.Move event later)
    (hit : activation.misses event = false) (looked : (activation.ends event && overlooked) = false) :
    later.Calm (activation.overlooks overlooked event) := by
  obtain ⟨owned, pending, holds⟩ := stands.holds live
  have calm := fares.calm
  have outside {phase : ActivationPhase ν} (here : activation.phase = phase)
      (other : ∀ snapshot drove report, phase ≠ .reconciling snapshot drove report) :
      activation.overlooks overlooked event = overlooked :=
    overlooks_outside (fun snapshot drove report same =>
      other snapshot drove report (here.symm.trans same)) event
  have within {registration : ModuleRegistration ν} {current : ActivatedModule} {phase : ModulePhase}
      (here : activation.phase = .module registration current phase) :
      phase.Calm registration activation.fibers := by
    unfold Calm at calm
    rw [here] at calm
    exact calm
  cases move with
  | still idle =>
    unfold overlooks
    split
    · rename_i advances
      split
      · exact absurd ‹_› (idle rfl _ _ _)
      · exact absurd ‹_› (idle rfl _ _ _)
      · exact calm
    · exact calm
  | @worked _ work works index held found awaited unlocked =>
    cases here : activation.phase with
    | module registration current phase =>
      rw [here] at awaited
      cases phase with
      | awaiting pluginId position rest =>
        cases awaited
        rw [outside here (fun _ _ _ => nofun)]
        exact fares.calm_module stands here works found hit
      | _ => cases awaited
    | driving position snapshot report =>
      rw [here] at awaited
      cases awaited
      rw [outside here (fun _ _ _ => nofun), ← here]
      exact fares.calm_driving here (ActivationEvent.works works) found
    | rollingBack cause ledger wait =>
      unfold Live at live
      rw [here] at live
      exact live.elim
    | _ =>
      rw [here] at awaited
      cases awaited
  | registers found => exact calm.register found _ _
  | scope foreign => exact calm
  | begun here others => exact fares.calm_begun distinct aligned here others
  | all here others =>
    unfold Calm at calm
    rw [here] at calm
    refine ⟨fun fiber member => (calm fiber member).1, fun _ fiber member => (calm fiber member).2,
      fun _ _ index fiber found beyond => ?_⟩
    exact absurd (List.mem_range.mpr (List.getElem?_eq_some_iff.mp found).1) beyond
  | plugins here =>
    have calm := within here
    exact ⟨fun _ member => absurd member List.not_mem_nil, fun _ => nofun, calm.served, nofun⟩
  | registered here absent =>
    have calm := within here
    exact ⟨fun _ member => absurd member List.not_mem_nil, fun _ => nofun, calm.served, nofun⟩
  | fibers here =>
    have calm := within here
    exact ⟨calm.waits, fun _ => nofun, calm.served, nofun⟩
  | @instantiated registration current contribution rest fibers here known =>
    refine fares.calm_instantiated (fun entry member => ?_) here
    unfold Stands at stands
    rw [here] at stands
    obtain ⟨_, _, held, _⟩ := stands
    obtain ⟨fiber, found, _⟩ := held.placed entry (List.mem_append_right _ member)
    exact (List.getElem?_eq_some_iff.mp found).1
  | starts here => exact fares.calm_starts stands here
  | hooks here has =>
    have calm := within here
    exact ⟨fun _ member => absurd member List.not_mem_nil, fun _ => nofun, calm.served, fun _ => has⟩
  | completes here =>
    intro fiber member
    obtain ⟨index, found⟩ := List.mem_iff_getElem?.mp member
    rcases here with ⟨here, _⟩ | here
    · have served := (within here).served index fiber found List.not_mem_nil
      exact ⟨served.answered, served.fine⟩
    · have served := (within here).served index fiber found List.not_mem_nil
      exact ⟨served.answered, served.fine⟩
  | answered here rested answers fine => exact fares.calm_answered here rested answers fine
  | @passes index snapshot drove report here settled =>
    unfold Calm at calm
    rw [here] at calm
    obtain ⟨answered, fine, passed⟩ := calm
    refine ⟨answered, fine, fun rests looks position fiber found beyond => ?_⟩
    unfold overlooks at looks
    rw [here] at looks
    simp only [Bool.or_eq_false_iff] at looks
    by_cases same : position = index
    · subst same
      refine fares.passed found ?_ (answered fiber (List.mem_of_getElem? found)) settled looks.2
      exact holds.idle position fiber found (by rw [here]; nofun)
    · refine passed rests looks.1 position fiber found fun inside => ?_
      rcases List.mem_cons.mp inside with now | later
      · exact same now
      · exact beyond later
  | @drives index snapshot drove report here needs =>
    unfold Calm at calm
    rw [here] at calm
    obtain ⟨answered, fine, _⟩ := calm
    refine ⟨fun fiber member => ?_, fun none_ position fiber found apart => ?_⟩
    · rcases mem_of_modify member with before | ⟨held, found, rfl⟩
      · exact answered fiber before
      · have inside := List.mem_of_getElem? found
        exact CapabilityFiber.answered_begin _
          (holds.idle index held found (by rw [here]; nofun)) (answered held inside)
    · rcases getElem?_of_modify found with ⟨_, before⟩ | ⟨same, _⟩
      · exact fine none_ fiber (List.mem_of_getElem? before)
      · exact absurd same.symm apart
  | again here =>
    unfold Calm at calm
    rw [here] at calm
    obtain ⟨answered, fine, _⟩ := calm
    refine ⟨answered, fine, fun _ _ index fiber found beyond => ?_⟩
    exact absurd (List.mem_range.mpr (List.getElem?_eq_some_iff.mp found).1) beyond
  | @driven index snapshot report here rested =>
    unfold Calm at calm
    rw [here] at calm
    obtain ⟨answered, fine⟩ := calm
    refine ⟨answered, fun none_ fiber member => ?_, nofun⟩
    change fiber ∈ activation.fibers at member
    obtain ⟨position, found⟩ := List.mem_iff_getElem?.mp member
    split at none_
    · exact absurd none_ (List.append_ne_nil_of_right_ne_nil _ (List.cons_ne_nil _ _))
    · rename_i unfailed
      by_cases same : position = index
      · subst same
        intro failed
        obtain ⟨error, last⟩ :=
          (fares.started fiber member).placed.failed (rested fiber found) failed
        refine unfailed error ?_
        unfold answerOf
        rw [found, Option.bind_some, last]
      · exact fine none_ position fiber found same
  | @activated report here success =>
    unfold Calm at calm
    rw [here] at calm
    obtain ⟨_, fine, passed⟩ := calm
    unfold ends at looked
    rw [here] at looked
    intro fiber member
    obtain ⟨index, found⟩ := List.mem_iff_getElem?.mp member
    unfold ReconcileReport.isSuccess at success
    rw [Bool.and_eq_true, List.isEmpty_iff] at success
    exact (passed rfl looked index fiber found List.not_mem_nil).resolve_right
      (fine success.1 fiber member)
  | fails failure => trivial

end Activation

end Kernis
