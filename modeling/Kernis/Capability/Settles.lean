/-
**A reconciliation ends.**

The watched fibers are driven until none is out of date. What drives them again is only what the others
publish, each in a slot of its own, so admission, which refuses what closes a cycle, bounds the passes.

* `Turn` — a step of a reconciliation that is awaited. `Settles` — every run of turns ends, and leaves what is
  watched up to date.
* `Calm`, `Drives` — the coordinator between two drives; `fiberWorkers`: the fibers as workers.
* `Along` — where a reconciliation stands; `Along.turn`, `Along.turns`.
* `reconcile_settles` — a reconciliation ends, when no two watched fibers share a slot and no context isolates
  what its fiber requires.
-/

import Kernis.Capability.Converges
import Kernis.Capability.Drives
import Kernis.Lib.Settling

namespace Kernis

open Std

variable {ν : Type}

/-- Whether an owner can be called. -/
def OwnerPhase.rests : OwnerPhase → Bool
  | .idle => true
  | _ => false

theorem OwnerPhase.idle_of_rests {phase : OwnerPhase} (rests : phase.rests = true) : phase = .idle := by
  cases phase with
  | idle => rfl
  | calling fiber => cases rests
  | reconciling snapshot drove report => cases rests
  | driving fiber snapshot report => cases rests

/-- Whether an effect is registered. -/
def OwnerEvent.registers : OwnerEvent ν → Bool
  | .fiber (.register _ _) => true
  | _ => false

namespace SerialRuntime

/-- Whether a reconciliation awaits this: its next step, or what the fiber that it drives awaits. -/
def awaits (owner : SerialRuntime ν) : OwnerEvent ν → Bool
  | .advance =>
    match owner.phase with
    | .reconciling _ _ _ => true
    | _ => false
  | .fiber event =>
    match owner.phase with
    | .driving id _ _ => owner.runtime.fibers[id]?.any fun fiber => fiber.awaits event
    | _ => false
  | _ => false

/-- **One turn of a reconciliation**: effects are registered, and then what it awaits happens. -/
def Turn (owner next : SerialRuntime ν) : Prop :=
  ∃ effects event, (∀ effect ∈ effects, effect.registers = true) ∧
    (owner.run effects).runtime.tree.poisoned = false ∧ (owner.run effects).awaits event = true ∧
      next = (owner.run effects).step event

/-- **A reconciliation settles**: no run of turns is endless, a run that cannot go on has returned, unless the
topology lock is poisoned, and when it has, no watched fiber is out of date. -/
structure Settles (owner : SerialRuntime ν) : Prop where
  ends : Acc (fun next owner => Turn owner next) owner
  goes : ∀ last, Relation.ReflTransGen Turn owner last → last.runtime.tree.poisoned = false →
    last.phase ≠ .idle → ∃ next, Turn last next
  fresh : ∀ last, Relation.ReflTransGen Turn owner last → last.runtime.tree.poisoned = false →
    last.phase = .idle → ∀ id ∈ last.runtime.watched, last.runtime.needsReconciliation id = false

end SerialRuntime

namespace ReactiveRuntime

open CapabilityFiber

variable {base runtime next : ReactiveRuntime ν}

/-- **The watched fibers stand apart**: no two publish one capability in one scope, and the context of none
isolates what it requires. -/
structure Separate (runtime : ReactiveRuntime ν) : Prop where
  apart : ∀ id ∈ runtime.watched, ∀ other ∈ runtime.watched, ∀ fiber rival,
    runtime.fibers[id]? = some fiber → runtime.fibers[other]? = some rival → fiber.scope = rival.scope →
      fiber.definition.capability.id = rival.definition.capability.id → id = other
  unshadowed : ∀ id ∈ runtime.watched, ∀ fiber, runtime.fibers[id]? = some fiber →
    ∀ dependency ∈ fiber.definition.capability.dependencies, ∀ view ∈ fiber.context,
      dependency ∉ view.isolation

/-- Whether no watched fiber shares its slot, and none is isolated from what it requires. -/
def separates (runtime : ReactiveRuntime ν) : Bool :=
  runtime.watched.toList.all fun id => runtime.fibers[id]?.all fun fiber =>
    (fiber.definition.capability.dependencies.toList.all fun dependency =>
      fiber.context.all fun view => dependency ∉ view.isolation) &&
    runtime.watched.toList.all fun other => runtime.fibers[other]?.all fun rival =>
      id = other ∨ fiber.scope ≠ rival.scope ∨ fiber.definition.capability.id ≠ rival.definition.capability.id

theorem separate_of_separates (separates : runtime.separates = true) :
    Separate runtime := by
  have checks : ∀ id ∈ runtime.watched, ∀ fiber, runtime.fibers[id]? = some fiber →
      (∀ dependency ∈ fiber.definition.capability.dependencies.toList, ∀ view ∈ fiber.context,
        dependency ∉ view.isolation) ∧
      ∀ other ∈ runtime.watched, ∀ rival, runtime.fibers[other]? = some rival →
        id = other ∨ fiber.scope ≠ rival.scope ∨
          fiber.definition.capability.id ≠ rival.definition.capability.id := by
    intro id inside fiber found
    unfold ReactiveRuntime.separates at separates
    have check := List.all_eq_true.mp separates id (ExtTreeSet.mem_toList.mpr inside)
    rw [found] at check
    obtain ⟨free, alone⟩ := (Bool.and_eq_true_iff).mp check
    refine ⟨fun dependency required view place => ?_, fun other watched rival held => ?_⟩
    · exact of_decide_eq_true (List.all_eq_true.mp (List.all_eq_true.mp free dependency required) view place)
    · have check := List.all_eq_true.mp alone other (ExtTreeSet.mem_toList.mpr watched)
      rw [held] at check
      exact of_decide_eq_true check
  constructor
  · intro id inside other watched fiber rival found held scopes capabilities
    rcases (checks id inside fiber found).2 other watched rival held with same | scope | capability
    · exact same
    · exact absurd scopes scope
    · exact absurd capabilities capability
  · intro id inside fiber found dependency required
    exact (checks id inside fiber found).1 dependency (ExtTreeSet.mem_toList.mpr required)

/-! ### Between two drives -/

/-- What a reconciliation does not change. -/
structure Framed (base runtime : ReactiveRuntime ν) : Prop where
  watched : runtime.watched = base.watched
  kin : ∀ (id : Nat) (fiber : CapabilityFiber ν), runtime.fibers[id]? = some fiber →
    ∃ before, base.fibers[id]? = some before ∧ Kin before fiber
  shape : base.tree.topology.SameShape runtime.tree.topology

theorem Framed.refl (base : ReactiveRuntime ν) : Framed base base :=
  ⟨rfl, fun _ fiber found => ⟨fiber, found, rfl, rfl⟩, .refl⟩

/-- **A coordinator between two drives.** -/
structure Calm (base runtime : ReactiveRuntime ν) : Prop where
  whole : runtime.Whole
  asked : runtime.Asked
  rest : runtime.AtRest
  matched : runtime.Matched
  framed : Framed base runtime

/-- A fiber that is out of date is driven, from its start to its rest. -/
structure Drives (base runtime : ReactiveRuntime ν) (id : Nat) (next : ReactiveRuntime ν) : Prop where
  before : Calm base runtime
  after : Calm base next
  driven : ∃ fiber tree last, runtime.fibers[id]? = some fiber ∧
    fiber.needsReconciliation runtime.tree = true ∧ Underway runtime.tree fiber tree last ∧
      last.transition = .free ∧ next = runtime.place id (tree, last)

theorem place_self {id : Nat} {fiber : CapabilityFiber ν} (found : runtime.fibers[id]? = some fiber)
    (after : ScopeTree ν × CapabilityFiber ν) : (runtime.place id after).fibers[id]? = some after.2 :=
  List.getElem?_set_self (List.getElem?_eq_some_iff.mp found).1

theorem place_other {id other : Nat} (after : ScopeTree ν × CapabilityFiber ν) (different : other ≠ id) :
    (runtime.place id after).fibers[other]? = runtime.fibers[other]? :=
  List.getElem?_set_ne (Ne.symm different)

/-- A fiber as a worker at its cell. -/
def cell (runtime : ReactiveRuntime ν) (id : Nat) : Cell :=
  match runtime.fibers[id]?.map CapabilityFiber.state with
  | some .pending => .idle
  | some .active => .filled
  | _ => .failed

/-- Whether a fiber is bound to what its context resolves. -/
def Tracks (runtime : ReactiveRuntime ν) (id : Nat) : Prop :=
  ∃ fiber, runtime.fibers[id]? = some fiber ∧ currentBinding runtime.tree fiber = fiber.dependencyEpoch

/-- Whether the slot of a fiber holds what the fiber published. -/
def Holds (runtime : ReactiveRuntime ν) (id : Nat) : Prop :=
  ∃ fiber handle, runtime.fibers[id]? = some fiber ∧
    handle.definition = fiber.definition.capability ∧
      (runtime.tree.topology.level fiber.scope).entries[fiber.definition.capability.id]? = some handle

/-- The scope of a fiber. -/
def scopeOf (runtime : ReactiveRuntime ν) (id : Nat) : Nat :=
  (runtime.fibers[id]?.map CapabilityFiber.scope).getD 0

/-- Whether a fiber would see what another publishes, and requires it. -/
def Reads (runtime : ReactiveRuntime ν) (id other : Nat) : Prop :=
  ∃ fiber rival, runtime.fibers[id]? = some fiber ∧ runtime.fibers[other]? = some rival ∧
    rival.scope ∈ fiber.scope :: runtime.tree.topology.ancestors fiber.scope ∧
      rival.definition.capability.id ∈ fiber.definition.capability.dependencies

/-- Whether a scope in use sees a valid graph. -/
def Admits (base runtime : ReactiveRuntime ν) (scope : Nat) : Prop :=
  Calm base runtime ∧ runtime.tree.topology.live scope = true ∧ (runtime.tree.topology.graph scope).Valid

theorem Framed.scopeOf (framed : Framed base runtime) {id : Nat} {fiber : CapabilityFiber ν}
    (found : runtime.fibers[id]? = some fiber) : base.scopeOf id = fiber.scope := by
  obtain ⟨before, there, kin⟩ := framed.kin id fiber found
  unfold ReactiveRuntime.scopeOf
  rw [there]
  exact kin.scope.symm

theorem Calm.sound (calm : Calm base runtime) : runtime.tree.Sound := calm.whole.coordinated.rooted.sound

/-- The scopes of the context of a fiber. -/
theorem Calm.views (calm : Calm base runtime) {fiber : CapabilityFiber ν} (member : fiber ∈ runtime.fibers) :
    fiber.context.map ContextState.scope = fiber.scope :: runtime.tree.topology.ancestors fiber.scope := by
  obtain ⟨scope, _, views⟩ := calm.whole.coordinated.rooted.chained _
    (calm.whole.coordinated.placed fiber member)
  have own : fiber.scope = scope := by
    unfold CapabilityFiber.scope
    rw [← List.head?_map, views]
    rfl
  rw [own]
  exact views

/-- A scope sees what a fiber there holds. -/
theorem Calm.defines (calm : Calm base runtime) {id : Nat} {fiber : CapabilityFiber ν}
    (found : runtime.fibers[id]? = some fiber) (holds : runtime.Holds id) :
    (runtime.tree.topology.graph fiber.scope).definitions[fiber.definition.capability.id]? =
      some fiber.definition.capability := by
  obtain ⟨other, handle, there, named, held⟩ := holds
  rw [found] at there
  cases there
  rw [calm.sound.named.graph_lookup, Topology.get_of_entry calm.sound.vacant held, Option.map_some, named]

/-- **A fiber in a scope that sees a valid graph finds what it requires**, and does not require itself. -/
theorem Admits.hopeful (separate : Separate base) {id : Nat} {fiber : CapabilityFiber ν}
    (admits : Admits base runtime fiber.scope) (watched : id ∈ base.watched)
    (found : runtime.fibers[id]? = some fiber) (holds : runtime.Holds id) :
    Hopeful runtime.tree fiber := by
  obtain ⟨calm, live, valid⟩ := admits
  have member := List.mem_of_getElem? found
  have requires {dependency : Id} (required : dependency ∈ fiber.definition.capability.dependencies) :
      (runtime.tree.topology.graph fiber.scope).Requires fiber.definition.capability.id dependency :=
    ⟨_, calm.defines found holds, required⟩
  obtain ⟨before, there, kin⟩ := calm.framed.kin id fiber found
  have every : ∀ dependency ∈ fiber.definition.capability.dependencies,
      (runtime.tree.topology.contextGet fiber.context dependency).isSome = true := by
    intro dependency required
    have free : ∀ view ∈ fiber.context, dependency ∉ view.isolation := by
      rw [kin.context]
      exact separate.unshadowed id watched before there dependency (kin.definition ▸ required)
    have own : (fiber.context.map ContextState.scope).head? = some fiber.scope := by
      rw [calm.views member]
      rfl
    have finds := (calm.whole.coordinated.rooted.contextGet_iff (calm.whole.coordinated.placed fiber member)
      free own).mpr (.inl (calm.whole.opened _ live))
    have known := valid.closed _ _ (requires required)
    rw [ExtTreeMap.mem_iff_isSome_getElem?, calm.sound.named.graph_lookup, Option.isSome_map] at known
    exact finds ▸ known
  obtain ⟨dependencies, resolved⟩ := Topology.resolves_iff.mpr every
  refine ⟨?_, fun _ itself => valid.acyclic _ (.single (requires itself))⟩
  unfold CapabilityFiber.currentBinding
  rw [resolved]
  rfl

/-- **No fibers in a scope that sees a valid graph require one another in a circle.** -/
theorem Admits.acyclic {scope : Nat} (admits : Admits base runtime scope)
    (worker : {id // id ∈ base.snapshotFibers}) : ¬ Relation.TransGen
      (fun one other => (∀ each, each = one ∨ each = other → base.scopeOf each.1 = scope ∧
        runtime.cell each.1 = .filled ∧ runtime.Holds each.1) ∧ Reads base one.1 other.1) worker worker := by
  intro circle
  obtain ⟨calm, _, valid⟩ := admits
  have requires (one other : {id // id ∈ base.snapshotFibers})
      (walk : Relation.TransGen (fun one other => (∀ each, each = one ∨ each = other →
        base.scopeOf each.1 = scope ∧ runtime.cell each.1 = .filled ∧ runtime.Holds each.1) ∧
          Reads base one.1 other.1) one other) : ∃ fiber rival, base.fibers[one.1]? = some fiber ∧
        base.fibers[other.1]? = some rival ∧ Relation.TransGen (runtime.tree.topology.graph scope).Requires
          fiber.definition.capability.id rival.definition.capability.id := by
    have edge {one other : {id // id ∈ base.snapshotFibers}} (held : base.scopeOf one.1 = scope)
        (holds : runtime.Holds one.1) (reads : Reads base one.1 other.1) :
        ∃ fiber rival, base.fibers[one.1]? = some fiber ∧ base.fibers[other.1]? = some rival ∧
          (runtime.tree.topology.graph scope).Requires fiber.definition.capability.id
            rival.definition.capability.id := by
      obtain ⟨fiber, rival, there, beside, _, required⟩ := reads
      obtain ⟨now, handle, found, entry⟩ := holds
      obtain ⟨before, place, kin⟩ := calm.framed.kin one.1 now found
      rw [there] at place
      cases place
      refine ⟨fiber, rival, there, beside, fiber.definition.capability, ?_, required⟩
      rw [← held, calm.framed.scopeOf found, ← kin.definition]
      exact calm.defines found ⟨now, handle, found, entry⟩
    induction walk with
    | @single other link =>
      obtain ⟨fiber, rival, there, beside, requires⟩ :=
        edge (link.1 one (.inl rfl)).1 (link.1 one (.inl rfl)).2.2 link.2
      exact ⟨fiber, rival, there, beside, .single requires⟩
    | @tail middle other _ link ih =>
      obtain ⟨fiber, between, there, place, walk⟩ := ih
      obtain ⟨same, rival, again, beside, requires⟩ :=
        edge (link.1 middle (.inl rfl)).1 (link.1 middle (.inl rfl)).2.2 link.2
      rw [place] at again
      cases again
      exact ⟨fiber, rival, there, beside, walk.tail requires⟩
  obtain ⟨fiber, rival, there, beside, walk⟩ := requires worker worker circle
  rw [there] at beside
  cases beside
  exact valid.acyclic _ walk

/-! ### What a drive changes -/

section Drive

variable {id other : Nat}

theorem Drives.needs (drives : Drives base runtime id next) : ∃ fiber last, runtime.fibers[id]? = some fiber ∧
    next.fibers[id]? = some last ∧ Kin fiber last ∧ Drove runtime.tree fiber next.tree last ∧
      runtime.tree.Confined next.tree fiber.scope fiber.definition.capability.id ∧
        (fiber.state = .active ∧ fiber.currentBinding runtime.tree ≠ fiber.dependencyEpoch ∨
          fiber.state = .pending ∧ (fiber.currentBinding runtime.tree).isSome = true) := by
  obtain ⟨fiber, tree, last, found, needs, underway, free, rfl⟩ := drives.driven
  have member := List.mem_of_getElem? found
  have stands := underway.stands
  unfold Stands at stands
  rw [free] at stands
  exact ⟨fiber, last, found, place_self found _, underway.kin, stands, underway.confined,
    ((drives.before.asked fiber member).needs (drives.before.whole.intact fiber member).kept
      (drives.before.rest fiber member) needs).2⟩

theorem Drives.fibers (drives : Drives base runtime id next) (different : other ≠ id) :
    next.fibers[other]? = runtime.fibers[other]? := by
  obtain ⟨fiber, tree, last, found, _, _, _, rfl⟩ := drives.driven
  exact place_other _ different

theorem Drives.unfailed (drives : Drives base runtime id next) : runtime.cell id ≠ .failed := by
  obtain ⟨fiber, last, found, _, _, _, _, stands⟩ := drives.needs
  unfold cell
  rw [found]
  rcases stands with ⟨active, _⟩ | ⟨pending, _⟩
  · rw [Option.map_some, active]
    exact fun same => by cases same
  · rw [Option.map_some, pending]
    exact fun same => by cases same

/-- A fiber that is hopeful does not stay pending. -/
theorem Drives.loads (drives : Drives base runtime id next) {fiber : CapabilityFiber ν}
    (found : runtime.fibers[id]? = some fiber) (hopeful : Hopeful runtime.tree fiber) :
    next.cell id ≠ .idle := by
  obtain ⟨same, last, there, after, _, drove, _⟩ := drives.needs
  rw [found] at there
  cases there
  unfold cell
  rw [after, Option.map_some]
  rcases drove.rests with pending | active | failed
  · exact absurd pending (drove.loads hopeful)
  · rw [active]
    exact fun same => by cases same
  · rw [failed]
    exact fun same => by cases same

theorem Drives.leaves (drives : Drives base runtime id next) (idle : runtime.cell id = .idle) :
    next.cell id ≠ .idle := by
  obtain ⟨fiber, last, found, _, _, _, _, stands⟩ := drives.needs
  unfold cell at idle
  rw [found, Option.map_some] at idle
  rcases stands with ⟨active, _⟩ | ⟨pending, visible⟩
  · rw [active] at idle
    cases idle
  · refine drives.loads found ⟨visible, fun active => ?_⟩
    rw [pending] at active
    cases active

theorem Drives.outdated (drives : Drives base runtime id next) (filled : runtime.cell id = .filled) :
    ¬ runtime.Tracks id := by
  obtain ⟨fiber, last, found, _, _, _, _, stands⟩ := drives.needs
  rintro ⟨same, there, fresh⟩
  rw [found] at there
  cases there
  unfold cell at filled
  rw [found, Option.map_some] at filled
  rcases stands with ⟨_, outdated⟩ | ⟨pending, _⟩
  · exact outdated fresh
  · rw [pending] at filled
    cases filled

theorem Drives.refills (drives : Drives base runtime id next) (separate : Separate base)
    (watched : id ∈ base.watched) (holds : runtime.Holds id)
    (admits : Admits base runtime (base.scopeOf id)) : next.cell id ≠ .idle := by
  obtain ⟨fiber, _, found, _⟩ := drives.needs
  rw [drives.before.framed.scopeOf found] at admits
  exact drives.loads found (admits.hopeful separate watched found holds)

theorem Drives.fills (drives : Drives base runtime id next) (filled : next.cell id = .filled) :
    next.Tracks id ∧ next.Holds id ∧ Admits base next (base.scopeOf id) := by
  obtain ⟨fiber, last, found, after, kin, drove, _⟩ := drives.needs
  have active : last.state = .active := by
    unfold cell at filled
    rw [after, Option.map_some] at filled
    rcases drove.rests with pending | active | failed
    · rw [pending] at filled
      cases filled
    · exact active
    · rw [failed] at filled
      cases filled
  obtain ⟨fresh, handle, held, named, entered⟩ := drove.current active
  have valid := entered.valid
  have entry := entered.entry
  rw [← kin.scope] at valid entry
  rw [drives.after.framed.scopeOf after]
  refine ⟨⟨last, after, fresh⟩, ⟨last, handle, after, ?_, ?_⟩, drives.after,
    drives.after.whole.coordinated.live (List.mem_of_getElem? after), valid⟩
  · rw [kin.definition]
    exact named
  · rw [kin.definition, ← named]
    exact entry

theorem Drives.others (drives : Drives base runtime id next) (different : other ≠ id) :
    next.cell other = runtime.cell other := by
  unfold cell
  rw [drives.fibers different]

theorem Drives.keepsHeld (drives : Drives base runtime id next) (separate : Separate base)
    (watched : id ∈ base.watched) (also : other ∈ base.watched) (different : other ≠ id)
    (holds : runtime.Holds other) : next.Holds other := by
  obtain ⟨fiber, last, found, _, _, _, confined, _⟩ := drives.needs
  obtain ⟨rival, handle, there, named, held⟩ := holds
  obtain ⟨one, place, kin⟩ := drives.before.framed.kin id fiber found
  obtain ⟨two, beside, framed⟩ := drives.before.framed.kin other rival there
  refine ⟨rival, handle, (drives.fibers different).trans there, named, ?_⟩
  rw [confined.slots rival.scope _ fun same => different ?_]
  · exact held
  · refine separate.apart other also id watched two one beside place ?_ ?_
    · rw [← framed.scope, ← kin.scope]
      exact same.1
    · rw [← framed.definition, ← kin.definition]
      exact same.2

theorem Drives.keepsTracking (drives : Drives base runtime id next) (different : other ≠ id)
    (unread : ¬ Reads base other id) (fresh : runtime.Tracks other) : next.Tracks other := by
  obtain ⟨fiber, last, found, _, _, _, confined, _⟩ := drives.needs
  obtain ⟨rival, there, same⟩ := fresh
  refine ⟨rival, (drives.fibers different).trans there, ?_⟩
  rw [← same]
  unfold CapabilityFiber.currentBinding
  rw [confined.contextResolve drives.before.sound drives.after.sound]
  by_contra inside
  obtain ⟨required, reached⟩ := not_or.mp inside
  obtain ⟨one, place, kin⟩ := drives.before.framed.kin id fiber found
  obtain ⟨two, beside, framed⟩ := drives.before.framed.kin other rival there
  refine unread ⟨two, one, beside, place, ?_, ?_⟩
  · rw [← framed.scope, ← kin.scope, ← drives.before.framed.shape.ancestors,
      ← drives.before.views (List.mem_of_getElem? there)]
    by_contra outside
    exact reached fun view member equal => outside (equal ▸ List.mem_map_of_mem member)
  · rw [← framed.definition, ← kin.definition]
    exact not_not.mp required

theorem Drives.keepsAdmits (drives : Drives base runtime id next) {scope : Nat}
    (above : scope < base.scopeOf id) (admits : Admits base runtime scope) : Admits base next scope := by
  obtain ⟨fiber, last, found, _, _, _, confined, _⟩ := drives.needs
  obtain ⟨_, live, valid⟩ := admits
  rw [drives.before.framed.scopeOf found] at above
  have outside : fiber.scope ∉ scope :: runtime.tree.topology.ancestors scope := by
    intro inside
    rcases List.mem_cons.mp inside with same | further
    · exact Nat.ne_of_gt above same
    · exact Nat.lt_asymm above (drives.before.sound.grounded.suffix further).1
  refine ⟨drives.after, (confined.live scope).trans live, ?_⟩
  rw [confined.graph drives.before.sound drives.after.sound drives.before.whole.opened
    drives.after.whole.opened live outside]
  exact valid

end Drive

/-- **The watched fibers as workers.** -/
def fiberWorkers (grounded : base.tree.topology.Grounded) (separate : Separate base) :
    Workers (ReactiveRuntime ν) {id // id ∈ base.snapshotFibers} where
  step runtime worker next := Drives base runtime worker.1 next
  cell runtime worker := runtime.cell worker.1
  bound runtime worker := runtime.Tracks worker.1
  owns runtime worker := runtime.Holds worker.1
  sound runtime scope := Admits base runtime scope
  place worker := base.scopeOf worker.1
  reads worker other := Reads base worker.1 other.1
  below := by
    rintro worker other ⟨fiber, rival, there, beside, above, _⟩
    unfold scopeOf
    rw [there, beside]
    rcases List.mem_cons.mp above with same | further
    · exact same.le
    · exact (grounded.suffix further).1.le
  acyclic admits := admits.acyclic
  unfailed drives := drives.unfailed
  leaves drives := drives.leaves
  outdated drives := drives.outdated
  refills := fun {_ worker _} drives _ holds admits =>
    drives.refills separate (mem_snapshotFibers.mp worker.2) holds admits
  fills drives := drives.fills
  others drives other different := drives.others fun same => different (Subtype.ext same)
  keepsOwned := fun {_ worker _} drives other different => drives.keepsHeld separate
    (mem_snapshotFibers.mp worker.2) (mem_snapshotFibers.mp other.2) fun same => different (Subtype.ext same)
  keepsBound drives other different unread :=
    drives.keepsTracking (fun same => different (Subtype.ext same)) unread
  keepsSound drives _ above admits := drives.keepsAdmits above admits

end ReactiveRuntime

/-! ### Turns -/

namespace ReactiveRuntime

open CapabilityFiber

variable {base runtime : ReactiveRuntime ν} {id : Nat} {fiber : CapabilityFiber ν}

theorem Framed.place (framed : Framed base runtime) (found : runtime.fibers[id]? = some fiber)
    {after : ScopeTree ν × CapabilityFiber ν} (kin : Kin fiber after.2)
    (shape : runtime.tree.topology.SameShape after.1.topology) : Framed base (runtime.place id after) := by
  refine ⟨framed.watched, fun other rival there => ?_, framed.shape.trans shape⟩
  rcases place_cases there with ⟨rfl, rfl⟩ | ⟨_, before⟩
  · obtain ⟨before, place, same⟩ := framed.kin id fiber found
    exact ⟨before, place, kin.context.trans same.context, kin.definition.trans same.definition⟩
  · exact framed.kin other rival before

end ReactiveRuntime

namespace SerialRuntime

open CapabilityFiber ReactiveRuntime

variable {owner next : SerialRuntime ν} {base runtime : ReactiveRuntime ν} {id : Nat}
  {fiber : CapabilityFiber ν} {after : ScopeTree ν × CapabilityFiber ν} {snapshot : List Nat} {drove : Bool}
  {report : WithdrawalReport} {reports : List WithdrawalReport}

theorem kept_of_registers {event : OwnerEvent ν} (registers : event.registers = true) : event.kept = true := by
  cases event with
  | abandon => cases registers
  | _ => rfl

theorem kept_of_awaits {event : OwnerEvent ν} (awaits : owner.awaits event = true) : event.kept = true := by
  cases event with
  | abandon => cases awaits
  | _ => rfl

/-- A turn keeps an owner steady and its fibers matched. -/
theorem Turn.keeps (turn : Turn owner next) (steady : Steady owner) (matched : owner.runtime.Matched) :
    Steady next ∧ next.runtime.Matched := by
  obtain ⟨effects, event, registers, _, awaits, rfl⟩ := turn
  have kept : ∀ effect ∈ effects, effect.kept = true := fun effect member =>
    kept_of_registers (registers effect member)
  have before := steady.run kept
  exact ⟨before.step (kept_of_awaits awaits),
    before.matched (steady.matched_run matched kept) (kept_of_awaits awaits)⟩

/-- Nothing happens once the topology lock is poisoned. -/
theorem run_poisoned (poisoned : owner.runtime.tree.poisoned = true) (events : List (OwnerEvent ν)) :
    owner.run events = owner := by
  induction events with
  | nil => rfl
  | cons event rest ih =>
    have still : owner.step event = owner := if_pos poisoned
    show (owner.step event).run rest = owner
    rw [still]
    exact ih

/-- No effect is registered while no fiber is driven. -/
theorem run_registers (unawaited : owner.phase.awaited = none) {effects : List (OwnerEvent ν)}
    (registers : ∀ effect ∈ effects, effect.registers = true) : owner.run effects = owner := by
  induction effects with
  | nil => rfl
  | cons effect rest ih =>
    obtain ⟨first, others⟩ := List.forall_mem_cons.mp registers
    have still : owner.step effect = owner := by
      unfold SerialRuntime.step
      split
      · rfl
      · cases effect with
        | fiber event =>
          cases phase : owner.phase with
          | calling id =>
            rw [phase] at unawaited
            cases unawaited
          | driving id snapshot report =>
            rw [phase] at unawaited
            cases unawaited
          | _ => rfl
        | _ => cases first
    show (owner.step effect).run rest = owner
    rw [still]
    exact ih others

/-- A fiber that is driven and rests. -/
theorem settle_free (found : runtime.fibers[id]? = some fiber) (free : after.2.transition = .free) :
    ∃ report', (⟨runtime.place id after, .driving id snapshot report, reports⟩ : SerialRuntime ν).settle =
      ⟨runtime.place id after, .reconciling snapshot true report', reports⟩ := by
  have resting : (runtime.place id after).resting id = true := by
    unfold resting
    rw [place_self found]
    exact decide_eq_true free
  refine ⟨(runtime.place id after).note id report, ?_⟩
  unfold settle
  simp only [resting, if_true]

theorem settle_busy (found : runtime.fibers[id]? = some fiber) (busy : after.2.transition ≠ .free) :
    (⟨runtime.place id after, .driving id snapshot report, reports⟩ : SerialRuntime ν).settle =
      ⟨runtime.place id after, .driving id snapshot report, reports⟩ := by
  have resting : (runtime.place id after).resting id = false := by
    unfold resting
    rw [place_self found]
    exact decide_eq_false busy
  unfold settle
  simp only [resting, Bool.false_eq_true, if_false]

/-- What happens to the fiber that is driven. -/
theorem step_driving (found : runtime.fibers[id]? = some fiber) (unpoisoned : after.1.poisoned = false)
    {event : FiberEvent ν} (running : event.running = true) :
    (⟨runtime.place id after, .driving id snapshot report, reports⟩ : SerialRuntime ν).step (.fiber event) =
      (⟨runtime.place id (after.2.step after.1 event), .driving id snapshot report, reports⟩ :
        SerialRuntime ν).settle := by
  have sane : ¬ (runtime.place id after).tree.poisoned = true := by
    rw [show (runtime.place id after).tree = after.1 from rfl, unpoisoned]
    exact Bool.false_ne_true
  have stepped : (runtime.place id after).step (.fiber id event) =
      runtime.place id (after.2.step after.1 event) := by
    unfold ReactiveRuntime.step
    rw [if_neg sane]
    simp only [place_self found]
    exact place_place id _ _
  unfold SerialRuntime.step
  rw [if_neg sane]
  simp only
  unfold work
  rw [if_pos running]
  simp only [stepped]

/-- **Effects that are registered leave a drive where it stands.** -/
theorem registers_driving {tree moved : ScopeTree ν} {now : CapabilityFiber ν}
    (found : runtime.fibers[id]? = some fiber) (underway : Underway tree fiber moved now)
    (busy : now.transition ≠ .free) {effects : List (OwnerEvent ν)}
    (registers : ∀ effect ∈ effects, effect.registers = true) : ∃ last, Underway tree fiber moved last ∧
      last.transition ≠ .free ∧ last.remains = now.remains ∧
        (⟨runtime.place id (moved, now), .driving id snapshot report, reports⟩ : SerialRuntime ν).run effects =
          ⟨runtime.place id (moved, last), .driving id snapshot report, reports⟩ := by
  induction effects generalizing now with
  | nil => exact ⟨now, underway, busy, rfl, rfl⟩
  | cons effect rest ih =>
    obtain ⟨first, others⟩ := List.forall_mem_cons.mp registers
    cases poisoned : moved.poisoned with
    | true =>
      obtain ⟨last, stands, moves, same, runs⟩ := ih underway busy others
      refine ⟨last, stands, moves, same, ?_⟩
      have still : (⟨runtime.place id (moved, now), .driving id snapshot report, reports⟩ :
          SerialRuntime ν).step effect =
            ⟨runtime.place id (moved, now), .driving id snapshot report, reports⟩ := if_pos poisoned
      rw [← runs]
      show SerialRuntime.run (SerialRuntime.step _ effect) rest = _
      rw [still]
    | false =>
      cases effect with
      | fiber event =>
        cases event with
        | register stack label =>
          obtain ⟨stands, same⟩ := underway.register stack label
          have moves : (now.register stack label).transition ≠ .free := by
            unfold CapabilityFiber.register
            split
            · exact busy
            · exact busy
          obtain ⟨last, stands, moving, equal, runs⟩ := ih stands moves others
          refine ⟨last, stands, moving, equal.trans same, ?_⟩
          rw [← runs]
          show SerialRuntime.run (SerialRuntime.step _ _) rest = _
          rw [step_driving found poisoned rfl]
          exact congrArg (SerialRuntime.run · rest) (settle_busy found moves)
        | _ => cases first
      | _ => cases first

/-! ### Where a turn leads -/

/-- **A turn between two drives**: the pass goes on, begins a drive, or ends. -/
theorem turn_reconciling (calm : Calm base runtime)
    (turn : Turn ⟨runtime, .reconciling snapshot drove report, reports⟩ next) :
    (snapshot = [] ∧ drove = false ∧ next = ⟨runtime, .idle, reports ++ [report]⟩) ∨
      (snapshot = [] ∧ drove = true ∧
        next = ⟨runtime, .reconciling runtime.snapshotFibers false report, reports⟩) ∨
      (∃ id rest, snapshot = id :: rest ∧ next = ⟨runtime, .reconciling rest drove report, reports⟩) ∨
      ∃ id rest fiber now more, snapshot = id :: rest ∧ runtime.fibers[id]? = some fiber ∧
        fiber.needsReconciliation runtime.tree = true ∧ Underway runtime.tree fiber runtime.tree now ∧
          now.transition ≠ .free ∧
            next = ⟨runtime.place id (runtime.tree, now), .driving id rest more, reports⟩ := by
  obtain ⟨effects, event, registers, unpoisoned, awaits, rfl⟩ := turn
  rw [run_registers rfl registers] at unpoisoned awaits ⊢
  have advance : event = .advance := by
    cases event with
    | advance => rfl
    | _ => cases awaits
  subst advance
  have stepped : (⟨runtime, .reconciling snapshot drove report, reports⟩ : SerialRuntime ν).step .advance =
      (⟨runtime, .reconciling snapshot drove report, reports⟩ : SerialRuntime ν).reconcile drove report
        snapshot := if_neg (by rw [unpoisoned]; exact Bool.false_ne_true)
  rw [stepped]
  cases snapshot with
  | nil =>
    cases drove with
    | false => exact .inl ⟨rfl, rfl, rfl⟩
    | true => exact .inr (.inl ⟨rfl, rfl, rfl⟩)
  | cons id rest =>
    simp only [SerialRuntime.reconcile]
    by_cases needs : runtime.needsReconciliation id = true
    · rw [if_pos needs]
      have needed := needs
      unfold ReactiveRuntime.needsReconciliation at needed
      rw [Option.any_eq_true] at needed
      obtain ⟨fiber, found, needed⟩ := needed
      have member := List.mem_of_getElem? found
      obtain ⟨underway, busy⟩ := underway_begin (calm.asked fiber member)
        (calm.whole.intact fiber member).kept (calm.matched fiber member) (calm.rest fiber member) needed
      refine .inr (.inr (.inr ⟨id, rest, fiber, _, { report with driven := report.driven ++ [id] }, rfl,
        found, needed, underway, busy, ?_⟩))
      rw [begin_eq_place unpoisoned found]
      exact settle_busy found busy
    · rw [if_neg needs]
      exact .inr (.inr (.inl ⟨id, rest, rfl, rfl⟩))

/-- **A turn of a drive** brings it nearer to its rest, or ends it. -/
theorem turn_driving {tree moved : ScopeTree ν} {now : CapabilityFiber ν}
    (found : runtime.fibers[id]? = some fiber) (start : tree.Sound)
    (underway : Underway tree fiber moved now) (busy : now.transition ≠ .free)
    (steady : Steady ⟨runtime.place id (moved, now), .driving id snapshot report, reports⟩)
    (turn : Turn ⟨runtime.place id (moved, now), .driving id snapshot report, reports⟩ next) :
    next.runtime.tree.poisoned = true ∨ ∃ later last, Underway tree fiber later last ∧
      ((last.transition = .free ∧ ∃ more, next =
          ⟨runtime.place id (later, last), .reconciling snapshot true more, reports⟩) ∨
        last.transition ≠ .free ∧ Prod.Lex (· < ·) (· < ·) last.remains now.remains ∧ next =
          ⟨runtime.place id (later, last), .driving id snapshot report, reports⟩) := by
  obtain ⟨effects, event, registers, unpoisoned, awaits, rfl⟩ := turn
  obtain ⟨ready, stands, _, same, runs⟩ := registers_driving found underway busy registers
  have steady := steady.run fun effect member => kept_of_registers (registers effect member)
  rw [runs] at unpoisoned awaits steady ⊢
  have unpoisoned : moved.poisoned = false := unpoisoned
  obtain ⟨inner, rfl, wanted⟩ : ∃ inner, event = .fiber inner ∧ ready.awaits inner = true := by
    cases event with
    | fiber inner =>
      refine ⟨inner, rfl, ?_⟩
      unfold SerialRuntime.awaits at awaits
      simp only [place_self found, Option.any_some] at awaits
      exact awaits
    | _ => cases awaits
  have running : inner.running = true := by
    cases inner with
    | go => rfl
    | returned result => rfl
    | cleaned result => rfl
    | _ => cases wanted
  have stands : Underway tree fiber (runtime.place id (moved, ready)).tree ready := stands
  have nearer := stands.step start steady.whole unpoisoned (List.mem_of_getElem? (place_self found _)) wanted
  rw [step_driving found unpoisoned running]
  rcases nearer with poisoned | ⟨stands, less⟩
  · left
    rw [settle_runtime]
    exact poisoned
  · rw [same] at less
    refine .inr ⟨_, _, stands, ?_⟩
    by_cases free : (ready.step moved inner).2.transition = .free
    · exact .inl ⟨free, settle_free found free⟩
    · exact .inr ⟨free, less, settle_busy found free⟩

/-! ### Every run of turns -/

/-- **Where a reconciliation stands.** -/
inductive Along (base : ReactiveRuntime ν) : SerialRuntime ν → Prop
  | poisoned {owner : SerialRuntime ν} (poisoned : owner.runtime.tree.poisoned = true) : Along base owner
  | idle {runtime : ReactiveRuntime ν} {reports : List WithdrawalReport}
      (fresh : ∀ id ∈ runtime.watched, runtime.needsReconciliation id = false) :
      Along base ⟨runtime, .idle, reports⟩
  | reconciling {runtime : ReactiveRuntime ν} {snapshot : List Nat} {drove : Bool}
      {report : WithdrawalReport} {reports : List WithdrawalReport} (calm : Calm base runtime)
      (within : ∀ id ∈ snapshot, id ∈ base.snapshotFibers) :
      Along base ⟨runtime, .reconciling snapshot drove report, reports⟩
  | driving {runtime : ReactiveRuntime ν} {id : Nat} {fiber now : CapabilityFiber ν} {moved : ScopeTree ν}
      {snapshot : List Nat} {report : WithdrawalReport} {reports : List WithdrawalReport}
      (calm : Calm base runtime) (within : ∀ other ∈ id :: snapshot, other ∈ base.snapshotFibers)
      (found : runtime.fibers[id]? = some fiber)
      (needs : fiber.needsReconciliation runtime.tree = true)
      (underway : Underway runtime.tree fiber moved now) (busy : now.transition ≠ .free) :
      Along base ⟨runtime.place id (moved, now), .driving id snapshot report, reports⟩

/-- A coordinator whose owner awaits no fiber is calm. -/
theorem Steady.calm (steady : Steady ⟨runtime, .reconciling snapshot drove report, reports⟩)
    (matched : runtime.Matched) (framed : Framed base runtime) : Calm base runtime :=
  ⟨steady.whole, steady.asked, steady.rest rfl, matched, framed⟩

/-- **A drive that comes to its rest.** -/
theorem drives_of_underway (calm : Calm base runtime) (found : runtime.fibers[id]? = some fiber)
    (needs : fiber.needsReconciliation runtime.tree = true) {later : ScopeTree ν} {last : CapabilityFiber ν}
    (underway : Underway runtime.tree fiber later last) (free : last.transition = .free)
    (steady : Steady ⟨runtime.place id (later, last), .reconciling snapshot drove report, reports⟩)
    (matched : (runtime.place id (later, last)).Matched) :
    Drives base runtime id (runtime.place id (later, last)) :=
  ⟨calm, steady.calm matched (calm.framed.place found underway.kin underway.confined.shape),
    fiber, later, last, found, needs, underway, free, rfl⟩

/-- **A turn leads along.** -/
theorem Along.turn (along : Along base owner) (steady : Steady owner) (matched : owner.runtime.Matched)
    (turn : Turn owner next) : Along base next := by
  obtain ⟨after, matching⟩ := turn.keeps steady matched
  cases along with
  | poisoned poisoned =>
    obtain ⟨effects, _, _, unpoisoned, _⟩ := turn
    rw [run_poisoned poisoned, poisoned] at unpoisoned
    cases unpoisoned
  | idle fresh =>
    obtain ⟨effects, event, registers, _, awaits, _⟩ := turn
    rw [run_registers rfl registers] at awaits
    cases event with
    | _ => cases awaits
  | @reconciling runtime snapshot drove report reports calm within =>
    rcases turn_reconciling calm turn with ⟨rfl, rfl, rfl⟩ | ⟨rfl, rfl, rfl⟩ | ⟨id, rest, rfl, rfl⟩ |
      ⟨id, rest, fiber, now, more, rfl, found, needs, underway, busy, rfl⟩
    · refine .idle fun id watched => ?_
      exact (steady.seen [] report rfl id watched).resolve_left List.not_mem_nil
    · refine .reconciling calm fun id member => ?_
      rw [mem_snapshotFibers] at member ⊢
      exact calm.framed.watched ▸ member
    · exact .reconciling calm fun other member => within other (List.mem_cons_of_mem _ member)
    · exact .driving calm within found needs underway busy
  | @driving runtime id fiber now moved snapshot report reports calm within found needs underway busy =>
    rcases turn_driving found calm.sound underway busy steady turn with
      poisoned | ⟨later, last, underway, ⟨free, more, rfl⟩ | ⟨busy, _, rfl⟩⟩
    · exact .poisoned poisoned
    · exact .reconciling (drives_of_underway calm found needs underway free after matching).after
        fun other member => within other (List.mem_cons_of_mem _ member)
    · exact .driving calm within found needs underway busy

/-- An owner that awaits nothing takes no turn. -/
theorem unturned_idle : ¬ Turn ⟨runtime, .idle, reports⟩ next := by
  rintro ⟨effects, event, registers, _, awaits, _⟩
  rw [run_registers rfl registers] at awaits
  cases event with
  | _ => cases awaits

/-- **A drive ends**, when every pass that follows it does. -/
theorem acc_driving (calm : Calm base runtime) (found : runtime.fibers[id]? = some fiber)
    (needs : fiber.needsReconciliation runtime.tree = true)
    (follows : ∀ next more, Drives base runtime id next →
      Steady ⟨next, .reconciling snapshot true more, reports⟩ → next.Matched →
        Acc (fun next owner => Turn owner next) ⟨next, .reconciling snapshot true more, reports⟩)
    {moved : ScopeTree ν} {now : CapabilityFiber ν} (underway : Underway runtime.tree fiber moved now)
    (busy : now.transition ≠ .free)
    (steady : Steady ⟨runtime.place id (moved, now), .driving id snapshot report, reports⟩)
    (matched : (runtime.place id (moved, now)).Matched) : Acc (fun next owner => Turn owner next)
      ⟨runtime.place id (moved, now), .driving id snapshot report, reports⟩ := by
  induction same : now.remains using
    (WellFounded.prod_lex Nat.lt_wfRel.wf Nat.lt_wfRel.wf).induction generalizing moved now with
  | _ rest ih =>
    subst same
    refine ⟨_, fun next turn => ?_⟩
    obtain ⟨after, matching⟩ := turn.keeps steady matched
    rcases turn_driving found calm.sound underway busy steady turn with
      poisoned | ⟨later, last, underway, ⟨free, more, rfl⟩ | ⟨busy, less, rfl⟩⟩
    · refine ⟨_, fun other turn => ?_⟩
      obtain ⟨effects, _, _, unpoisoned, _⟩ := turn
      rw [run_poisoned poisoned, poisoned] at unpoisoned
      cases unpoisoned
    · exact follows _ more (drives_of_underway calm found needs underway free after matching) after matching
    · exact ih _ less underway busy after matching rfl

/-- **Every pass ends.** -/
theorem acc_reconciling (grounded : base.tree.topology.Grounded) (separate : Separate base)
    (acc : Acc (fun next runtime => ∃ worker, (fiberWorkers grounded separate).step runtime worker next)
      runtime) (calm : Calm base runtime) (matched : runtime.Matched)
    (within : ∀ id ∈ snapshot, id ∈ base.snapshotFibers)
    (steady : Steady ⟨runtime, .reconciling snapshot drove report, reports⟩) :
    Acc (fun next owner => Turn owner next) ⟨runtime, .reconciling snapshot drove report, reports⟩ := by
  induction acc generalizing snapshot drove report reports with
  | intro runtime _ ih =>
    -- A pass, when the one that follows it ends.
    have passes (snapshot : List Nat) (drove : Bool) (report : WithdrawalReport)
        (within : ∀ id ∈ snapshot, id ∈ base.snapshotFibers)
        (steady : Steady ⟨runtime, .reconciling snapshot drove report, reports⟩)
        (again : drove = true → ∀ report,
          Steady ⟨runtime, .reconciling runtime.snapshotFibers false report, reports⟩ →
            Acc (fun next owner => Turn owner next)
              ⟨runtime, .reconciling runtime.snapshotFibers false report, reports⟩) :
        Acc (fun next owner => Turn owner next) ⟨runtime, .reconciling snapshot drove report, reports⟩ := by
      induction snapshot with
      | nil =>
        refine ⟨_, fun next turn => ?_⟩
        have after := (turn.keeps steady matched).1
        rcases turn_reconciling calm turn with ⟨_, _, rfl⟩ | ⟨_, driven, rfl⟩ | ⟨_, _, same, _⟩ |
          ⟨_, _, _, _, _, same, _⟩
        · exact ⟨_, fun other turn => absurd turn unturned_idle⟩
        · exact again driven report after
        · cases same
        · cases same
      | cons id others rest =>
        obtain ⟨first, within⟩ := List.forall_mem_cons.mp within
        refine ⟨_, fun next turn => ?_⟩
        obtain ⟨after, matching⟩ := turn.keeps steady matched
        rcases turn_reconciling calm turn with ⟨same, _⟩ | ⟨same, _⟩ | ⟨_, _, same, rfl⟩ |
          ⟨_, _, fiber, now, more, same, found, needs, underway, busy, rfl⟩
        · cases same
        · cases same
        · cases same
          exact rest within after
        · cases same
          refine acc_driving calm found needs (fun next more drives steady matched => ?_) underway busy after
            matching
          exact ih next ⟨⟨id, first⟩, drives⟩ drives.after matched within steady
    have listed : ∀ id ∈ runtime.snapshotFibers, id ∈ base.snapshotFibers := by
      intro id member
      rw [mem_snapshotFibers] at member ⊢
      exact calm.framed.watched ▸ member
    exact passes snapshot drove report within steady fun _ report steady =>
      passes runtime.snapshotFibers false report listed steady fun same => by cases same

/-- **What a reconciliation awaits can happen.** -/
theorem Along.goes (along : Along base owner) (unpoisoned : owner.runtime.tree.poisoned = false)
    (busy : owner.phase ≠ .idle) : ∃ next, Turn owner next := by
  have turns (event : OwnerEvent ν) (awaits : owner.awaits event = true) : ∃ next, Turn owner next :=
    ⟨_, [], event, fun _ member => absurd member List.not_mem_nil, unpoisoned, awaits, rfl⟩
  cases along with
  | poisoned poisoned =>
    rw [poisoned] at unpoisoned
    cases unpoisoned
  | idle fresh => exact absurd rfl busy
  | reconciling calm within => exact turns .advance rfl
  | @driving runtime id fiber now moved snapshot report reports calm within found needs underway moves =>
    have awaits (event : FiberEvent ν) (wanted : now.awaits event = true) :
        ∃ next, Turn ⟨runtime.place id (moved, now), .driving id snapshot report, reports⟩ next := by
      refine turns (.fiber event) ?_
      unfold SerialRuntime.awaits
      simp only [place_self found, Option.any_some]
      exact wanted
    cases transition : now.transition with
    | free => exact absurd transition moves
    | driving call force => exact awaits .go (by unfold CapabilityFiber.awaits; rw [transition])
    | loading call force publication dependencies =>
      exact awaits (.returned (.error [])) (by unfold CapabilityFiber.awaits; rw [transition])
    | publishing call force publication dependencies value =>
      exact awaits .go (by unfold CapabilityFiber.awaits; rw [transition])
    | cleaning call force purpose effects errors =>
      cases effects with
      | nil => exact awaits .go (by unfold CapabilityFiber.awaits; rw [transition])
      | cons effect rest =>
        exact awaits (.cleaned (.ok ())) (by unfold CapabilityFiber.awaits; rw [transition])

/-- **What holds along every run of turns.** -/
theorem Along.turns (along : Along base owner) (steady : Steady owner) (matched : owner.runtime.Matched)
    {last : SerialRuntime ν} (turns : Relation.ReflTransGen Turn owner last) :
    Along base last ∧ Steady last ∧ last.runtime.Matched := by
  induction turns with
  | refl => exact ⟨along, steady, matched⟩
  | tail _ turn ih =>
    obtain ⟨along, steady, matched⟩ := ih
    obtain ⟨after, matching⟩ := turn.keeps steady matched
    exact ⟨along.turn steady matched turn, after, matching⟩

/-- **A reconciliation settles** after every run in which no future is dropped, whatever the factories and the
disposers answer, when no two watched fibers publish one capability in one scope and no context isolates what
its fiber requires: the passes end, and then no watched fiber is out of date. -/
theorem reconcile_settles (calls : List (ContextCall ν))
    (untorn : ∀ call ∈ calls, ∀ scope, call ≠ .scope (.teardown scope)) (context : List ContextState)
    (member : some context ∈ ((ContextTree.root : ContextTree ν).run calls).contexts)
    (events : List (OwnerEvent ν)) (kept : ∀ event ∈ events, event.kept = true)
    (idle : ((new ((ContextTree.root : ContextTree ν).run calls) context).run events).phase = .idle)
    (separate : Separate ((new ((ContextTree.root : ContextTree ν).run calls) context).run events).runtime) :
    Settles (((new ((ContextTree.root : ContextTree ν).run calls) context).run events).call .reconcile) := by
  have begun : Steady (new ((ContextTree.root : ContextTree ν).run calls) context) :=
    steady_new (ContextTree.rooted_root.run calls)
      (ContextTree.opened_run ContextTree.rooted_root ScopeTree.opened_root untorn) member
  have matched := begun.matched_run (fun _ inside => absurd inside List.not_mem_nil) kept
  have steady := begun.run kept
  generalize (new ((ContextTree.root : ContextTree ν).run calls) context).run events = owner
    at idle separate matched steady ⊢
  have rest : owner.runtime.AtRest := steady.rest (by rw [idle]; rfl)
  have calm : Calm owner.runtime owner.runtime :=
    ⟨steady.whole, steady.asked, rest, matched, .refl owner.runtime⟩
  have called : Steady (owner.call .reconcile) :=
    steady_of_rest steady.whole steady.asked rest owner.reports fun snapshot report same id inside => .inl (by
      cases same
      exact mem_snapshotFibers.mpr inside)
  have along : Along owner.runtime (owner.call .reconcile) := .reconciling calm fun _ inside => inside
  have grounded := calm.sound.grounded
  refine ⟨acc_reconciling grounded separate ((fiberWorkers grounded separate).acc owner.runtime) calm matched
    (fun _ inside => inside) called, fun last turns unpoisoned busy => ?_,
    fun last turns unpoisoned done => ?_⟩
  · exact (along.turns called matched turns).1.goes unpoisoned busy
  · obtain ⟨stands, _⟩ := along.turns called matched turns
    cases stands with
    | poisoned poisoned =>
      rw [poisoned] at unpoisoned
      cases unpoisoned
    | idle fresh => exact fresh
    | reconciling calm within => cases done
    | driving calm within found needs underway busy => cases done

/-- Two fibers over one provider, one over the first of them, and the provider replaced: all three are to be
reloaded. -/
def replacedOnly : List (OwnerEvent Unit) :=
  [.call (.provide (sampleDefinition sampleD []) fun _ => .ok ())] ++ brought 0 sampleA [sampleD] ++
    brought 1 sampleB [sampleD] ++ brought 2 sampleAA [sampleA] ++
    [.call (.replace (sampleDefinition sampleD []) 1 fun _ => .ok ())]

theorem reconcile_settles_replacedOnly : Settles ((sampleOwner.run replacedOnly).call .reconcile) :=
  reconcile_settles [] (fun _ member => absurd member List.not_mem_nil) [⟨0, ∅, ∅⟩]
    (List.mem_singleton_self _) replacedOnly (by decide)
    (OwnerPhase.idle_of_rests (by decide +kernel)) (separate_of_separates (by decide +kernel))

end SerialRuntime

end Kernis
