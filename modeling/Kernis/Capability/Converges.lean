/-
**What a reconciliation leaves.**

When a reconciliation returns, no watched fiber is out of date. So a fiber whose dependencies are all visible
is active with them, unless it failed, and one that lacks a dependency publishes nothing. Admission looks at
everything that is visible: what still hangs on a fiber that failed fails the others that are driven next.

* `Favoured` — a fiber that has all that it takes to be active. `CapabilityFiber.Current` — it is active and
  bound to what its context resolves.
* `Steady.unrefused` — its publication is not refused, unless another stands in its way.
* `reconcile_converges` — every run in which nothing does and no future is dropped; `reconcile_leaks` — a run in
  which one fiber's failure does.
-/

import Kernis.Capability.Steady

namespace Kernis

open Std

variable {ν : Type}

/-! ### What a fiber is bound to -/

namespace CapabilityFiber

variable {fiber : CapabilityFiber ν} {tree : ScopeTree ν}

/-- **A fiber is active and bound to exactly what its context resolves now.** -/
def Current (tree : ScopeTree ν) (fiber : CapabilityFiber ν) : Prop :=
  fiber.state = .active ∧ ∃ handle, fiber.handle = some handle ∧
    tree.topology.contextResolve fiber.context fiber.definition.capability = .ok handle.dependencies

/-- **A fiber publishes nothing**: it holds no publication, and none that it made is current anywhere. -/
def PublishesNothing (tree : ScopeTree ν) (fiber : CapabilityFiber ν) : Prop :=
  fiber.handle = none ∧ ∀ handle ∈ fiber.published, ∀ (scope : Nat) (id : Id) (entry : CapabilityHandle ν),
    (tree.topology.level scope).entries[id]? = some entry → entry.entryId ≠ handle.entryId

/-- **Where a fiber stands that is up to date**, at rest and not disposed of. -/
theorem Asks.stands (asks : Asks fiber) (kept : Kept fiber) (free : fiber.transition = .free)
    (undisposed : fiber.state ≠ .disposed) (fresh : fiber.needsReconciliation tree = false) :
    fiber.state = .active ∧ currentBinding tree fiber = fiber.dependencyEpoch ∨
      fiber.state = .failed ∨ fiber.state = .pending ∧
        (fiber.definition.capability.dependencies.isEmpty = true ∨ currentBinding tree fiber = none) := by
  have poised := kept.poised
  unfold Poised at poised
  rw [free] at poised
  unfold needsReconciliation at fresh
  cases state : fiber.state with
  | active =>
    rw [state] at fresh
    exact .inl ⟨rfl, not_not.mp (of_decide_eq_false fresh)⟩
  | failed => exact .inr (.inl rfl)
  | pending =>
    rw [state] at fresh
    refine .inr (.inr ⟨rfl, ?_⟩)
    cases empty : fiber.definition.capability.dependencies.isEmpty with
    | true => exact .inl rfl
    | false =>
      simp only [empty, Bool.not_false, Bool.true_and] at fresh
      exact .inr (Option.not_isSome_iff_eq_none.mp (Bool.eq_false_iff.mp fresh))
  | loading => exact absurd (asks.disposed free (poised.1 state)) undisposed
  | unloading => exact absurd state poised.2
  | disposed => exact absurd state undisposed

/-- A fiber that is about to publish holds nothing. -/
theorem Kept.unpublished (kept : Kept fiber) (publishes : fiber.transition.publishes = true) :
    fiber.handle = none := by
  have poised := kept.poised
  unfold Poised at poised
  by_contra holds
  obtain ⟨handle, held⟩ := Option.ne_none_iff_exists'.mp holds
  cases transition : fiber.transition with
  | publishing call force publication dependencies value =>
    rw [transition] at poised
    rcases kept.held handle held with state | state
    · rw [show fiber.state = .loading from poised] at state
      cases state
    · rw [show fiber.state = .loading from poised] at state
      cases state
  | _ =>
    rw [transition] at publishes
    cases publishes

/-- Two snapshots of published entries with one binding are the same. -/
theorem snapshot_eq (sound : tree.Sound) {first second : ResolvedDependencies ν}
    (known : ∀ dependency ∈ first, ∃ scope, (scope, dependency.2) ∈ tree.published)
    (recorded : ∀ dependency ∈ second, ∃ scope, (scope, dependency.2) ∈ tree.published)
    (same : bindingOf first = bindingOf second) : first = second := by
  induction first generalizing second with
  | nil =>
    cases second with
    | nil => rfl
    | cons other others => cases same
  | cons one rest ih =>
    cases second with
    | nil => cases same
    | cons other others =>
      obtain ⟨⟨scope, here⟩, further⟩ := List.forall_mem_cons.mp known
      obtain ⟨⟨place, there⟩, beyond⟩ := List.forall_mem_cons.mp recorded
      obtain ⟨head, tail⟩ := List.cons.inj same
      obtain ⟨name, _, entry⟩ : one.1 = other.1 ∧ one.2.generation = other.2.generation ∧
          one.2.entryId = other.2.entryId := by simpa using head
      have equal : one = other := Prod.ext name (sound.same_entry here there entry)
      rw [equal, ih further beyond tail]

/-- **An active fiber that is up to date is current**, when its dependencies resolve. -/
theorem Bound.current (bound : Bound tree fiber) (sound : tree.Sound) (active : fiber.state = .active)
    (fresh : currentBinding tree fiber = fiber.dependencyEpoch) {dependencies : ResolvedDependencies ν}
    (resolved : tree.topology.contextResolve fiber.context fiber.definition.capability = .ok dependencies) :
    Current tree fiber := by
  have now : currentBinding tree fiber = some (bindingOf dependencies) := by
    unfold currentBinding
    rw [resolved]
    rfl
  rw [now] at fresh
  cases held : fiber.handle with
  | none =>
    rw [bound.bare held] at fresh
    cases fresh
  | some handle =>
    obtain ⟨known, epoch⟩ := bound.known handle held
    rw [epoch] at fresh
    refine ⟨active, handle, held, ?_⟩
    rw [resolved]
    refine congrArg Except.ok (snapshot_eq sound (fun dependency member => ?_) (fun dependency member => ?_)
      (Option.some.inj fresh))
    · obtain ⟨_, each⟩ := Topology.resolved_of_mapM resolved
      obtain ⟨scope, here⟩ := Topology.contextGet_held (each dependency member)
      exact ⟨scope, (sound.recorded scope _ _ here).2⟩
    · exact ((sound.built _ known).known dependency member).2

/-- **A fiber that lacks a dependency and is up to date publishes nothing.** -/
theorem Bound.nothing (bound : Bound tree fiber) (owns : Owns tree fiber) (kept : Kept fiber)
    (free : fiber.transition = .free) (fresh : fiber.needsReconciliation tree = false)
    (missing : currentBinding tree fiber = none) : PublishesNothing tree fiber := by
  have empty : fiber.handle = none := by
    by_contra holds
    obtain ⟨handle, held⟩ := Option.ne_none_iff_exists'.mp holds
    rcases kept.held handle held with active | unloading
    · unfold needsReconciliation at fresh
      rw [active] at fresh
      have same := not_not.mp (of_decide_eq_false fresh)
      rw [missing, (bound.known handle held).2] at same
      cases same
    · have poised := kept.poised
      unfold Poised at poised
      rw [free] at poised
      exact poised.2 unloading
  refine ⟨empty, fun handle published scope id entry there same => ?_⟩
  have held := owns.current handle published scope id entry there same
  rw [empty] at held
  cases held

end CapabilityFiber

namespace SerialRuntime

open CapabilityFiber ReactiveRuntime

variable {owner start : SerialRuntime ν} {events : List (OwnerEvent ν)}

/-! ### Checks of a run -/

/-- A check of every state holds of the state after any part of the run. -/
theorem throughout_after {check : SerialRuntime ν → Bool} {front back : List (OwnerEvent ν)}
    (throughout : Throughout check owner (front ++ back) = true) : check (owner.run front) = true := by
  induction front generalizing owner with
  | nil =>
    cases back with
    | nil => exact throughout
    | cons event rest => exact (Bool.and_eq_true_iff.mp throughout).1
  | cons event rest ih => exact ih (Bool.and_eq_true_iff.mp throughout).2

/-- A factory that never fails does not fail after any part of the run. -/
theorem succeeds_after {id : Nat} {front back : List (OwnerEvent ν)} {event : OwnerEvent ν}
    (succeeds : Succeeds id owner (front ++ event :: back) = true) :
    SerialRuntime.succeeds id (owner.run front) event = true := by
  induction front generalizing owner with
  | nil => exact (Bool.and_eq_true_iff.mp succeeds).1
  | cons first rest ih => exact ih (Bool.and_eq_true_iff.mp succeeds).2

/-! ### A reconciliation that returns -/

/-- A fiber that is about to publish would close a cycle in what some scope sees. -/
def ClosesCycle (id : Nat) (owner : SerialRuntime ν) : Prop :=
  ∃ fiber other, owner.runtime.fibers[id]? = some fiber ∧ fiber.transition.publishes = true ∧
    owner.runtime.tree.topology.sees fiber.scope fiber.definition.capability.id other = true ∧
      Relation.TransGen
        ((owner.runtime.tree.topology.graph other).insert fiber.definition.capability).Requires
        fiber.definition.capability.id fiber.definition.capability.id

/-- **A fiber that has all that it takes to be active** when a run ends: it is watched and not disposed of, it
has dependencies and all are visible, its factory never failed, it closed no cycle, and nobody else
published its capability in its scope. -/
structure Favoured (start : SerialRuntime ν) (events : List (OwnerEvent ν)) (id : Nat)
    (fiber : CapabilityFiber ν) : Prop where
  watched : id ∈ (start.run events).runtime.watched
  found : (start.run events).runtime.fibers[id]? = some fiber
  undisposed : fiber.state ≠ .disposed
  dependent : fiber.definition.capability.dependencies.isEmpty = false
  visible : ∀ dependency ∈ fiber.definition.capability.dependencies,
    ((start.run events).runtime.tree.topology.contextGet fiber.context dependency).isSome = true
  succeeds : Succeeds id start events = true
  acyclic : ∀ front back, events = front ++ back → ¬ ClosesCycle id (start.run front)
  sole : Throughout (sole id) start events = true

/-- **What reconciliation promises** when it returns: a fiber that has all that it takes is active and bound to
exactly what its context resolves, and one that lacks a dependency publishes nothing. -/
structure Converges (start : SerialRuntime ν) (events : List (OwnerEvent ν)) : Prop where
  active : ∀ id fiber, Favoured start events id fiber → Current (start.run events).runtime.tree fiber
  missing : ∀ id ∈ (start.run events).runtime.watched, ∀ fiber,
    (start.run events).runtime.fibers[id]? = some fiber →
      (∃ dependency ∈ fiber.definition.capability.dependencies,
        (start.run events).runtime.tree.topology.contextGet fiber.context dependency = none) →
        PublishesNothing (start.run events).runtime.tree fiber

theorem steady_new {contexts : ContextTree ν} (rooted : contexts.Rooted) (opened : contexts.tree.Opened)
    {context : List ContextState} (member : some context ∈ contexts.contexts) :
    Steady (new contexts context) :=
  steady_of_rest (whole_new rooted opened member) (fun _ inside => absurd inside List.not_mem_nil)
    (fun _ inside => absurd inside List.not_mem_nil) [] fun _ _ same => by cases same

/-- What is watched is up to date when a reconciliation returns. -/
theorem Steady.fresh (steady : Steady owner) (returns : owner.returns = true) {id : Nat}
    (watched : id ∈ owner.runtime.watched) {fiber : CapabilityFiber ν}
    (found : owner.runtime.fibers[id]? = some fiber) :
    fiber.transition = .free ∧ fiber.needsReconciliation owner.runtime.tree = false := by
  obtain ⟨report, phase⟩ : ∃ report, owner.phase = .reconciling [] false report := by
    unfold SerialRuntime.returns at returns
    split at returns
    · exact ⟨_, ‹_›⟩
    · cases returns
  refine ⟨steady.free id fiber found (by rw [phase]; exact fun same => by cases same), ?_⟩
  have checked := (steady.seen [] report phase id watched).resolve_left List.not_mem_nil
  unfold ReactiveRuntime.needsReconciliation at checked
  rw [found] at checked
  exact checked

/-- A fiber that holds nothing and is alone with its capability has a vacant slot. -/
theorem vacant_of_sole {id : Nat} {fiber : CapabilityFiber ν}
    (found : owner.runtime.fibers[id]? = some fiber) (empty : fiber.handle = none)
    (alone : owner.sole id = true) : (owner.runtime.tree.topology.level
      fiber.scope).entries[fiber.definition.capability.id]? = none := by
  unfold SerialRuntime.sole at alone
  rw [found] at alone
  simp only [Option.all_some, empty, Option.map_none] at alone
  cases held : (owner.runtime.tree.topology.level fiber.scope).entries[fiber.definition.capability.id]? with
  | none => rfl
  | some entry =>
    rw [held] at alone
    have same : none = some entry.entryId := of_decide_eq_true alone
    cases same

/-- **The publication of a fiber that has all that it takes is not refused**, unless another stands in its
way. -/
theorem Steady.unrefused (steady : Steady owner) (unpoisoned : owner.runtime.tree.poisoned = false) {id : Nat}
    (acyclic : ¬ ClosesCycle id owner) (alone : owner.sole id = true)
    (unblocked : owner.unblocked = true) (error : ScopeError) : ¬ owner.runtime.Refuses id error := by
  rintro ⟨fiber, call, force, publication, dependencies, value, found, publishing, failed⟩
  have member := List.mem_of_getElem? found
  have publishes : fiber.transition.publishes = true := by
    rw [publishing]
    rfl
  have loads : fiber.loads = some (publication, dependencies) := by
    unfold CapabilityFiber.loads
    rw [publishing]
  have empty := (steady.whole.intact fiber member).kept.unpublished publishes
  have blocked := (steady.whole.refused_iff unpoisoned member loads
    (steady.current fiber member call force publication dependencies value publishing)
    (vacant_of_sole found empty alone)
    (fun other seen cycle => acyclic ⟨fiber, other, found, publishes, seen, cycle⟩) value).mp ⟨error, failed⟩
  have free := List.all_eq_true.mp unblocked fiber member
  rw [publishes, blocked] at free
  cases free

/-- **A fiber that has all that it takes did not fail**, when nothing stood in the way of a publication. -/
theorem Steady.unfailed (steady : Steady start) (bare : start.runtime.fibers = [])
    (kept : ∀ event ∈ events, event.kept = true) (unblocked : Throughout unblocked start events = true)
    {id : Nat} {fiber : CapabilityFiber ν} (favoured : Favoured start events id fiber) :
    fiber.state ≠ .failed := by
  intro failed
  obtain ⟨cause, _, because⟩ := (steady.excused_run bare kept id fiber favoured.found).failed failed
  cases cause with
  | factory reason =>
    obtain ⟨front, back, split, awaits⟩ := because
    have succeeds := favoured.succeeds
    rw [split] at succeeds
    exact absurd awaits (of_decide_eq_true (succeeds_after succeeds))
  | refused error =>
    obtain ⟨front, back, rfl, unpoisoned, refuses⟩ := because
    have before := steady.run fun event member => kept event (List.mem_append_left back member)
    exact before.unrefused unpoisoned (favoured.acyclic front back rfl) (throughout_after favoured.sole)
      (throughout_after unblocked) error refuses

/-- **Reconciliation converges** in every run in which no future is dropped and nothing stands in the way of a
fiber that is about to publish: when a reconciliation returns, every watched fiber that has all that it takes
is active and bound to exactly what its context resolves, and every watched fiber that lacks a dependency
publishes nothing. -/
theorem reconcile_converges (calls : List (ContextCall ν))
    (untorn : ∀ call ∈ calls, ∀ scope, call ≠ .scope (.teardown scope)) (context : List ContextState)
    (member : some context ∈ ((ContextTree.root : ContextTree ν).run calls).contexts)
    (events : List (OwnerEvent ν)) (kept : ∀ event ∈ events, event.kept = true)
    (unblocked : Throughout unblocked (new ((ContextTree.root : ContextTree ν).run calls) context) events =
      true)
    (returns : ((new ((ContextTree.root : ContextTree ν).run calls) context).run events).returns = true) :
    Converges (new ((ContextTree.root : ContextTree ν).run calls) context) events := by
  have begun : Steady (new ((ContextTree.root : ContextTree ν).run calls) context) :=
    steady_new (ContextTree.rooted_root.run calls)
      (ContextTree.opened_run ContextTree.rooted_root ScopeTree.opened_root untorn) member
  have bare : (new ((ContextTree.root : ContextTree ν).run calls) context).runtime.fibers = [] := rfl
  generalize new ((ContextTree.root : ContextTree ν).run calls) context = start
    at begun bare unblocked returns ⊢
  have steady := begun.run kept
  refine ⟨fun id fiber favoured => ?_, fun id watched fiber found lacks => ?_⟩
  · have inside := List.mem_of_getElem? favoured.found
    have intact := steady.whole.intact fiber inside
    obtain ⟨free, fresh⟩ := steady.fresh returns favoured.watched favoured.found
    obtain ⟨dependencies, resolved⟩ := Topology.resolves_iff.mpr favoured.visible
    rcases (steady.asked fiber inside).stands intact.kept free favoured.undisposed fresh with
      ⟨active, same⟩ | failed | ⟨_, empty | unresolved⟩
    · exact (steady.whole.coordinated.bound fiber inside).current intact.sound active same resolved
    · exact absurd failed (begun.unfailed bare kept unblocked favoured)
    · rw [favoured.dependent] at empty
      cases empty
    · unfold currentBinding at unresolved
      rw [resolved] at unresolved
      cases unresolved
  · have inside := List.mem_of_getElem? found
    have intact := steady.whole.intact fiber inside
    obtain ⟨free, fresh⟩ := steady.fresh returns watched found
    refine (steady.whole.coordinated.bound fiber inside).nothing intact.owns intact.kept free fresh ?_
    obtain ⟨dependency, required, absent⟩ := lacks
    unfold currentBinding
    cases resolved : (start.run events).runtime.tree.topology.contextResolve fiber.context
        fiber.definition.capability with
    | error error => rfl
    | ok dependencies =>
      have seen := Topology.resolves_iff.mp ⟨dependencies, resolved⟩ dependency required
      rw [absent] at seen
      cases seen

/-! ### One failure fails another -/

/-- A coordinator over an empty root scope. -/
def sampleOwner : SerialRuntime Unit := new ((ContextTree.root : ContextTree Unit).run []) [⟨0, ∅, ∅⟩]

/-- The rest of a load whose factory returns this. -/
def factory (result : Except Text Unit) : List (OwnerEvent Unit) :=
  [.fiber .go, .fiber (.returned result), .fiber .go]

/-- A fiber is created, watched and loaded. -/
def brought (id : Nat) (capability : Id) (dependencies : List Id) : List (OwnerEvent Unit) :=
  [.call (.instantiate ⟨capability, sampleDefinition capability dependencies, fun _ => .ok ()⟩ 0 []),
    .call (.watch id), .call (.fiber id .start)] ++ factory (.ok ())

/-- Two fibers over one provider, and one over the first of them. Then the provider is replaced. -/
def replacedProvider : List (OwnerEvent Unit) :=
  [.call (.provide (sampleDefinition sampleD []) fun _ => .ok ())] ++ brought 0 sampleA [sampleD] ++
    brought 1 sampleB [sampleD] ++ brought 2 sampleAA [sampleA] ++
    [.call (.replace (sampleDefinition sampleD []) 1 fun _ => .ok ()), .call .reconcile]

/-- The next fiber of a pass is unloaded, and its factory returns this. -/
def reloaded (result : Except Text Unit) : List (OwnerEvent Unit) :=
  [.advance, .fiber .go, .fiber .go] ++ factory result

/-- A pass that drives none of three fibers. -/
def quietPass : List (OwnerEvent Unit) := [.advance, .advance, .advance, .advance]

/-- All three are reloaded. -/
def everyReload : List (OwnerEvent Unit) :=
  replacedProvider ++ reloaded (.ok ()) ++ reloaded (.ok ()) ++ reloaded (.ok ()) ++ quietPass

theorem reconcile_converges_everyReload : Converges sampleOwner everyReload :=
  reconcile_converges [] (fun _ member => absurd member List.not_mem_nil) [⟨0, ∅, ∅⟩]
    (List.mem_singleton_self _) everyReload (by decide) (by decide +kernel) (by decide +kernel)

/-- The factory of the first fails. The third still hangs on what the first published when the second is
published, and is unloaded after it. -/
def failedReload : List (OwnerEvent Unit) :=
  replacedProvider ++ reloaded (.error []) ++ reloaded (.ok ()) ++ [.fiber .go] ++
    [.advance, .fiber .go, .fiber .go] ++ quietPass

/-- The provider of a fiber with an effect is disposed of, and the reconciliation that unloads the fiber is
dropped in its disposer. -/
def droppedUnload : List (OwnerEvent Unit) :=
  brought 0 sampleA [] ++ brought 1 sampleB [sampleA] ++
    [.call (.effect 1 []), .call (.fiber 0 .dispose), .fiber .go, .call .reconcile, .advance, .advance,
      .fiber .go, .abandon, .call .reconcile, .advance, .advance, .fiber .go, .advance, .advance, .advance]

/-- Whether nothing that a scope sees requires what a fiber publishes. -/
def unrequired (id : Nat) (owner : SerialRuntime ν) : Bool :=
  owner.runtime.fibers[id]?.all fun fiber =>
    (List.range owner.runtime.tree.topology.scopes.length).all fun other =>
      ((owner.runtime.tree.topology.graph other).insert fiber.definition.capability).definitions.toList.all
        fun entry => fiber.definition.capability.id ∉ entry.2.dependencies

theorem acyclic_of_unrequired {id : Nat} (unrequired : owner.unrequired id = true) :
    ¬ ClosesCycle id owner := by
  rintro ⟨fiber, other, found, _, seen, cycle⟩
  unfold SerialRuntime.unrequired at unrequired
  rw [found] at unrequired
  have free := List.all_eq_true.mp unrequired other
    (List.mem_range.mpr (Topology.lt_of_live (Topology.sees_iff.mp seen).1.1))
  obtain ⟨capability, _, definition, held, requires⟩ := Relation.TransGen.tail'_iff.mp cycle
  exact of_decide_eq_true (List.all_eq_true.mp free (capability, definition)
    (ExtTreeMap.mem_toList_iff_getElem?_eq_some.mpr held)) requires

/-- **One fiber's failure fails another**, which is driven between the failure and the unload of what hangs on
it; and a dropped unload leaves a publication in its place. -/
theorem reconcile_leaks :
    (¬ ∀ events : List (OwnerEvent Unit), (∀ event ∈ events, event.kept = true) →
      (sampleOwner.run events).returns = true → Converges sampleOwner events) ∧
    ¬ ∀ events : List (OwnerEvent Unit), Throughout unblocked sampleOwner events = true →
      (sampleOwner.run events).returns = true → Converges sampleOwner events := by
  constructor
  · intro all
    obtain ⟨fiber, found⟩ := Option.isSome_iff_exists.mp
      (show ((sampleOwner.run failedReload).runtime.fibers[1]?).isSome = true by decide +kernel)
    have stands : ((sampleOwner.run failedReload).runtime.fibers[1]?.all fun fiber =>
        fiber.state = .failed ∧ fiber.definition.capability.dependencies.isEmpty = false ∧
          ∀ dependency ∈ fiber.definition.capability.dependencies.toList,
            ((sampleOwner.run failedReload).runtime.tree.topology.contextGet fiber.context
              dependency).isSome = true) = true := by decide +kernel
    rw [found] at stands
    obtain ⟨failed, dependent, visible⟩ := of_decide_eq_true stands
    have acyclic : Throughout (unrequired 1) sampleOwner failedReload = true := by decide +kernel
    have favoured : Favoured sampleOwner failedReload 1 fiber := by
      refine ⟨by decide +kernel, found, ?_, dependent, fun dependency required =>
        visible dependency (ExtTreeSet.mem_toList.mpr required), by decide +kernel,
        fun front back split => ?_, by decide +kernel⟩
      · rw [failed]
        exact fun same => by cases same
      · rw [split] at acyclic
        exact acyclic_of_unrequired (throughout_after acyclic)
    have active := ((all failedReload (by decide) (by decide +kernel)).active 1 fiber favoured).1
    rw [failed] at active
    cases active
  · intro all
    obtain ⟨fiber, found⟩ := Option.isSome_iff_exists.mp
      (show ((sampleOwner.run droppedUnload).runtime.fibers[1]?).isSome = true by decide +kernel)
    have stands : ((sampleOwner.run droppedUnload).runtime.fibers[1]?.all fun fiber =>
        fiber.handle.isSome = true ∧ sampleA ∈ fiber.definition.capability.dependencies ∧
          ((sampleOwner.run droppedUnload).runtime.tree.topology.contextGet fiber.context
            sampleA).isSome = false) = true := by decide +kernel
    rw [found] at stands
    obtain ⟨holds, required, absent⟩ := of_decide_eq_true stands
    have empty := ((all droppedUnload (by decide +kernel) (by decide +kernel)).missing 1 (by decide +kernel)
      fiber found ⟨sampleA, required, Option.not_isSome_iff_eq_none.mp (Bool.eq_false_iff.mp absent)⟩).1
    rw [empty] at holds
    cases holds

end SerialRuntime

end Kernis
