/-
**One drive of a fiber, from its start to its rest.**

A drive changes no slot but the fiber's own, so every context and every scope sees elsewhere what it saw.

* `Confined` — one slot at most changes; `Confined.contextGet`, `Confined.graph`.
* `Sound.valid_published`, `fresh_refusal` — what a publication leaves, and what does not refuse it.
* `Drove` — what a drive comes to. `Underway` — where it stands; `Underway.step`.
-/

import Kernis.Capability.Steady

namespace Kernis

open Std

variable {ν : Type}

/-! ### Lists -/

theorem findSome_congr {α β : Type} {one two : α → Option β} {values : List α}
    (same : ∀ value ∈ values, one value = two value) : values.findSome? one = values.findSome? two := by
  induction values with
  | nil => rfl
  | cons value rest ih =>
    obtain ⟨first, others⟩ := List.forall_mem_cons.mp same
    rw [List.findSome?_cons, List.findSome?_cons, first, ih others]

theorem mapM_congr {α β ε : Type} {one two : α → Except ε β} {values : List α}
    (same : ∀ value ∈ values, one value = two value) : values.mapM one = values.mapM two := by
  induction values with
  | nil => rfl
  | cons value rest ih =>
    obtain ⟨first, others⟩ := List.forall_mem_cons.mp same
    rw [List.mapM_cons, List.mapM_cons, first, ih others]

/-! ### One slot -/

namespace ScopeTree

variable {tree later last : ScopeTree ν} {scope : Nat} {capability : Id}

/-- **One slot at most changes**, and no scope comes or goes. -/
structure Confined (tree later : ScopeTree ν) (scope : Nat) (capability : Id) : Prop
    extends Touches tree later scope capability where
  shape : tree.topology.SameShape later.topology

theorem Confined.of_topology (same : later.topology = tree.topology) : Confined tree later scope capability :=
  ⟨.of_topology same, same ▸ .refl⟩

theorem Confined.trans (first : Confined tree later scope capability)
    (second : Confined later last scope capability) : Confined tree last scope capability := by
  refine ⟨⟨fun other id apart => ?_, fun other => ?_⟩, first.shape.trans second.shape⟩
  · rw [second.slots other id apart, first.slots other id apart]
  · rw [second.live, first.live]

theorem confined_withdraw (tree : ScopeTree ν) (scope : Nat) (capability : Id) (expected : Nat) :
    Confined tree (tree.step (.withdraw scope capability expected)).2 scope capability := by
  refine ⟨touches_withdraw expected, ?_⟩
  rcases tree.step_withdraw_cases scope capability expected with ⟨same, _⟩ | ⟨entry, same, _⟩
  · rw [same]
    exact .refl
  · rw [same]
    exact Topology.sameShape_remove scope capability

theorem confined_install (scope : Nat) (expectation : PublishExpectation) (handle : CapabilityHandle ν) :
    Confined tree (tree.install scope expectation handle) scope handle.definition.id := by
  refine ⟨touches_modify (fun state =>
    { state with entries := state.entries.insert handle.definition.id handle }) (fun state id other => ?_)
    (fun _ => rfl) rfl, Topology.sameShape_install scope handle⟩
  exact lookup_insert_ne _ _ fun same => other same.symm

/-- **A context finds what it found**, unless it looks into the slot. -/
theorem Confined.contextGet (confined : Confined tree later scope capability) (sound : tree.Sound)
    (after : later.Sound) {context : List ContextState} {id : Id}
    (outside : id ≠ capability ∨ ∀ view ∈ context, view.scope ≠ scope) :
    later.topology.contextGet context id = tree.topology.contextGet context id := by
  rw [Topology.contextGet_eq_findSome after.vacant, Topology.contextGet_eq_findSome sound.vacant]
  obtain ⟨rest, split⟩ := Topology.within_prefix id context
  refine findSome_congr fun view member => confined.slots view.scope id fun same => ?_
  rcases outside with other | elsewhere
  · exact other same.2
  · exact elsewhere view (split ▸ List.mem_append_left rest member) same.1

/-- **A context resolves what it resolved**, unless it looks into the slot. -/
theorem Confined.contextResolve (confined : Confined tree later scope capability) (sound : tree.Sound)
    (after : later.Sound) {context : List ContextState} {definition : CapabilityDefinition}
    (outside : capability ∉ definition.dependencies ∨ ∀ view ∈ context, view.scope ≠ scope) :
    later.topology.contextResolve context definition = tree.topology.contextResolve context definition := by
  unfold Topology.contextResolve
  refine mapM_congr fun dependency required => ?_
  rw [confined.contextGet sound after (outside.imp_left fun free same => free ?_)]
  rw [← same]
  exact ExtTreeSet.mem_toList.mp required

/-- **A scope sees the graph that it saw**, unless it lies below the slot. -/
theorem Confined.graph (confined : Confined tree later scope capability) (sound : tree.Sound)
    (after : later.Sound) (opened : tree.Opened) (still : later.Opened) {level : Nat}
    (live : tree.topology.live level = true) (outside : scope ∉ level :: tree.topology.ancestors level) :
    later.topology.graph level = tree.topology.graph level := by
  have lives : later.topology.live level = true := (confined.live level).trans live
  refine sound.named.graph_congr after.named fun id => ?_
  rw [Topology.get_eq_findSome (after.path_open lives (still level lives)),
    Topology.get_eq_findSome (sound.path_open live (opened level live)), confined.shape.ancestors]
  refine findSome_congr fun other member => confined.slots other id fun same => ?_
  exact outside (same.1 ▸ member)

/-! ### A publication -/

/-- **What a publication leaves**: its entry, in a scope that sees a valid graph. It does not require itself. -/
structure Entered (tree : ScopeTree ν) (scope : Nat) (handle : CapabilityHandle ν) : Prop where
  entry : (tree.topology.level scope).entries[handle.definition.id]? = some handle
  valid : (tree.topology.graph scope).Valid
  apart : handle.definition.id ∉ handle.definition.dependencies

theorem Sound.entered (sound : tree.Sound) {publication generation : Nat} {begun : Publication ν} {value : ν}
    (installs : Installs tree publication begun value generation) :
    Entered (tree.step (.constructed publication (.ok value))).2 begun.scope
      ⟨begun.definition, value, begun.dependencies, generation, tree.nextEntryId⟩ := by
  have isOpen := isOpen_of_admitted installs.admitted
  have own : tree.topology.candidateAffects begun.scope begun.definition.id
      (begun.scope :: tree.topology.ancestors begun.scope) = true := if_pos rfl
  have valid := sound.admits installs.admitted installs.live isOpen own
  have sees : (tree.topology.install begun.scope
      ⟨begun.definition, value, begun.dependencies, generation, tree.nextEntryId⟩).graph begun.scope =
        (tree.topology.graph begun.scope).insert begun.definition := by
    rw [sound.named.graph_install installs.live (sound.path_open installs.live isOpen), if_pos own]
  rw [installs.result]
  refine ⟨Topology.entry_installed installs.live
    ⟨begun.definition, value, begun.dependencies, generation, tree.nextEntryId⟩, ?_, fun itself => ?_⟩
  · show ((tree.topology.install begun.scope _).graph begun.scope).Valid
    rw [sees]
    exact valid
  · refine valid.acyclic begun.definition.id (.single ⟨begun.definition, ?_, itself⟩)
    exact lookup_insert_self _ _ _

/-- An error of a graph is no changed dependency. -/
theorem ofGraph_unchanged (reason : CapabilityGraphError) (name dependency : Id) :
    ScopeError.ofGraph reason ≠ .dependencyChanged name dependency := by
  cases reason with
  | _ => exact fun same => by cases same

/-- An admission with a current snapshot does not fail for a dependency that changed. -/
theorem admission_refusal {definition : CapabilityDefinition} {current dependencies : ResolvedDependencies ν}
    (resolved : (tree.topology.view scope).resolveDependencies definition = .ok current)
    (same : bindingOf current = bindingOf dependencies) {error : ScopeError}
    (refused : tree.topology.admitPreconstructed scope definition .new dependencies = .error error)
    (name dependency : Id) : error ≠ .dependencyChanged name dependency := by
  unfold Topology.admitPreconstructed at refused
  rw [resolved] at refused
  simp only [bind, Except.bind, unchanged_of_binding same] at refused
  split at refused
  · rename_i reason descendants
    cases refused
    obtain ⟨other, _, failed⟩ := exists_error_of_forM descendants
    split at failed
    · unfold Scope.validateCandidate at failed
      split at failed
      · cases failed
        exact ofGraph_unchanged _ name dependency
      · cases failed
    · cases failed
  · split at refused
    · rename_i reason expected
      cases refused
      unfold Scope.checkExpectation at expected
      split at expected
      · cases expected
        exact fun same => by cases same
      · split at expected
        · cases expected
          exact fun same => by cases same
        · cases expected
        · cases ‹PublishExpectation.new = .replace _›
        · cases ‹PublishExpectation.new = .replace _›
    · split at refused
      · rename_i reason entries
        cases refused
        unfold Scope.validateWithEntries at entries
        split at entries
        · cases entries
          exact ofGraph_unchanged _ name dependency
        · cases entries
      · cases refused

/-- **A publication with a current snapshot is not refused for a dependency that changed.** -/
theorem fresh_refusal {publication : Nat} {begun : Publication ν}
    (found : tree.pending[publication]? = some (some begun)) (load : begun.load = true)
    {current : ResolvedDependencies ν}
    (resolved : (tree.topology.view begun.scope).resolveDependencies begun.definition = .ok current)
    (same : bindingOf current = bindingOf begun.dependencies) {value : ν} {error : ScopeError}
    (failed : (tree.step (.constructed publication (.ok value))).1 = .failed error)
    (name dependency : Id) : error ≠ .dependencyChanged name dependency := by
  simp only [step, found, complete, load, if_true] at failed
  unfold provideValue at failed
  rw [show (Topology.view tree.topology begun.scope).checkSnapshot begun.definition begun.dependencies
    begun.definition.dependencies.toList = .ok () from checkSnapshot_ok resolved same] at failed
  unfold locked at failed
  simp only at failed
  split at failed
  · cases failed
  · split at failed
    · cases failed
    · unfold publishPreconstructed at failed
      split at failed
      · rename_i reason refused
        cases failed
        exact admission_refusal resolved same refused name dependency
      · split at failed
        · cases failed
        · cases failed

end ScopeTree

/-! ### What a fiber holds -/

namespace CapabilityFiber

variable {fiber next : CapabilityFiber ν} {tree : ScopeTree ν}

/-- **What a fiber holds is its capability.** -/
def Matched (fiber : CapabilityFiber ν) : Prop :=
  ∀ handle, fiber.handle = some handle → handle.definition = fiber.definition.capability

theorem Matched.handles (matched : Matched fiber) (bound : Bound tree fiber)
    (live : tree.topology.live fiber.scope = true) (unpoisoned : tree.poisoned = false)
    {after : ScopeTree ν × CapabilityFiber ν} (handles : Handles tree fiber after) : Matched after.2 := by
  have keeps {next : CapabilityFiber ν} (same : Same fiber next) : Matched next := by
    intro handle held
    rw [same.definition]
    exact matched handle (same.handle ▸ held)
  cases handles with
  | stays same loads => exact keeps same
  | begins same resolved loads => exact keeps same
  | ends same loaded loads => exact keeps same
  | sticks loaded unpublished unfailed => exact matched
  | @publishes next publication dependencies value handle kin loaded published loads held epoch =>
    have found := (bound.begun publication dependencies loaded).resolve_left
      (by rw [unpoisoned]; exact Bool.false_ne_true)
    have comes := ScopeTree.loaded found rfl live value
    intro other same
    rw [held] at same
    cases same
    rw [kin.definition]
    generalize tree.step (.constructed publication (.ok value)) = answer at comes published
    cases comes with
    | refused error => cases published
    | panicked same poisoned => cases published
    | published generation =>
      cases published
      rfl
  | releases kin withdraws loads empty epoch =>
    intro handle held
    rw [empty] at held
    cases held

end CapabilityFiber

namespace ReactiveRuntime

open CapabilityFiber

variable {runtime : ReactiveRuntime ν}

/-- What the fibers hold are their capabilities. -/
def Matched (runtime : ReactiveRuntime ν) : Prop := ∀ fiber ∈ runtime.fibers, fiber.Matched

theorem Matched.place (matched : runtime.Matched) {id : Nat} {after : ScopeTree ν × CapabilityFiber ν}
    (own : after.2.Matched) : (runtime.place id after).Matched := by
  intro rival there
  obtain ⟨other, place⟩ := List.mem_iff_getElem?.mp there
  rcases place_cases place with ⟨_, rfl⟩ | ⟨_, before⟩
  · exact own
  · exact matched rival (List.mem_of_getElem? before)

/-- **Whatever happens leaves the fibers matched.** -/
theorem Matched.step (matched : runtime.Matched) (coordinated : runtime.Coordinated)
    (event : ReactiveEvent ν) : (runtime.step event).Matched := by
  by_cases own : ∃ id inner, event = .fiber id inner
  · obtain ⟨id, inner, rfl⟩ := own
    unfold ReactiveRuntime.step
    split
    · exact matched
    · rename_i unpoisoned
      simp only
      split
      · rename_i fiber found
        have member := List.mem_of_getElem? found
        exact matched.place ((matched fiber member).handles (coordinated.bound fiber member)
          (coordinated.live member) (Bool.eq_false_iff.mpr unpoisoned) (handles_step _ fiber inner))
      · exact matched
  · refine forall_step_fibers matched (fun _ _ _ _ same => ?_) fun id inner same => own ⟨id, inner, same⟩
    cases same

theorem Draining.matched {provider : ProviderIdentity} (draining : Draining provider runtime)
    (matched : runtime.Matched) (disposer : Nat → ScopedEffect → Except Text Unit) (ids : List Nat)
    (report : WithdrawalReport) :
    (ids.foldl (ReactiveRuntime.drain disposer provider) (report, runtime)).2.Matched := by
  induction ids generalizing report runtime with
  | nil => exact matched
  | cons id rest ih =>
    refine ih (draining.drain disposer report id) ?_ _
    unfold ReactiveRuntime.drain
    split
    · exact matched
    · rename_i fiber found
      have member := List.mem_of_getElem? found
      have coordinated := draining.whole.coordinated
      exact matched.place ((matched fiber member).handles (coordinated.bound fiber member)
        (coordinated.live member) draining.unpoisoned
        (CapabilityFiber.deactivates runtime.tree (draining.rest fiber member) _ (disposer id)).handles)

end ReactiveRuntime

namespace SerialRuntime

open CapabilityFiber ReactiveRuntime

variable {owner : SerialRuntime ν}

/-- **Whatever happens leaves the fibers of an owner matched** that drops no future. -/
theorem Steady.matched (steady : Steady owner) (matched : owner.runtime.Matched) {event : OwnerEvent ν}
    (kept : event.kept = true) : (owner.step event).runtime.Matched := by
  have coordinated := steady.whole.coordinated
  have steps (inner : ReactiveEvent ν) : (owner.runtime.step inner).Matched := matched.step coordinated inner
  have begins (id : Nat) (call : FiberCall) : (owner.runtime.begin id call).Matched := by
    unfold ReactiveRuntime.begin
    split
    · exact (steps _).step (coordinated.step _) _
    · exact matched
  have publishes (definition : CapabilityDefinition) (expectation : PublishExpectation)
      (construct : ResolvedDependencies ν → Except Text ν) :
      (owner.runtime.publish definition expectation construct).Matched :=
    (publish_keeps (fun runtime => runtime.Matched ∧ runtime.Coordinated)
      (fun runtime call good _ => ⟨good.1.step good.2 _, good.2.step _⟩) ⟨matched, coordinated⟩ definition
      expectation construct).1
  have works (id : Nat) (inner : FiberEvent ν) : (owner.work id inner).runtime.Matched := by
    unfold work
    split
    · rw [settle_runtime]
      exact steps _
    · exact matched
  unfold SerialRuntime.step
  split
  · exact matched
  rename_i unpoisoned
  have unpoisoned := Bool.eq_false_iff.mpr unpoisoned
  split
  · rename_i call idle
    have rest : owner.runtime.AtRest := steady.rest (by rw [idle]; rfl)
    cases call with
    | context call =>
      simp only [SerialRuntime.call]
      split
      · exact steps _
      · exact matched
    | provide definition construct => exact publishes _ _ construct
    | replace definition expected construct => exact publishes _ _ construct
    | withdrawAndReconcile capability expected disposer =>
      show (owner.runtime.withdrawAndReconcile disposer capability expected).2.Matched
      rcases owner.runtime.withdrawAndReconcile_cases steady.whole rest unpoisoned disposer capability
        expected with same | ⟨provider, tree, ids, draining, same⟩
      · rw [same]
        exact matched
      · rw [same]
        exact draining.matched matched disposer ids _
    | instantiate definition context config => exact steps _
    | watch id => exact steps _
    | drop id => exact steps _
    | effect id label => exact steps _
    | fiber id call =>
      simp only [SerialRuntime.call]
      split
      · rw [settle_runtime]
        exact begins id call
      · exact matched
    | reconcile => exact matched
  · rename_i snapshot drove report _
    cases snapshot with
    | nil =>
      simp only [SerialRuntime.reconcile]
      split
      · exact matched
      · exact matched
    | cons id others =>
      simp only [SerialRuntime.reconcile]
      split
      · rw [settle_runtime]
        exact begins id .start
      · exact matched
  · exact works _ _
  · exact works _ _
  · cases kept
  · cases kept
  · exact matched

theorem Steady.matched_run (steady : Steady owner) (matched : owner.runtime.Matched)
    {events : List (OwnerEvent ν)} (kept : ∀ event ∈ events, event.kept = true) :
    (owner.run events).runtime.Matched := by
  induction events generalizing owner with
  | nil => exact matched
  | cons event rest ih =>
    obtain ⟨first, others⟩ := List.forall_mem_cons.mp kept
    exact ih (steady.step first) (steady.matched matched first) others

end SerialRuntime

/-! ### One drive -/

namespace CapabilityFiber

variable {tree later : ScopeTree ν} {fiber next : CapabilityFiber ν}

/-- Whether what a fiber requires will be visible when it loads: it is now, and an active fiber, which gives its
own publication up before, does not require itself. -/
structure Hopeful (tree : ScopeTree ν) (fiber : CapabilityFiber ν) : Prop where
  visible : (currentBinding tree fiber).isSome = true
  apart : fiber.state = .active →
    fiber.definition.capability.id ∉ fiber.definition.capability.dependencies

/-- **Where a driven fiber rests**: it failed, it is active with what its context resolves, or it lacks a
dependency. -/
structure Drove (tree : ScopeTree ν) (fiber : CapabilityFiber ν) (later : ScopeTree ν)
    (next : CapabilityFiber ν) : Prop where
  rests : next.state = .pending ∨ next.state = .active ∨ next.state = .failed
  loads : Hopeful tree fiber → next.state ≠ .pending
  current : next.state = .active → currentBinding later next = next.dependencyEpoch ∧
    ∃ handle, next.handle = some handle ∧ handle.definition = fiber.definition.capability ∧
      later.Entered fiber.scope handle

/-- What a cleanup of a drive is for. -/
def Discards (tree : ScopeTree ν) (fiber next : CapabilityFiber ν) : Cleanup → Prop
  | .reload => next.state = .unloading ∧ fiber.state = .active
  | .missing => next.state = .unloading ∧ ¬ Hopeful tree fiber
  | .refused _ | .failed _ => True
  | _ => False

/-- Where the holder of the lock of a driven fiber stands. -/
def Stands (tree : ScopeTree ν) (fiber : CapabilityFiber ν) (later : ScopeTree ν)
    (next : CapabilityFiber ν) : Prop :=
  match next.transition with
  | .free => Drove tree fiber later next
  | .driving _ _ =>
    (next.state = .active ∧ fiber.state = .active ∧ later = tree ∧
        currentBinding later next ≠ next.dependencyEpoch) ∨
      (next.state = .pending ∧ (Hopeful tree fiber → (currentBinding later next).isSome = true))
  | .loading _ _ _ dependencies | .publishing _ _ _ dependencies _ =>
    next.state = .loading ∧ currentBinding later next = some (bindingOf dependencies)
  | .cleaning _ _ purpose _ _ => Discards tree fiber next purpose

/-- **A drive under way**, in a tree and of a fiber as they were when it began. -/
structure Underway (tree : ScopeTree ν) (fiber : CapabilityFiber ν) (later : ScopeTree ν)
    (next : CapabilityFiber ν) : Prop where
  kin : Kin fiber next
  confined : tree.Confined later fiber.scope fiber.definition.capability.id
  matched : next.Matched
  unasked : next.disposeRequested = false
  unforced : next.forceReload = false
  stands : Stands tree fiber later next

/-- How far a driven fiber is from its rest. -/
def remains (fiber : CapabilityFiber ν) : Nat × Nat :=
  match fiber.transition with
  | .free => (0, 0)
  | .driving _ _ => (if fiber.state = .active then 6 else 4, 0)
  | .loading _ _ _ _ => (3, 0)
  | .publishing _ _ _ _ _ => (2, 0)
  | .cleaning _ _ .reload effects _ => (5, effects.length)
  | .cleaning _ _ _ effects _ => (1, effects.length)

/-- What goes on with a fiber: the step that it awaits. -/
def awaits (fiber : CapabilityFiber ν) : FiberEvent ν → Bool
  | .go =>
    match fiber.transition with
    | .driving _ _ | .publishing _ _ _ _ _ | .cleaning _ _ _ [] _ => true
    | _ => false
  | .returned _ =>
    match fiber.transition with
    | .loading _ _ _ _ => true
    | _ => false
  | .cleaned _ =>
    match fiber.transition with
    | .cleaning _ _ _ (_ :: _) _ => true
    | _ => false
  | _ => false

/-- A drive goes on nearer to its rest, unless the topology lock is poisoned. -/
def Nearer (tree : ScopeTree ν) (fiber next : CapabilityFiber ν) (after : ScopeTree ν × CapabilityFiber ν) : Prop :=
  after.1.poisoned = true ∨ Underway tree fiber after.1 after.2 ∧
    Prod.Lex (· < ·) (· < ·) after.2.remains next.remains

/-- What a fiber that stays resolves in a tree with the same scopes. -/
theorem Kin.currentBinding (kin : Kin fiber next) (tree : ScopeTree ν) :
    next.currentBinding tree = fiber.currentBinding tree :=
  currentBinding_congr rfl kin.context kin.definition

/-- **What a hopeful fiber requires stays visible** while the fiber gives its own publication up. -/
theorem Hopeful.stays (hopeful : Hopeful tree fiber) (active : fiber.state = .active) (sound : tree.Sound)
    (after : later.Sound) (confined : tree.Confined later fiber.scope fiber.definition.capability.id) :
    (currentBinding later fiber).isSome = true := by
  have visible := hopeful.visible
  unfold CapabilityFiber.currentBinding at visible ⊢
  rw [confined.contextResolve sound after (.inl (hopeful.apart active))]
  exact visible

/-- A step of a drive that changes no slot but the fiber's own. -/
theorem Underway.goes (underway : Underway tree fiber later next) {last : ScopeTree ν}
    {after : CapabilityFiber ν}
    (confined : later.Confined last fiber.scope fiber.definition.capability.id) (kin : Kin next after)
    (matched : after.Matched) (asked : after.disposeRequested = next.disposeRequested)
    (unforced : after.forceReload = false) (stands : Stands tree fiber last after)
    (less : Prod.Lex (· < ·) (· < ·) after.remains next.remains) :
    Nearer tree fiber next (last, after) :=
  .inr ⟨⟨⟨kin.context.trans underway.kin.context, kin.definition.trans underway.kin.definition⟩,
    underway.confined.trans confined, matched, asked.trans underway.unasked, unforced, stands⟩, less⟩

/-- A round of the loop of a driven fiber. -/
theorem Underway.drive (underway : Underway tree fiber later next)
    (live : later.topology.live next.scope = true) {call : FiberCall} {force : Bool}
    (driving : next.transition = .driving call force) :
    Nearer tree fiber next (next.drive later call force) := by
  have stands := underway.stands
  unfold Stands at stands
  rw [driving] at stands
  have still : later.Confined later fiber.scope fiber.definition.capability.id := .of_topology rfl
  have active_ {first second : Nat} (active : next.state = .active) (less : first < 6) :
      Prod.Lex (· < ·) (· < ·) (first, second) next.remains := by
    unfold remains
    rw [driving]
    simp only
    rw [if_pos active]
    exact Prod.Lex.left _ _ less
  have pending_ {first second : Nat} (pending : next.state = .pending) (less : first < 4) :
      Prod.Lex (· < ·) (· < ·) (first, second) next.remains := by
    unfold remains
    rw [driving]
    simp only
    rw [if_neg (by rw [pending]; exact fun same => by cases same)]
    exact Prod.Lex.left _ _ less
  unfold CapabilityFiber.drive
  cases resolved : later.topology.contextResolve next.context next.definition.capability with
  | error error =>
    have missing : next.currentBinding later = none := by
      unfold CapabilityFiber.currentBinding
      rw [resolved]
      rfl
    simp only
    rcases stands with ⟨active, before, rfl, _⟩ | ⟨pending, hopes⟩
    · rw [if_pos active]
      refine underway.goes still ⟨rfl, rfl⟩ underway.matched rfl underway.unforced ⟨rfl, fun hopeful => ?_⟩
        (active_ active (by decide))
      have visible := hopeful.visible
      rw [← underway.kin.currentBinding later, missing] at visible
      cases visible
    · rw [if_neg (by rw [pending]; exact fun same => by cases same)]
      refine underway.goes still ⟨rfl, rfl⟩ underway.matched rfl underway.unforced
        ⟨.inl rfl, fun hopeful => ?_, fun same => by cases same⟩ (pending_ pending (by decide))
      have visible := hopes hopeful
      rw [missing] at visible
      cases visible
  | ok dependencies =>
    have binds : next.currentBinding later = some (bindingOf dependencies) := by
      unfold CapabilityFiber.currentBinding
      rw [resolved]
      rfl
    simp only
    rcases stands with ⟨active, before, rfl, outdated⟩ | ⟨pending, hopes⟩
    · rw [if_neg fun current => outdated (binds.trans current.2.2.symm), if_pos (.inl active)]
      exact underway.goes still ⟨rfl, rfl⟩ underway.matched rfl underway.unforced ⟨rfl, before⟩
        (active_ active (by decide))
    · have inactive : next.state ≠ .active := by
        rw [pending]
        exact fun same => by cases same
      have unfailed : next.state ≠ .failed := by
        rw [pending]
        exact fun same => by cases same
      rw [if_neg fun current => inactive current.2.1, if_neg (not_or.mpr ⟨inactive, unfailed⟩),
        if_neg (by rw [underway.unasked]; exact Bool.false_ne_true)]
      have begun : later.step (.load next.scope next.definition.capability next.context) =
          later.await ⟨next.scope, next.definition.capability, .new, dependencies, true⟩ := by
        simp only [ScopeTree.step]
        rw [if_neg (not_not.mpr live), resolved]
      unfold load
      rw [begun]
      exact underway.goes (.of_topology rfl) ⟨rfl, rfl⟩ underway.matched rfl underway.unforced ⟨rfl, binds⟩
        (pending_ pending (by decide))

/-- The factory of a driven fiber returns. -/
theorem Underway.returned (underway : Underway tree fiber later next) {call : FiberCall} {force : Bool}
    {publication : Nat} {dependencies : ResolvedDependencies ν}
    (loading : next.transition = .loading call force publication dependencies) (result : Except Text ν) :
    Nearer tree fiber next (next.returned later call force publication dependencies result) := by
  have stands := underway.stands
  unfold Stands at stands
  rw [loading] at stands
  have less {first second : Nat} (below : first < 3) :
      Prod.Lex (· < ·) (· < ·) (first, second) next.remains := by
    unfold remains
    rw [loading]
    exact Prod.Lex.left _ _ below
  have quiet (reason : Text) : later.Confined (later.step (.constructed publication (.error reason))).2
      fiber.scope fiber.definition.capability.id := by
    refine .of_topology ?_
    simp only [ScopeTree.step]
    split
    · rfl
    · rfl
  have fresh : ¬ (next.disposeRequested || next.forceReload ||
      currentBinding later next ≠ some (bindingOf dependencies)) = true := by
    rw [underway.unasked, underway.unforced, stands.2]
    simp
  unfold CapabilityFiber.returned
  simp only
  cases result with
  | ok value =>
    simp only
    rw [if_neg fresh]
    exact underway.goes (.of_topology rfl) ⟨rfl, rfl⟩ underway.matched rfl underway.unforced stands
      (less (by decide))
  | error reason =>
    simp only
    rw [if_neg fresh]
    exact underway.goes (quiet reason) ⟨rfl, rfl⟩ underway.matched rfl underway.unforced trivial
      (less (by decide))

/-- **The publication of a driven fiber**: its snapshot is current, so it is published or refused for good. -/
theorem Underway.publish (underway : Underway tree fiber later next) (sound : later.Sound)
    (unpoisoned : later.poisoned = false) (bound : Bound later next)
    (live : later.topology.live next.scope = true) {call : FiberCall} {force : Bool} {publication : Nat}
    {dependencies current : ResolvedDependencies ν} {value : ν}
    (publishing : next.transition = .publishing call force publication dependencies value)
    (resolved : (later.topology.view next.scope).resolveDependencies next.definition.capability = .ok current)
    (same : bindingOf current = bindingOf dependencies) :
    Nearer tree fiber next (next.publish later call force publication dependencies value) := by
  have stands := underway.stands
  unfold Stands at stands
  rw [publishing] at stands
  have less {first second : Nat} (below : first < 2) :
      Prod.Lex (· < ·) (· < ·) (first, second) next.remains := by
    unfold remains
    rw [publishing]
    exact Prod.Lex.left _ _ below
  have found := (bound.begun publication dependencies (by unfold loads; rw [publishing])).resolve_left
    (by rw [unpoisoned]; exact Bool.false_ne_true)
  have fresh {error : ScopeError} (failed : (later.step (.constructed publication (.ok value))).1 =
      .failed error) := ScopeTree.fresh_refusal found rfl resolved same failed
  unfold CapabilityFiber.publish
  rcases sound.constructed_cases publication (.ok value) with ⟨_, silent⟩ | ⟨begun, worth, generation, equal, installs⟩
  · have comes := ScopeTree.loaded found rfl live value
    generalize later.step (.constructed publication (.ok value)) = answer at comes silent fresh
    cases comes with
    | refused error =>
      cases error with
      | dependencyChanged name dependency => exact absurd rfl (fresh rfl name dependency)
      | _ =>
        exact underway.goes (.of_topology rfl) ⟨rfl, rfl⟩ underway.matched rfl underway.unforced trivial
          (less (by decide))
    | panicked same poisoned => exact .inl poisoned
    | published generation => exact absurd rfl (silent.answer _)
  · cases equal
    have begins := installs.found
    rw [found] at begins
    cases begins
    have entered := sound.entered installs
    have result := installs.result
    rw [result] at entered ⊢
    have after := sound.step (.constructed publication (.ok value))
    rw [result] at after
    have kin := underway.kin
    have quiet : later.Confined { later with pending := later.pending.set publication none } next.scope
        next.definition.capability.id := .of_topology rfl
    have confined := quiet.trans (ScopeTree.confined_install next.scope .new
      ⟨next.definition.capability, value, dependencies, generation, later.nextEntryId⟩)
    have binds := stands.2
    unfold CapabilityFiber.currentBinding at binds
    rw [← confined.contextResolve sound after (.inl entered.apart)] at binds
    rw [kin.scope, kin.definition] at confined
    refine underway.goes ?_ ⟨rfl, rfl⟩ (fun handle held => ?_) rfl underway.unforced
      ⟨.inr (.inl rfl), fun _ equal => ?_, fun _ => ⟨binds, _, rfl, ?_, ?_⟩⟩ (less (by decide))
    · rw [kin.scope, kin.definition]
      exact confined
    · cases held
      rfl
    · cases equal
    · exact congrArg PluginDefinition.capability kin.definition
    · rw [← kin.scope]
      exact entered

/-- An unload takes no slot but the fiber's own. -/
theorem Matched.confined_unloaded (matched : Matched fiber) (tree : ScopeTree ν)
    (detached : Option ProviderIdentity) (errors : List EffectError) :
    tree.Confined (unloaded tree fiber detached errors).2.1 fiber.scope
      fiber.definition.capability.id := by
  rw [unloaded_tree]
  unfold removeLocal
  split
  · exact .of_topology rfl
  · rename_i handle held
    have withdraws := tree.confined_withdraw fiber.scope handle.definition.id handle.generation
    rw [matched handle held] at withdraws ⊢
    split
    · exact .of_topology rfl
    · split
      · rename_i same
        rw [same] at withdraws
        exact withdraws
      · rename_i same
        rw [same] at withdraws
        exact withdraws

theorem sound_unloaded (sound : tree.Sound) (fiber : CapabilityFiber ν)
    (detached : Option ProviderIdentity) (errors : List EffectError) :
    (unloaded tree fiber detached errors).2.1.Sound := by
  rw [unloaded_tree]
  rcases removeLocal_calls tree fiber detached with same | ⟨capability, generation, same⟩
  · rw [same]
    exact sound
  · rw [same]
    exact sound.step _

/-- The end of a cleanup of a driven fiber. -/
theorem Underway.finish (underway : Underway tree fiber later next) (start : tree.Sound)
    (sound : later.Sound) {call : FiberCall} {force : Bool} {purpose : Cleanup} {errors : List EffectError}
    (cleaning : next.transition = .cleaning call force purpose [] errors) :
    Nearer tree fiber next (next.finish later call force errors purpose) := by
  have stands := underway.stands
  unfold Stands at stands
  rw [cleaning] at stands
  have kin := underway.kin
  have confined := underway.matched.confined_unloaded later none errors
  have after := sound_unloaded sound next none errors
  rw [kin.scope, kin.definition] at confined
  obtain ⟨binding, effects, _, same⟩ := unloaded_eq later next none errors
  have bare {handle : CapabilityHandle ν} (definition : PluginDefinition) (held : none = some handle) :
      handle.definition = definition.capability := by cases held
  cases purpose with
  | reload =>
    simp only [CapabilityFiber.finish]
    rw [same]
    unfold again
    rw [if_neg (by rw [underway.unasked]; exact Bool.false_ne_true)]
    refine underway.goes confined ⟨rfl, rfl⟩ (fun handle => bare _) rfl underway.unforced
      (.inr ⟨rfl, fun hopeful => ?_⟩) ?_
    · have visible := hopeful.stays stands.2 start after (underway.confined.trans confined)
      rw [← kin.currentBinding] at visible
      exact visible
    · unfold remains
      rw [cleaning]
      exact Prod.Lex.left _ _ (Nat.lt_succ_self 4)
  | missing =>
    simp only [CapabilityFiber.finish]
    rw [same]
    refine underway.goes confined ⟨rfl, rfl⟩ (fun handle => bare _) rfl underway.unforced
      ⟨.inl rfl, fun hopeful => absurd hopeful stands.2, fun active => by cases active⟩ ?_
    unfold remains
    rw [cleaning]
    exact Prod.Lex.left _ _ (by decide)
  | refused error =>
    refine underway.goes (.of_topology rfl) ⟨rfl, rfl⟩ underway.matched rfl underway.unforced
      ⟨.inr (.inr rfl), (fun _ pending => by cases pending), fun active => by cases active⟩ ?_
    unfold remains
    rw [cleaning]
    exact Prod.Lex.left _ _ (by decide)
  | failed reason =>
    refine underway.goes (.of_topology rfl) ⟨rfl, rfl⟩ underway.matched rfl underway.unforced
      ⟨.inr (.inr rfl), (fun _ pending => by cases pending), fun active => by cases active⟩ ?_
    unfold remains
    rw [cleaning]
    exact Prod.Lex.left _ _ (by decide)
  | _ => exact stands.elim

/-- A disposer of a driven fiber runs to its end. -/
theorem Underway.cleaned (underway : Underway tree fiber later next) {call : FiberCall} {force : Bool}
    {purpose : Cleanup} {effect : ScopedEffect} {rest : List ScopedEffect} {errors : List EffectError}
    (cleaning : next.transition = .cleaning call force purpose (effect :: rest) errors)
    (result : Except Text Unit) : Nearer tree fiber next (next.step later (.cleaned result)) := by
  have stands := underway.stands
  unfold Stands at stands
  rw [cleaning] at stands
  simp only [CapabilityFiber.step, cleaning]
  refine underway.goes (.of_topology rfl) ⟨rfl, rfl⟩ underway.matched rfl underway.unforced ?_ ?_
  · cases purpose with
    | _ => exact stands
  · unfold remains
    rw [cleaning]
    cases purpose with
    | _ => exact Prod.Lex.right _ (Nat.lt_succ_self _)

/-- A fiber that is out of date at rest is active, or it is pending and its dependencies are visible. -/
theorem Asks.needs (asks : Asks fiber) (kept : Kept fiber) (free : fiber.transition = .free)
    (needs : fiber.needsReconciliation tree = true) : fiber.disposeRequested = false ∧
      (fiber.state = .active ∧ currentBinding tree fiber ≠ fiber.dependencyEpoch ∨
        fiber.state = .pending ∧ (currentBinding tree fiber).isSome = true) := by
  have poised := kept.poised
  unfold Poised at poised
  rw [free] at poised
  have undisposed : fiber.state ≠ .disposed := by
    intro disposed
    unfold needsReconciliation at needs
    rw [disposed] at needs
    cases needs
  refine ⟨Bool.eq_false_iff.mpr fun asked => undisposed (asks.disposed free asked), ?_⟩
  unfold needsReconciliation at needs
  cases state : fiber.state with
  | pending =>
    rw [state] at needs
    exact .inr ⟨rfl, (Bool.and_eq_true_iff.mp needs).2⟩
  | loading => exact absurd (asks.disposed free (poised.1 state)) undisposed
  | active =>
    rw [state] at needs
    exact .inl ⟨rfl, of_decide_eq_true needs⟩
  | failed =>
    rw [state] at needs
    cases needs
  | unloading => exact absurd state poised.2
  | disposed => exact absurd state undisposed

/-- **A drive begins**, on a fiber that is out of date. -/
theorem underway_begin (asks : Asks fiber) (kept : Kept fiber) (matched : fiber.Matched)
    (free : fiber.transition = .free) (needs : fiber.needsReconciliation tree = true) :
    Underway tree fiber tree (fiber.begin tree .start) ∧ (fiber.begin tree .start).transition ≠ .free := by
  obtain ⟨unasked, stands⟩ := asks.needs kept free needs
  have unfailed : fiber.state ≠ .failed := by
    rcases stands with ⟨active, _⟩ | ⟨pending, _⟩
    · rw [active]
      exact fun same => by cases same
    · rw [pending]
      exact fun same => by cases same
  rw [begin_start tree free]
  unfold startDrive
  rw [if_neg (by rw [unasked]; exact Bool.false_ne_true), if_neg fun both => unfailed both.2]
  refine ⟨⟨⟨rfl, rfl⟩, .of_topology rfl, matched, unasked, rfl, ?_⟩, fun same => by cases same⟩
  rcases stands with ⟨active, outdated⟩ | ⟨pending, visible⟩
  · exact .inl ⟨active, active, rfl, outdated⟩
  · exact .inr ⟨pending, fun _ => visible⟩

/-- An effect that is registered leaves a drive where it stands. -/
theorem Underway.register (underway : Underway tree fiber later next) (stack : Nat) (label : Text) :
    Underway tree fiber later (next.register stack label) ∧
      (next.register stack label).remains = next.remains := by
  unfold CapabilityFiber.register
  split
  · refine ⟨⟨⟨underway.kin.context, underway.kin.definition⟩, underway.confined, underway.matched,
      underway.unasked, underway.unforced, ?_⟩, rfl⟩
    have stands := underway.stands
    unfold Stands at stands ⊢
    cases transition : next.transition with
    | free =>
      rw [transition] at stands
      exact ⟨stands.rests, stands.loads, stands.current⟩
    | cleaning call force purpose effects errors =>
      rw [transition] at stands
      cases purpose with
      | _ => exact stands
    | _ =>
      rw [transition] at stands
      exact stands
  · exact ⟨underway, rfl⟩

/-- **What a driven fiber awaits brings it nearer to its rest.** -/
theorem Underway.step {runtime : ReactiveRuntime ν} (underway : Underway tree fiber runtime.tree next)
    (start : tree.Sound) (whole : runtime.Whole) (unpoisoned : runtime.tree.poisoned = false)
    (member : next ∈ runtime.fibers) {event : FiberEvent ν} (awaits : next.awaits event = true) :
    Nearer tree fiber next (next.step runtime.tree event) := by
  have sound := (whole.intact next member).sound
  have live := whole.coordinated.live member
  cases event with
  | go =>
    cases transition : next.transition with
    | driving call force =>
      simp only [CapabilityFiber.step, transition]
      exact underway.drive live transition
    | publishing call force publication dependencies value =>
      have stands := underway.stands
      unfold Stands at stands
      rw [transition] at stands
      obtain ⟨current, resolved, same⟩ := whole.resolves member stands.2
      simp only [CapabilityFiber.step, transition]
      exact underway.publish sound unpoisoned (whole.coordinated.bound next member) live transition resolved
        same
    | cleaning call force purpose effects errors =>
      cases effects with
      | nil =>
        simp only [CapabilityFiber.step, transition]
        exact underway.finish start sound transition
      | cons effect rest =>
        unfold CapabilityFiber.awaits at awaits
        rw [transition] at awaits
        cases awaits
    | _ =>
      unfold CapabilityFiber.awaits at awaits
      rw [transition] at awaits
      cases awaits
  | returned result =>
    cases transition : next.transition with
    | loading call force publication dependencies =>
      simp only [CapabilityFiber.step, transition]
      exact underway.returned transition result
    | _ =>
      unfold CapabilityFiber.awaits at awaits
      rw [transition] at awaits
      cases awaits
  | cleaned result =>
    cases transition : next.transition with
    | cleaning call force purpose effects errors =>
      cases effects with
      | nil =>
        unfold CapabilityFiber.awaits at awaits
        rw [transition] at awaits
        cases awaits
      | cons effect rest => exact underway.cleaned transition result
    | _ =>
      unfold CapabilityFiber.awaits at awaits
      rw [transition] at awaits
      cases awaits
  | _ => cases awaits

end CapabilityFiber

end Kernis
