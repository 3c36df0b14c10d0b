/-
**Fibers that nobody disturbs.**

A runtime keeps one root scope. As long as nobody but its fibers publishes there, and each under a name of
its own, what is published stays, and no publication of a fiber is refused.

* `Topology.ofEntries` — one open root scope; `ScopeTree.provideValue_cases`: what it makes of a load.
* `Undisturbed` — where a started fiber stands in it, and what it says when it fails: what its factory and
  its disposers returned. `Undisturbed.step`, with the other fibers in `Undisturbed.beside`.
-/

import Kernis.Capability.Admission
import Kernis.Capability.Standing
import Kernis.Capability.Started

namespace Kernis

open Std

variable {ν : Type}

/-! ### One root scope -/

/-- The definitions of some entries. -/
def definitionsOf (entries : BTreeMap Id (CapabilityHandle ν)) : BTreeMap Id CapabilityDefinition :=
  entries.map fun _ handle => handle.definition

theorem mem_definitionsOf {entries : BTreeMap Id (CapabilityHandle ν)} {id : Id} :
    id ∈ definitionsOf entries ↔ id ∈ entries := ExtTreeMap.mem_map

theorem lookup_definitionsOf {entries : BTreeMap Id (CapabilityHandle ν)} {id : Id} :
    (definitionsOf entries)[id]? = (entries[id]?).map CapabilityHandle.definition :=
  ExtTreeMap.getElem?_map

theorem definitionsOf_insert (entries : BTreeMap Id (CapabilityHandle ν)) (handle : CapabilityHandle ν) :
    definitionsOf (entries.insert handle.definition.id handle) =
      (definitionsOf entries).insert handle.definition.id handle.definition := by
  refine ExtTreeMap.ext_getElem? fun id => ?_
  rw [lookup_definitionsOf, lookup_insert, lookup_insert, lookup_definitionsOf]
  split
  · rfl
  · rfl

/-- The context of a runtime. -/
abbrev rootContext : List ContextState := [⟨0, ∅, ∅⟩]

namespace Topology

variable {entries : BTreeMap Id (CapabilityHandle ν)} {definition : CapabilityDefinition}
  {dependencies : ResolvedDependencies ν}

/-- One open root scope with these entries. -/
def ofEntries (entries : BTreeMap Id (CapabilityHandle ν)) : Topology ν :=
  ⟨[⟨[], entries, .opened, true⟩]⟩

theorem rooted_ofEntries : Scope.RootOf (definitionsOf entries) ((ofEntries entries).view 0) where
  root := rfl
  isOpen := rfl
  entries := fun _ => lookup_definitionsOf.symm

theorem contextGet_ofEntries (id : Id) :
    (ofEntries entries).contextGet rootContext id = entries[id]? := by
  unfold contextGet
  split
  · exact rooted_ofEntries.get id
  · rename_i absent
    refine Eq.trans ?_ (lookup_none_of_not_mem absent).symm
    split
    · rfl
    · rfl

/-- A context over one scope resolves what the scope does. -/
theorem contextResolve_ofEntries : (ofEntries entries).contextResolve rootContext definition =
    ((ofEntries entries).view 0).resolveDependencies definition := by
  unfold contextResolve Scope.resolveDependencies
  refine congrArg (fun step => List.mapM step definition.dependencies.toList) (funext fun dependency => ?_)
  rw [contextGet_ofEntries, rooted_ofEntries.get]
  rfl

/-- What resolves is held. -/
theorem held_of_resolve (resolved : (ofEntries entries).contextResolve rootContext definition =
    .ok dependencies) : dependencies.map Prod.fst = definition.dependencies.toList ∧
      ∀ dependency ∈ dependencies, entries[dependency.1]? = some dependency.2 := by
  obtain ⟨listed, found⟩ := resolved_of_mapM resolved
  refine ⟨listed, fun dependency member => ?_⟩
  rw [← contextGet_ofEntries]
  exact found dependency member

/-- **What resolved still does** when entries are added. -/
theorem resolve_grows {others : BTreeMap Id (CapabilityHandle ν)} (grows : Grows entries others)
    (resolved : (ofEntries entries).contextResolve rootContext definition = .ok dependencies) :
    (ofEntries others).contextResolve rootContext definition = .ok dependencies := by
  refine mapM_of_forall₂ ((forall₂_of_mapM resolved).imp fun dependency result one => ?_)
  rw [contextGet_ofEntries] at one ⊢
  cases held : entries[dependency]? with
  | none =>
    rw [held] at one
    cases one
  | some handle =>
    rw [held] at one
    rw [grows held]
    exact one

/-- The entry of a dependency that resolved. -/
theorem entryOf_of_resolve (resolved : (ofEntries entries).contextResolve rootContext definition =
    .ok dependencies) {dependency : Id} (member : dependency ∈ definition.dependencies.toList) :
    ∃ handle, entries[dependency]? = some handle ∧
      Scope.entryOf dependencies dependency = some (handle.generation, handle.entryId) := by
  obtain ⟨listed, found⟩ := held_of_resolve resolved
  have distinct : (dependencies.map Prod.fst).Nodup := listed ▸ nodup_toList definition.dependencies
  rw [← listed] at member
  obtain ⟨⟨_, handle⟩, inside, rfl⟩ := List.mem_map.mp member
  refine ⟨handle, found _ inside, ?_⟩
  unfold Scope.entryOf
  rw [lookup_of_mem distinct inside]
  rfl

/-- The snapshot of a load is the current one. -/
theorem checkSnapshot_of_resolve (resolved : (ofEntries entries).contextResolve rootContext definition =
    .ok dependencies) {wanted : List Id} (within : ∀ id ∈ wanted, id ∈ definition.dependencies.toList) :
    ((ofEntries entries).view 0).checkSnapshot definition dependencies wanted = .ok () := by
  induction wanted with
  | nil => rfl
  | cons dependency rest ih =>
    obtain ⟨handle, held, entry⟩ := entryOf_of_resolve resolved (within dependency List.mem_cons_self)
    unfold Scope.checkSnapshot
    have own : ((ofEntries entries).view 0).own.entries = entries := rfl
    rw [rooted_ofEntries.get, own, held]
    simp only
    rw [entry, if_neg (not_not.mpr rfl)]
    exact ih fun id member => within id (List.mem_cons_of_mem _ member)

/-- What resolves requires what is published. -/
theorem known_of_resolve (resolved : (ofEntries entries).contextResolve rootContext definition =
    .ok dependencies) {dependency : Id} (member : dependency ∈ definition.dependencies) :
    dependency ∈ definitionsOf entries := by
  obtain ⟨handle, held, _⟩ := entryOf_of_resolve resolved (ExtTreeSet.mem_toList.mpr member)
  exact mem_definitionsOf.mpr (mem_of_lookup held)

/-- **What resolves under a free name is admitted.** -/
theorem admits_of_resolve (standing : Standing (definitionsOf entries)) (fresh : definition.id ∉ entries)
    (resolved : (ofEntries entries).contextResolve rootContext definition = .ok dependencies) :
    (ofEntries entries).admitPreconstructed 0 definition .new dependencies = .ok 1 := by
  have providable := standing.providable (mt mem_definitionsOf.mp fresh) fun _ member =>
    known_of_resolve resolved member
  have unchanged : Scope.changedDependency definition dependencies dependencies = none := by
    unfold Scope.changedDependency
    rw [List.find?_eq_none]
    simp
  have checked : ((ofEntries entries).view 0).validateWithEntries definition = .ok () := by
    have admitted := rooted_ofEntries.validateCandidate_iff.mpr providable.admitted
    unfold Scope.validateWithEntries
    rw [visibleGraphWithEntries_eq rfl]
    exact admitted
  have alone : (ofEntries entries).validateDescendantAdmission 0 definition = .ok () := rfl
  rw [contextResolve_ofEntries] at resolved
  unfold admitPreconstructed
  simp only [resolved, bind, Except.bind, unchanged, alone, checked,
    rooted_ofEntries.checkExpectation_new.mpr providable.fresh]
  rfl

end Topology

namespace ScopeTree

variable {tree : ScopeTree ν} {entries : BTreeMap Id (CapabilityHandle ν)}

/-- **One root scope that only fibers use**: it is open, and what it publishes stands on its own. -/
structure Sole (entries : BTreeMap Id (CapabilityHandle ν)) (tree : ScopeTree ν) : Prop where
  topology : tree.topology = .ofEntries entries
  standing : Standing (definitionsOf entries)

/-- A publication whose dependencies are there joins. -/
theorem Sole.install (sole : tree.Sole entries) {handle : CapabilityHandle ν}
    (fresh : handle.definition.id ∉ entries)
    (resolved : tree.topology.contextResolve rootContext handle.definition = .ok handle.dependencies) :
    (tree.install 0 .new handle).Sole (entries.insert handle.definition.id handle) where
  topology := by
    unfold ScopeTree.install
    rw [sole.topology]
    rfl
  standing := by
    rw [definitionsOf_insert]
    exact sole.standing.insert (mt mem_definitionsOf.mp fresh)
      fun _ member => Topology.known_of_resolve (sole.topology ▸ resolved) member

/-- **What a load comes to** whose dependencies resolve under a free name: it is published, unless there
is no entry identity for it. -/
theorem Sole.provideValue (sole : tree.Sole entries) {definition : CapabilityDefinition}
    {dependencies : ResolvedDependencies ν} (fresh : definition.id ∉ entries)
    (resolved : tree.topology.contextResolve rootContext definition = .ok dependencies) (value : ν) :
    (∃ later, tree.provideValue 0 definition dependencies value = (.panicked, later) ∧
      later.topology = tree.topology) ∨
    ∃ handle, tree.provideValue 0 definition dependencies value =
      (.published handle, tree.install 0 .new handle) ∧ handle.definition = definition ∧
        handle.dependencies = dependencies := by
  have same := sole.topology
  rw [same] at resolved
  unfold ScopeTree.provideValue
  rw [same, Topology.checkSnapshot_of_resolve resolved fun _ => id]
  simp only
  unfold locked publishPreconstructed
  rw [same, Topology.admits_of_resolve sole.standing fresh resolved,
    if_neg (not_not.mpr (show (Topology.ofEntries entries).live 0 = true from rfl))]
  split
  · exact .inl ⟨tree, rfl, same⟩
  · simp only
    split
    · exact .inl ⟨_, rfl, rfl⟩
    · exact .inr ⟨_, rfl, rfl, rfl⟩

/-- The scopes change with publications only. -/
theorem Sole.of_topology {later : ScopeTree ν} (sole : tree.Sole entries)
    (same : later.topology = tree.topology) : later.Sole entries :=
  ⟨same.trans sole.topology, sole.standing⟩

theorem topology_load (scope : Nat) (definition : CapabilityDefinition) (context : List ContextState) :
    (tree.step (.load scope definition context)).2.topology = tree.topology := by
  simp only [step]
  split
  · rfl
  · split
    · rfl
    · rfl

theorem topology_constructed_error (publication : Nat) (reason : Text) :
    (tree.step (.constructed publication (.error reason))).2.topology = tree.topology := by
  simp only [step]
  split
  · rfl
  · rfl

end ScopeTree

/-! ### What fibers say -/

/-- A cleanup error that a disposer returned. -/
def EffectError.Returned (heard : FiberEvent ν → Prop) : EffectError → Prop
  | .disposer _ reason => heard (.cleaned (.error reason))
  | .scope _ => False

/-- A reason that a factory returned. -/
def LoadFailure.Returned (heard : FiberEvent ν → Prop) : LoadFailure → Prop
  | .factory reason => heard (.returned (.error reason))
  | .refused _ => False

/-- **A failure that a plugin returned**: its factory failed, and perhaps disposers did. -/
def FiberError.Returned (heard : FiberEvent ν → Prop) : FiberError → Prop
  | .initializationFailed _ (some failure) cleanupErrors =>
    failure.Returned heard ∧ ∀ error ∈ cleanupErrors, error.Returned heard
  | _ => False

/-- What the fibers have published after an event of one of them: the same, or one entry more. -/
inductive Adds (entries : BTreeMap Id (CapabilityHandle ν)) (definition : CapabilityDefinition) :
    BTreeMap Id (CapabilityHandle ν) → Prop
  | nothing : Adds entries definition entries
  | publication (handle : CapabilityHandle ν) (fresh : definition.id ∉ entries) :
      Adds entries definition (entries.insert definition.id handle)

namespace Adds

variable {entries others : BTreeMap Id (CapabilityHandle ν)} {definition : CapabilityDefinition}

theorem grows (adds : Adds entries definition others) : Grows entries others := by
  cases adds with
  | nothing => exact .refl entries
  | publication handle fresh => exact .insert fresh handle

theorem absent (adds : Adds entries definition others) {id : Id} (apart : definition.id ≠ id)
    (absent : id ∉ entries) : id ∉ others := by
  cases adds with
  | nothing => exact absent
  | publication handle fresh =>
    rw [mem_insert_iff]
    exact not_or.mpr ⟨apart.symm, absent⟩

end Adds

namespace CapabilityFiber

variable {fiber next : CapabilityFiber ν} {tree : ScopeTree ν}
  {entries others : BTreeMap Id (CapabilityHandle ν)} {heard : FiberEvent ν → Prop}

/-- What the fiber requires resolves. -/
def Resolves (tree : ScopeTree ν) (fiber : CapabilityFiber ν) (dependencies : ResolvedDependencies ν) :
    Prop :=
  tree.topology.contextResolve rootContext fiber.definition.capability = .ok dependencies

/-- **A fiber that nobody disturbs**: unless it is active its name is free, while it is active it is bound
to what is published, and what it says when it fails its plugin returned. -/
structure Undisturbed (heard : FiberEvent ν → Prop) (entries : BTreeMap Id (CapabilityHandle ν))
    (tree : ScopeTree ν) (fiber : CapabilityFiber ν) : Prop where
  started : fiber.Started tree
  context : fiber.context = rootContext
  unasked : fiber.disposeRequested = false
  vacant : fiber.state ≠ .active → fiber.definition.capability.id ∉ entries
  bound : fiber.state = .active → ∃ dependencies, fiber.Resolves tree dependencies ∧
    fiber.dependencyEpoch = some (bindingOf dependencies)
  resolved : ∀ publication dependencies, fiber.loads = some (publication, dependencies) →
    fiber.Resolves tree dependencies
  failed : fiber.state = .failed → ∃ failure, fiber.error = some failure ∧ failure.Returned heard
  cleans : ∀ call force purpose effects errors,
    fiber.transition = .cleaning call force purpose effects errors →
      (∃ reason, purpose = .failed reason ∧ heard (.returned (.error reason))) ∧
        ∀ error ∈ errors, error.Returned heard
  cleaned : ∀ error ∈ fiber.lastCleanupErrors, error.Returned heard
  answered : ∀ error, fiber.lastAnswer = some (.failed error) → error.Returned heard

theorem undisturbed_new (tree : ScopeTree ν) {definition : PluginDefinition} (config : Text)
    (fresh : definition.capability.id ∉ entries) :
    Undisturbed heard entries tree (CapabilityFiber.new definition rootContext config) where
  started := started_new tree definition rootContext config
  context := rfl
  unasked := rfl
  vacant := fun _ => fresh
  bound := fun active => by cases active
  resolved := fun _ _ loads => by cases loads
  failed := fun failed => by cases failed
  cleans := fun _ _ _ _ _ cleaning => by cases cleaning
  cleaned := fun _ member => absurd member List.not_mem_nil
  answered := fun _ answer => by cases answer

/-- **The other fibers are not disturbed** when one of them publishes under a name of its own. -/
theorem Undisturbed.beside (undisturbed : Undisturbed heard entries tree fiber)
    (free : fiber.transition = .free) {definition : CapabilityDefinition}
    (apart : definition.id ≠ fiber.definition.capability.id) (adds : Adds entries definition others)
    {later : ScopeTree ν} (sole : tree.Sole entries) (after : later.Sole others)
    (started : fiber.Started later) : Undisturbed heard others later fiber where
  started := started
  context := undisturbed.context
  unasked := undisturbed.unasked
  vacant := fun inactive => adds.absent apart (undisturbed.vacant inactive)
  bound := by
    intro active
    obtain ⟨dependencies, resolves, epoch⟩ := undisturbed.bound active
    unfold Resolves at resolves ⊢
    rw [sole.topology] at resolves
    rw [after.topology]
    exact ⟨dependencies, Topology.resolve_grows adds.grows resolves, epoch⟩
  resolved := by
    intro publication dependencies loads_
    unfold loads at loads_
    rw [free] at loads_
    cases loads_
  failed := undisturbed.failed
  cleans := by
    intro call force purpose effects errors cleaning
    rw [free] at cleaning
    cases cleaning
  cleaned := undisturbed.cleaned
  answered := undisturbed.answered

/-! ### Steps -/

/-- What an event leaves of a fiber and of what is published. -/
def Remains (heard : FiberEvent ν → Prop) (entries : BTreeMap Id (CapabilityHandle ν))
    (fiber : CapabilityFiber ν) (after : ScopeTree ν × CapabilityFiber ν) : Prop :=
  ∃ others, Adds entries fiber.definition.capability others ∧ after.1.Sole others ∧
    Undisturbed heard others after.1 after.2

/-- Nothing is published, and the fiber is active when it was. -/
theorem Undisturbed.still (undisturbed : Undisturbed heard entries tree fiber) (sole : tree.Sole entries)
    {later : ScopeTree ν} (same : later.topology = tree.topology) (started : next.Started later)
    (kept : next.definition = fiber.definition ∧ next.context = fiber.context ∧
      next.disposeRequested = fiber.disposeRequested ∧ next.dependencyEpoch = fiber.dependencyEpoch)
    (active : next.state = .active ↔ fiber.state = .active)
    (resolved : ∀ publication dependencies, next.loads = some (publication, dependencies) →
      fiber.Resolves tree dependencies)
    (failed : next.state = .failed → ∃ failure, next.error = some failure ∧ failure.Returned heard)
    (cleans : ∀ call force purpose effects errors,
      next.transition = .cleaning call force purpose effects errors →
        (∃ reason, purpose = .failed reason ∧ heard (.returned (.error reason))) ∧
          ∀ error ∈ errors, error.Returned heard)
    (cleaned : ∀ error ∈ next.lastCleanupErrors, error.Returned heard)
    (answered : ∀ error, next.lastAnswer = some (.failed error) → error.Returned heard) :
    Remains heard entries fiber (later, next) := by
  obtain ⟨definition, context, unasked, epoch⟩ := kept
  have resolves {dependencies : ResolvedDependencies ν} (resolves : fiber.Resolves tree dependencies) :
      next.Resolves later dependencies := by
    unfold Resolves at resolves ⊢
    rw [same, definition]
    exact resolves
  refine ⟨entries, .nothing, sole.of_topology same, started, context.trans undisturbed.context,
    unasked.trans undisturbed.unasked, fun inactive => ?_, fun now => ?_,
    fun publication dependencies loads_ => resolves (resolved publication dependencies loads_), failed,
    cleans, cleaned, answered⟩
  · rw [definition]
    exact undisturbed.vacant (mt active.mpr inactive)
  · obtain ⟨dependencies, bound, same⟩ := undisturbed.bound (active.mp now)
    exact ⟨dependencies, resolves bound, epoch.trans same⟩

/-- A round of the loop. -/
theorem Undisturbed.drive (undisturbed : Undisturbed heard entries tree fiber) (sole : tree.Sole entries)
    {call : FiberCall} {force : Bool} (driving : fiber.transition = .driving call force)
    (started : Started (fiber.drive tree call force).1 (fiber.drive tree call force).2) :
    Remains heard entries fiber (fiber.drive tree call force) := by
  have placed := undisturbed.started.placed
  unfold Placed at placed
  rw [driving] at placed
  obtain ⟨⟨rfl, rfl⟩, stands⟩ := placed
  have fine : fiber.state ≠ .failed := by
    intro failed
    rw [failed] at stands
    exact stands.elim (fun same => by cases same) fun same => by cases same
  have answers {answer : FiberAnswer} (fine : ∀ error, answer ≠ .failed error)
      (held : CapabilityFiber ν) (error : FiberError)
      (last : (held.reply .start answer).lastAnswer = some (.failed error)) : error.Returned heard := by
    unfold lastAnswer reply at last
    rw [List.getLast?_concat] at last
    exact absurd (Option.some.inj last) (fine error)
  unfold CapabilityFiber.drive at started ⊢
  rw [undisturbed.context] at started ⊢
  cases resolves : tree.topology.contextResolve rootContext fiber.definition.capability with
  | error error =>
    rw [resolves] at started
    have inactive : fiber.state ≠ .active := by
      intro active
      obtain ⟨dependencies, resolved, _⟩ := undisturbed.bound active
      unfold Resolves at resolved
      rw [resolves] at resolved
      cases resolved
    simp only at started ⊢
    rw [if_neg inactive] at started ⊢
    refine undisturbed.still sole rfl started ⟨rfl, undisturbed.context.symm, rfl, rfl⟩
      ⟨(fun active => by cases active), fun active => absurd active inactive⟩
      (fun _ _ loads_ => by cases loads_) (fun failed => by cases failed)
      (fun _ _ _ _ _ cleaning => by cases cleaning) undisturbed.cleaned
      (answers (fun _ same => by cases same) _)
  | ok dependencies =>
    rw [resolves] at started
    simp only at started ⊢
    by_cases active : fiber.state = .active
    · obtain ⟨others, resolved, epoch⟩ := undisturbed.bound active
      unfold Resolves at resolved
      obtain rfl : dependencies = others := Except.ok.inj (resolves.symm.trans resolved)
      rw [if_pos ⟨Bool.false_ne_true, active, epoch⟩] at started ⊢
      exact undisturbed.still sole rfl started ⟨rfl, rfl, rfl, rfl⟩ Iff.rfl
        (fun _ _ loads_ => by cases loads_) undisturbed.failed
        (fun _ _ _ _ _ cleaning => by cases cleaning) undisturbed.cleaned
        (answers (fun _ same => by cases same) _)
    · rw [if_neg fun same => active same.2.1, if_neg (not_or.mpr ⟨active, fine⟩),
        if_neg (by rw [undisturbed.unasked]; exact Bool.false_ne_true)] at started ⊢
      refine undisturbed.still sole (ScopeTree.topology_load _ _ _) started ⟨rfl, rfl, rfl, rfl⟩
        ⟨(fun same => by cases same), fun same => absurd same active⟩ ?_ (fun same => by cases same)
        (fun _ _ _ _ _ cleaning => by cases cleaning) undisturbed.cleaned undisturbed.answered
      rintro publication others ⟨⟩
      exact resolves

/-- The factory returns: what was loaded is not stale. -/
theorem Undisturbed.returned (undisturbed : Undisturbed heard entries tree fiber)
    (sole : tree.Sole entries) {call : FiberCall} {force : Bool} {publication : Nat}
    {dependencies : ResolvedDependencies ν}
    (loading : fiber.transition = .loading call force publication dependencies)
    {result : Except Text ν} (heard_ : heard (.returned result))
    (started : Started (fiber.returned tree call force publication dependencies result).1
      (fiber.returned tree call force publication dependencies result).2) :
    Remains heard entries fiber
      (fiber.returned tree call force publication dependencies result) := by
  have loads_ : fiber.loads = some (publication, dependencies) := by
    unfold loads
    rw [loading]
  have resolves := undisturbed.resolved publication dependencies loads_
  have current : fiber.currentBinding tree = some (bindingOf dependencies) := by
    unfold Resolves at resolves
    unfold currentBinding
    rw [undisturbed.context, resolves]
    rfl
  have fresh : (fiber.disposeRequested || fiber.forceReload ||
      decide (fiber.currentBinding tree ≠ some (bindingOf dependencies))) = false := by
    rw [undisturbed.unasked, undisturbed.started.unforced, current]
    exact decide_eq_false (not_not.mpr rfl)
  unfold CapabilityFiber.returned at started ⊢
  simp only at started ⊢
  rw [fresh] at started ⊢
  cases result with
  | ok value =>
    refine undisturbed.still sole rfl started ⟨rfl, rfl, rfl, rfl⟩ Iff.rfl ?_ undisturbed.failed
      (fun _ _ _ _ _ cleaning => by cases cleaning) undisturbed.cleaned undisturbed.answered
    rintro other others ⟨⟩
    exact resolves
  | error reason =>
    refine undisturbed.still sole (ScopeTree.topology_constructed_error _ _) started
      ⟨rfl, rfl, rfl, rfl⟩ Iff.rfl (fun _ _ loads_ => by cases loads_) undisturbed.failed ?_
      undisturbed.cleaned undisturbed.answered
    rintro other others purpose effects errors ⟨⟩
    exact ⟨⟨reason, rfl, heard_⟩, fun _ member => absurd member List.not_mem_nil⟩

/-- **The publication of a load** is not refused. -/
theorem Undisturbed.publish (undisturbed : Undisturbed heard entries tree fiber)
    (sole : tree.Sole entries) (sane : tree.poisoned = false) {call : FiberCall} {force : Bool}
    {publication : Nat} {dependencies : ResolvedDependencies ν} {value : ν}
    (publishing : fiber.transition = .publishing call force publication dependencies value)
    (started : Started (fiber.publish tree call force publication dependencies value).1
      (fiber.publish tree call force publication dependencies value).2) :
    Remains heard entries fiber (fiber.publish tree call force publication dependencies value) := by
  have placed := undisturbed.started.placed
  unfold Placed at placed
  rw [publishing] at placed
  have loading : fiber.state = .loading := placed.2
  have loads_ : fiber.loads = some (publication, dependencies) := by
    unfold loads
    rw [publishing]
  have resolves := undisturbed.resolved publication dependencies loads_
  have scope : fiber.scope = 0 := by
    unfold CapabilityFiber.scope
    rw [undisturbed.context]
    rfl
  have found := (undisturbed.started.begun publication dependencies loads_).resolve_left
    (by rw [sane]; exact Bool.false_ne_true)
  have fresh := undisturbed.vacant (by rw [loading]; exact fun same => by cases same)
  have step : tree.step (.constructed publication (.ok value)) =
      ({ tree with pending := tree.pending.set publication none } : ScopeTree ν).provideValue 0
        fiber.definition.capability dependencies value := by
    simp only [ScopeTree.step, found, ScopeTree.complete, if_true]
    rw [scope]
  have alone : ({ tree with pending := tree.pending.set publication none } : ScopeTree ν).Sole
      entries := sole.of_topology rfl
  unfold CapabilityFiber.publish at started ⊢
  rcases alone.provideValue fresh resolves value with
    ⟨later, panicked, same⟩ | ⟨handle, published, defined, pins⟩
  · rw [step, panicked] at started ⊢
    refine undisturbed.still sole same started ⟨rfl, rfl, rfl, rfl⟩ Iff.rfl undisturbed.resolved
      undisturbed.failed ?_ undisturbed.cleaned undisturbed.answered
    intro other others purpose effects errors cleaning
    rw [publishing] at cleaning
    cases cleaning
  · rw [step, published] at started ⊢
    have free : handle.definition.id ∉ entries := defined ▸ fresh
    have after := alone.install free (by rw [defined, pins]; exact resolves)
    rw [defined] at after
    refine ⟨_, .publication handle fresh, after, started, undisturbed.context, undisturbed.unasked,
      fun inactive => absurd rfl inactive, fun _ => ⟨dependencies, ?_, rfl⟩,
      (fun _ _ loads_ => by cases loads_), (fun failed => by cases failed),
      (fun _ _ _ _ _ cleaning => by cases cleaning), undisturbed.cleaned, fun error last => ?_⟩
    · unfold Resolves at resolves ⊢
      rw [after.topology]
      rw [sole.topology] at resolves
      exact Topology.resolve_grows (Grows.insert fresh handle) resolves
    · unfold lastAnswer reply at last
      rw [List.getLast?_concat] at last
      cases last

/-- The end of a cleanup: the factory had failed. -/
theorem Undisturbed.finish (undisturbed : Undisturbed heard entries tree fiber)
    (sole : tree.Sole entries) {call : FiberCall} {force : Bool} {purpose : Cleanup}
    {errors : List EffectError}
    (cleaning : fiber.transition = .cleaning call force purpose [] errors)
    (started : Started (fiber.finish tree call force errors purpose).1
      (fiber.finish tree call force errors purpose).2) :
    Remains heard entries fiber (fiber.finish tree call force errors purpose) := by
  have placed := undisturbed.started.placed
  obtain ⟨⟨reason, rfl, said⟩, told⟩ := undisturbed.cleans call force purpose [] errors cleaning
  unfold Placed at placed
  rw [cleaning] at placed
  have loading : fiber.state = .loading := placed.2
  refine undisturbed.still sole rfl started ⟨rfl, rfl, rfl, rfl⟩ ?_ (fun _ _ loads_ => by cases loads_)
    (fun _ => ⟨.factory reason, rfl, said⟩) (fun _ _ _ _ _ cleaning => by cases cleaning) told
    fun error last => ?_
  · rw [loading]
    exact ⟨(fun same => by cases same), fun same => by cases same⟩
  · unfold lastAnswer reply at last
    rw [List.getLast?_concat] at last
    cases last
    exact ⟨said, told⟩

/-- An effect is registered. -/
theorem Undisturbed.register (undisturbed : Undisturbed heard entries tree fiber) (stack : Nat)
    (label : Text) : Undisturbed heard entries tree (fiber.register stack label) := by
  have started := undisturbed.started.register stack label
  unfold CapabilityFiber.register at started ⊢
  split
  · rename_i held
    rw [held] at started
    exact ⟨started, undisturbed.context, undisturbed.unasked, undisturbed.vacant, undisturbed.bound,
      undisturbed.resolved, undisturbed.failed, undisturbed.cleans, undisturbed.cleaned,
      undisturbed.answered⟩
  · exact undisturbed

/-- **One event of a fiber that nobody disturbs.** -/
theorem Undisturbed.step (undisturbed : Undisturbed heard entries tree fiber) (sole : tree.Sole entries)
    {event : FiberEvent ν} (works : event.Works) (heard_ : heard event)
    (unlocked : ¬ (tree.poisoned = true ∧ fiber.locks = true))
    (started : Started (fiber.step tree event).1 (fiber.step tree event).2) :
    Remains heard entries fiber (fiber.step tree event) := by
  have same : Remains heard entries fiber (tree, fiber) := ⟨entries, .nothing, sole, undisturbed⟩
  cases works with
  | go =>
    simp only [CapabilityFiber.step] at started ⊢
    cases here : fiber.transition with
    | driving call force =>
      rw [here] at started
      exact undisturbed.drive sole here started
    | publishing call force publication dependencies value =>
      rw [here] at started
      refine undisturbed.publish sole (Bool.eq_false_iff.mpr fun poisoned => unlocked ⟨poisoned, ?_⟩)
        here started
      unfold locks
      rw [here]
    | cleaning call force purpose effects errors =>
      cases effects with
      | nil =>
        rw [here] at started
        exact undisturbed.finish sole here started
      | cons effect rest => exact same
    | free => exact same
    | loading call force publication dependencies => exact same
  | returned result =>
    simp only [CapabilityFiber.step] at started ⊢
    cases here : fiber.transition with
    | loading call force publication dependencies =>
      rw [here] at started
      exact undisturbed.returned sole here heard_ started
    | _ => exact same
  | cleaned result =>
    simp only [CapabilityFiber.step] at started ⊢
    cases here : fiber.transition with
    | cleaning call force purpose effects errors =>
      cases effects with
      | nil => exact same
      | cons effect rest =>
        rw [here] at started
        obtain ⟨failed, told⟩ := undisturbed.cleans call force purpose (effect :: rest) errors here
        refine undisturbed.still sole rfl started ⟨rfl, rfl, rfl, rfl⟩ Iff.rfl
          (fun _ _ loads_ => by cases loads_) undisturbed.failed ?_ undisturbed.cleaned
          undisturbed.answered
        rintro other others purpose effects next ⟨⟩
        refine ⟨failed, fun error member => ?_⟩
        unfold CapabilityFiber.cleaned at member
        cases result with
        | ok value => exact told error member
        | error reason =>
          rcases List.mem_append.mp member with before | now
          · exact told error before
          · rw [List.mem_singleton.mp now]
            exact heard_
    | _ => exact same
  | register stack label => exact ⟨entries, .nothing, sole, undisturbed.register stack label⟩

/-- A start begins. -/
theorem Undisturbed.begin (undisturbed : Undisturbed heard entries tree fiber)
    (free : fiber.transition = .free) : Undisturbed heard entries tree (fiber.begin tree .start) := by
  have started := undisturbed.started.begin undisturbed.unasked free
  rw [begin_start tree free] at started ⊢
  unfold startDrive at started ⊢
  rw [if_neg (by rw [undisturbed.unasked]; exact Bool.false_ne_true)] at started ⊢
  split
  · rename_i fails
    rw [if_pos fails] at started
    obtain ⟨failure, held, said⟩ := undisturbed.failed fails.2
    refine ⟨started, undisturbed.context, undisturbed.unasked, undisturbed.vacant, undisturbed.bound,
      (fun _ _ loads_ => by cases loads_), undisturbed.failed,
      (fun _ _ _ _ _ cleaning => by cases cleaning), undisturbed.cleaned, fun error last => ?_⟩
    unfold lastAnswer reply at last
    rw [List.getLast?_concat] at last
    cases last
    rw [held]
    exact ⟨said, undisturbed.cleaned⟩
  · rename_i fine
    rw [if_neg fine] at started
    refine ⟨started, undisturbed.context, undisturbed.unasked, undisturbed.vacant, undisturbed.bound,
      (fun _ _ loads_ => by cases loads_), undisturbed.failed,
      (fun _ _ _ _ _ cleaning => by cases cleaning), fun error member => ?_, undisturbed.answered⟩
    simp only at member
    split at member
    · exact absurd member List.not_mem_nil
    · exact undisturbed.cleaned error member

/-- Neither the scopes nor the load of a fiber change. -/
theorem Undisturbed.frame (undisturbed : Undisturbed heard entries tree fiber) {later : ScopeTree ν}
    (same : later.topology = tree.topology) (started : fiber.Started later) :
    Undisturbed heard entries later fiber :=
  have resolves {dependencies : ResolvedDependencies ν} (resolves : fiber.Resolves tree dependencies) :
      fiber.Resolves later dependencies := by
    unfold Resolves at resolves ⊢
    rw [same]
    exact resolves
  ⟨started, undisturbed.context, undisturbed.unasked, undisturbed.vacant,
    fun active => (undisturbed.bound active).imp fun _ bound => ⟨resolves bound.1, bound.2⟩,
    fun publication dependencies loads_ => resolves (undisturbed.resolved publication dependencies loads_),
    undisturbed.failed, undisturbed.cleans, undisturbed.cleaned, undisturbed.answered⟩

end CapabilityFiber

end Kernis
