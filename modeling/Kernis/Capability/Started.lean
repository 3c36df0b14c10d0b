/-
**Fibers that are only started.**

An owner that starts its fibers and asks them for nothing else finds each pending, active or failed when
it rests, and a start changes no slot but the fiber's own.

* `ScopeTree.Touches` — a change of one slot at most; `Loaded` — what the publication of a load comes to.
* `Placed` — where such a fiber stands; `Started` — with its publication and its slot; `Started.step`.
* `Rising` — a fiber that misses no dependency before it is active; `Rising.step`.
-/

import Kernis.Capability.Attended

namespace Kernis

open Std

/-! ### One slot -/

namespace ScopeTree

variable {ν : Type} {tree next : ScopeTree ν} {scope : Nat} {capability : Id}

/-- **One slot at most changes.** -/
structure Touches (tree next : ScopeTree ν) (scope : Nat) (capability : Id) : Prop where
  slots : ∀ other (id : Id), ¬ (other = scope ∧ id = capability) →
    (next.topology.level other).entries[id]? = (tree.topology.level other).entries[id]?
  live : ∀ other, next.topology.live other = tree.topology.live other

theorem Touches.of_topology (same : next.topology = tree.topology) :
    Touches tree next scope capability := by
  refine ⟨fun _ _ _ => ?_, fun _ => ?_⟩
  · rw [same]
  · rw [same]

theorem touches_modify (change : ScopeState ν → ScopeState ν)
    (kept : ∀ (state : ScopeState ν) (id : Id), id ≠ capability →
      (change state).entries[id]? = state.entries[id]?)
    (live : ∀ state, (change state).live = state.live)
    (same : next.topology = tree.topology.modify scope change) :
    Touches tree next scope capability where
  slots := by
    intro other id apart
    rw [same]
    rcases Topology.level_modify scope other change with unchanged | ⟨rfl, state, found, changed⟩
    · rw [unchanged]
    · rw [changed, Topology.level_of_scope found]
      exact kept state id fun named => apart ⟨rfl, named⟩
  live := by
    intro other
    rw [same]
    exact Topology.live_modify live scope other

theorem touches_withdraw (expected : Nat) :
    Touches tree (tree.step (.withdraw scope capability expected)).2 scope capability := by
  simp only [step, locked]
  split
  · exact .of_topology rfl
  · split
    · exact .of_topology rfl
    · unfold withdraw
      split
      · exact .of_topology rfl
      · refine touches_modify (fun state =>
          { state with entries := state.entries.erase capability })
          (fun state id other => ?_) (fun _ => rfl) rfl
        rw [ExtTreeMap.getElem?_erase, if_neg fun same => other (Std.compare_eq_iff_eq.mp same).symm]

/-- **What the publication of a load comes to.** -/
inductive Loaded (tree : ScopeTree ν) (publication : Nat) (begun : Publication ν) (value : ν) :
    ScopeAnswer ν × ScopeTree ν → Prop
  | refused (error : ScopeError) : Loaded tree publication begun value
      (.failed error, { tree with pending := tree.pending.set publication none })
  | panicked {later : ScopeTree ν} (same : later.topology = tree.topology)
      (poisoned : later.poisoned = true) : Loaded tree publication begun value (.panicked, later)
  | published (generation : Nat) : Loaded tree publication begun value
      (.published ⟨begun.definition, value, begun.dependencies, generation, tree.nextEntryId⟩,
        { tree with pending := tree.pending.set publication none }.install begun.scope .new
          ⟨begun.definition, value, begun.dependencies, generation, tree.nextEntryId⟩)

theorem loaded {publication : Nat} {begun : Publication ν}
    (found : tree.pending[publication]? = some (some begun)) (load : begun.load = true)
    (live : tree.topology.live begun.scope) (value : ν) :
    Loaded tree publication begun value (tree.step (.constructed publication (.ok value))) := by
  simp only [step, found, complete, load, if_true]
  unfold provideValue
  split
  · exact .refused _
  · unfold locked
    rw [if_neg (not_not.mpr live)]
    split
    · exact .panicked rfl ‹_›
    · unfold publishPreconstructed
      split
      · exact .refused _
      · split
        · exact .panicked rfl rfl
        · exact .published _

end ScopeTree

/-! ### Where a fiber stands -/

/-- What a cleanup of a start finds the fiber in. -/
def Cleanup.During (definition : CapabilityDefinition) (state : FiberState) : Cleanup → Prop
  | .reload => state = .unloading
  | .missing => state = .unloading ∧ definition.dependencies.toList ≠ []
  | .withdrawal _ | .disposal => False
  | .changed | .refused _ | .staleValue | .staleError | .failed _ => state = .loading

namespace CapabilityFiber

variable {ν : Type} {fiber next : CapabilityFiber ν} {tree : ScopeTree ν}

/-- The publication that a fiber has begun, with its dependencies. -/
def loads (fiber : CapabilityFiber ν) : Option (Nat × ResolvedDependencies ν) :=
  match fiber.transition with
  | .loading _ _ publication dependencies | .publishing _ _ publication dependencies _ =>
    some (publication, dependencies)
  | _ => none

theorem begun_of_loads {publication : Nat} {dependencies : ResolvedDependencies ν}
    (loads_ : fiber.loads = some (publication, dependencies)) : fiber.begun = some publication := by
  unfold loads at loads_
  unfold begun
  cases same : fiber.transition with
  | loading call force position others =>
    rw [same] at loads_
    cases loads_
    rfl
  | publishing call force position others value =>
    rw [same] at loads_
    cases loads_
    rfl
  | _ =>
    rw [same] at loads_
    cases loads_

/-- **Where a fiber stands that was only ever started.** -/
def Placed (fiber : CapabilityFiber ν) : Prop :=
  match fiber.transition with
  | .free => fiber.state = .active ∨
    fiber.state = .pending ∧
      (fiber.answers = [] ∨ fiber.definition.capability.dependencies.toList ≠ []) ∨
    fiber.state = .failed ∧ ∃ error, fiber.lastAnswer = some (.failed error)
  | .driving call force =>
    (call = .start ∧ force = false) ∧ (fiber.state = .pending ∨ fiber.state = .active)
  | .loading call force _ _ | .publishing call force _ _ _ =>
    (call = .start ∧ force = false) ∧ fiber.state = .loading
  | .cleaning call force purpose _ _ =>
    (call = .start ∧ force = false) ∧ purpose.During fiber.definition.capability fiber.state

/-- **A fiber that was only ever started**: its load is under way, what it published is its capability, and
while it is active its slot is held. -/
structure Started (tree : ScopeTree ν) (fiber : CapabilityFiber ν) : Prop where
  placed : fiber.Placed
  unforced : fiber.forceReload = false
  begun : ∀ publication dependencies, fiber.loads = some (publication, dependencies) →
    tree.poisoned = true ∨ tree.pending[publication]? =
      some (some ⟨fiber.scope, fiber.definition.capability, .new, dependencies, true⟩)
  handled : ∀ handle, fiber.handle = some handle → handle.definition = fiber.definition.capability
  slot : fiber.state = .active →
    fiber.definition.capability.id ∈ (tree.topology.level fiber.scope).entries

theorem started_new (tree : ScopeTree ν) (definition : PluginDefinition)
    (context : List ContextState) (config : Text) :
    Started tree (CapabilityFiber.new definition context config) :=
  ⟨.inr (.inl ⟨rfl, .inl rfl⟩), rfl, (fun _ _ same => by cases same),
    (fun _ same => by cases same), (fun same => by cases same)⟩

/-- A failed fiber at rest has said so. -/
theorem Placed.failed (placed : fiber.Placed) (free : fiber.transition = .free)
    (failed : fiber.state = .failed) : ∃ error, fiber.lastAnswer = some (.failed error) := by
  unfold Placed at placed
  rw [free] at placed
  rcases placed with active | ⟨pending, _⟩ | ⟨_, last⟩
  · exact absurd (active.symm.trans failed) (fun same => by cases same)
  · exact absurd (pending.symm.trans failed) (fun same => by cases same)
  · exact last

/-- Dependencies that do not resolve are there. -/
theorem dependencies_of_error {context : List ContextState} {definition : CapabilityDefinition}
    {error : ScopeError} (missing : tree.topology.contextResolve context definition = .error error) :
    definition.dependencies.toList ≠ [] := by
  intro none_
  unfold Topology.contextResolve at missing
  rw [none_] at missing
  cases missing

/-! ### Steps -/

/-- What an event leaves of the fiber and of the scopes. -/
structure Proceeds (tree : ScopeTree ν) (fiber : CapabilityFiber ν)
    (after : ScopeTree ν × CapabilityFiber ν) : Prop where
  started : Started after.1 after.2
  touches : tree.Touches after.1 fiber.scope fiber.definition.capability.id

/-- A cleanup begins. -/
theorem Started.clean (started : Started tree fiber) {state : FiberState} (purpose : Cleanup)
    (during : purpose.During fiber.definition.capability state) (inactive : state ≠ .active)
    (later : ScopeTree ν) :
    Started later ({ fiber with state := state }.clean .start false purpose) :=
  ⟨⟨⟨rfl, rfl⟩, during⟩, started.unforced, (fun _ _ same => by cases same), started.handled,
    fun active => absurd active inactive⟩

/-- An unload begins. -/
theorem Started.unload (started : Started tree fiber) (purpose : Cleanup)
    (during : purpose.During fiber.definition.capability .unloading) (later : ScopeTree ν) :
    Started later (fiber.unload .start false purpose) :=
  started.clean purpose during (fun same => nomatch same) later

/-- The holder of the lock is at rest or at the head of its loop, and not active. -/
theorem Started.rests (started : Started tree fiber) (later : ScopeTree ν)
    (definition : next.definition = fiber.definition) (placed : next.Placed)
    (unforced : next.forceReload = false) (idle : next.loads = none)
    (handle : next.handle = fiber.handle ∨ next.handle = none) (inactive : next.state ≠ .active) :
    Started later next where
  placed := placed
  unforced := unforced
  begun := fun _ _ begun => absurd (idle.symm.trans begun) (fun same => by cases same)
  handled := by
    intro handle_ held
    rw [definition]
    rcases handle with same | none_
    · exact started.handled handle_ (same ▸ held)
    · rw [none_] at held
      cases held
  slot := fun active => absurd active inactive

/-- A round of the loop. -/
theorem Started.drive (started : Started tree fiber) (unasked : fiber.disposeRequested = false)
    (live : tree.topology.live fiber.scope = true) {call : FiberCall} {force : Bool}
    (driving : fiber.transition = .driving call force) :
    Proceeds tree fiber (fiber.drive tree call force) := by
  have placed := started.placed
  unfold Placed at placed
  rw [driving] at placed
  obtain ⟨⟨rfl, rfl⟩, stands⟩ := placed
  have touches : tree.Touches tree fiber.scope fiber.definition.capability.id := .of_topology rfl
  unfold CapabilityFiber.drive
  split
  · rename_i error missing
    have depends := dependencies_of_error missing
    refine ⟨?_, touches⟩
    simp only
    split
    · exact started.unload .missing ⟨rfl, depends⟩ tree
    · exact started.rests tree rfl (.inr (.inl ⟨rfl, .inr depends⟩)) started.unforced rfl (.inl rfl)
        (fun same => by cases same)
  · rename_i dependencies resolved
    split
    · rename_i current
      exact ⟨⟨.inl current.2.1, started.unforced, (fun _ _ same => by cases same), started.handled,
        started.slot⟩, touches⟩
    · split
      · exact ⟨started.unload .reload rfl tree, touches⟩
      · rename_i inactive
        rw [if_neg (by rw [unasked]; exact Bool.false_ne_true)]
        have begun : tree.step (.load fiber.scope fiber.definition.capability fiber.context) =
            tree.await ⟨fiber.scope, fiber.definition.capability, .new, dependencies, true⟩ := by
          simp only [ScopeTree.step]
          rw [if_neg (not_not.mpr live), resolved]
        unfold load
        rw [begun]
        refine ⟨⟨⟨⟨rfl, rfl⟩, rfl⟩, started.unforced, ?_, started.handled,
          (fun same => by cases same)⟩, .of_topology rfl⟩
        rintro publication others ⟨⟩
        refine .inr ?_
        change (tree.pending ++ [some _])[tree.pending.length]? = _
        rw [List.getElem?_append_right (Nat.le_refl _), Nat.sub_self]
        rfl

/-- The factory returns. -/
theorem Started.returned (started : Started tree fiber) {call : FiberCall} {force : Bool}
    {publication : Nat} {dependencies : ResolvedDependencies ν}
    (loading : fiber.transition = .loading call force publication dependencies)
    (result : Except Text ν) :
    Proceeds tree fiber (fiber.returned tree call force publication dependencies result) := by
  have placed := started.placed
  unfold Placed at placed
  rw [loading] at placed
  obtain ⟨⟨rfl, rfl⟩, stands⟩ := placed
  have cleans (purpose : Cleanup) (during : purpose.During fiber.definition.capability fiber.state)
      (later : ScopeTree ν) : Started later (fiber.clean .start false purpose) :=
    started.clean purpose during (by rw [stands]; exact fun same => by cases same) later
  have touches (result : Except Text ν) (quiet : ∃ reason, result = .error reason) :
      tree.Touches (tree.step (.constructed publication result)).2 fiber.scope
        fiber.definition.capability.id := by
    obtain ⟨reason, rfl⟩ := quiet
    refine .of_topology ?_
    simp only [ScopeTree.step]
    split
    · rfl
    · rfl
  unfold CapabilityFiber.returned
  simp only
  split
  · split
    · exact ⟨cleans .staleValue stands _, touches _ ⟨_, rfl⟩⟩
    · refine ⟨⟨⟨⟨rfl, rfl⟩, stands⟩, started.unforced, ?_, started.handled, started.slot⟩,
        .of_topology rfl⟩
      rintro other others ⟨⟩
      exact started.begun publication dependencies (by unfold loads; rw [loading])
  · refine ⟨cleans _ ?_ _, touches _ ⟨_, rfl⟩⟩
    split
    · exact stands
    · exact stands

/-- The publication of a load. -/
theorem Started.publish (started : Started tree fiber)
    (live : tree.topology.live fiber.scope = true) (sane : tree.poisoned = false)
    {call : FiberCall} {force : Bool} {publication : Nat} {dependencies : ResolvedDependencies ν}
    {value : ν} (publishing : fiber.transition = .publishing call force publication dependencies value) :
    Proceeds tree fiber (fiber.publish tree call force publication dependencies value) := by
  have placed := started.placed
  unfold Placed at placed
  rw [publishing] at placed
  obtain ⟨⟨rfl, rfl⟩, stands⟩ := placed
  have cleans (purpose : Cleanup) (during : purpose.During fiber.definition.capability fiber.state)
      (later : ScopeTree ν) : Started later (fiber.clean .start false purpose) :=
    started.clean purpose during (by rw [stands]; exact fun same => by cases same) later
  have found : tree.pending[publication]? =
      some (some ⟨fiber.scope, fiber.definition.capability, .new, dependencies, true⟩) := by
    refine (started.begun publication dependencies ?_).resolve_left
      (by rw [sane]; exact Bool.false_ne_true)
    unfold loads
    rw [publishing]
  have loaded := ScopeTree.loaded found rfl live value
  unfold CapabilityFiber.publish
  generalize tree.step (.constructed publication (.ok value)) = after at loaded
  cases loaded with
  | refused error =>
    cases error with
    | dependencyChanged capability dependency => exact ⟨cleans .changed stands _, .of_topology rfl⟩
    | _ => exact ⟨cleans (.refused _) stands _, .of_topology rfl⟩
  | panicked same poisoned =>
    refine ⟨⟨?_, started.unforced, fun _ _ _ => .inl poisoned, started.handled, ?_⟩,
      .of_topology same⟩
    · unfold Placed
      simp only
      rw [publishing]
      exact ⟨⟨rfl, rfl⟩, stands⟩
    · intro active
      exact absurd (stands.symm.trans active) (fun same => by cases same)
  | published generation =>
    refine ⟨⟨.inl rfl, started.unforced, (fun _ _ same => by cases same), ?_, fun _ => ?_⟩, ?_⟩
    · rintro handle ⟨⟩
      rfl
    · refine mem_of_lookup (Topology.entry_installed ?_
        ⟨fiber.definition.capability, value, dependencies, generation, tree.nextEntryId⟩)
      exact live
    · refine ScopeTree.touches_modify (fun state => { state with
        entries := state.entries.insert fiber.definition.capability.id
          ⟨fiber.definition.capability, value, dependencies, generation, tree.nextEntryId⟩ })
        (fun state id other => ?_) (fun _ => rfl) rfl
      rw [lookup_insert, if_neg fun same => other same.symm]

/-- An unload takes no other slot. -/
theorem Started.touches_unloaded (started : Started tree fiber)
    (detached : Option ProviderIdentity) (errors : List EffectError) :
    tree.Touches (unloaded tree fiber detached errors).2.1 fiber.scope
      fiber.definition.capability.id := by
  have removes : tree.Touches (removeLocal tree fiber detached).2 fiber.scope
      fiber.definition.capability.id := by
    unfold removeLocal
    split
    · exact .of_topology rfl
    · rename_i handle held
      have withdraws : tree.Touches
          (tree.step (.withdraw fiber.scope handle.definition.id handle.generation)).2 fiber.scope
            handle.definition.id := ScopeTree.touches_withdraw handle.generation
      rw [started.handled handle held] at withdraws ⊢
      split
      · exact .of_topology rfl
      · split
        · rename_i same
          rw [same] at withdraws
          exact withdraws
        · rename_i same
          rw [same] at withdraws
          exact withdraws
  unfold unloaded
  split
  · rename_i same
    rw [same] at removes
    exact removes
  · rename_i same
    rw [same] at removes
    exact removes

/-- The end of a cleanup. -/
theorem Started.finish (started : Started tree fiber) (unasked : fiber.disposeRequested = false)
    {call : FiberCall} {force : Bool} {purpose : Cleanup} {errors : List EffectError}
    (cleaning : fiber.transition = .cleaning call force purpose [] errors) :
    Proceeds tree fiber (fiber.finish tree call force errors purpose) := by
  have placed := started.placed
  unfold Placed at placed
  rw [cleaning] at placed
  obtain ⟨⟨rfl, rfl⟩, during⟩ := placed
  have unloads := started.touches_unloaded none errors
  have touches : tree.Touches tree fiber.scope fiber.definition.capability.id := .of_topology rfl
  have goes {other : CapabilityFiber ν} (later : ScopeTree ν)
      (definition : other.definition = fiber.definition)
      (asked : other.disposeRequested = fiber.disposeRequested)
      (forced : other.forceReload = false)
      (handle : other.handle = fiber.handle ∨ other.handle = none) :
      Started later (other.again .start false .pending) := by
    unfold again
    rw [if_neg (by rw [asked, unasked]; exact Bool.false_ne_true)]
    exact started.rests later definition ⟨⟨rfl, rfl⟩, .inl rfl⟩ forced rfl handle (fun same => by cases same)
  have fails {other : CapabilityFiber ν} (later : ScopeTree ν) (error : FiberError)
      (definition : other.definition = fiber.definition) (failed : other.state = .failed)
      (forced : other.forceReload = false)
      (handle : other.handle = fiber.handle ∨ other.handle = none) :
      Started later (other.reply .start (.failed error)) := by
    refine started.rests later definition (.inr (.inr ⟨failed, error, ?_⟩)) forced rfl handle ?_
    · unfold lastAnswer reply
      rw [List.getLast?_concat]
      rfl
    · change other.state ≠ .active
      rw [failed]
      intro same
      cases same
  cases purpose with
  | reload =>
    obtain ⟨binding, effects, last, same⟩ := unloaded_eq tree fiber none errors
    simp only [CapabilityFiber.finish]
    rw [same]
    exact ⟨goes _ rfl rfl started.unforced (.inr rfl), unloads⟩
  | missing =>
    obtain ⟨binding, effects, last, same⟩ := unloaded_eq tree fiber none errors
    simp only [CapabilityFiber.finish]
    rw [same]
    exact ⟨started.rests _ rfl (.inr (.inl ⟨rfl, .inr during.2⟩)) started.unforced rfl (.inr rfl)
      (fun same => by cases same), unloads⟩
  | withdrawal detached => exact during.elim
  | disposal => exact during.elim
  | changed =>
    exact ⟨started.rests _ rfl ⟨⟨rfl, rfl⟩, .inl rfl⟩ started.unforced rfl (.inl rfl)
      (fun same => by cases same), touches⟩
  | refused error => exact ⟨fails _ _ rfl rfl started.unforced (.inl rfl), touches⟩
  | staleValue => exact ⟨goes _ rfl rfl rfl (.inl rfl), touches⟩
  | staleError => exact ⟨goes _ rfl rfl rfl (.inl rfl), touches⟩
  | failed reason => exact ⟨fails _ _ rfl rfl started.unforced (.inl rfl), touches⟩

/-- An effect is registered. -/
theorem Started.register (started : Started tree fiber) (stack : Nat) (label : Text) :
    Started tree (fiber.register stack label) := by
  unfold CapabilityFiber.register
  split
  · exact ⟨started.placed, started.unforced, started.begun, started.handled, started.slot⟩
  · exact started

/-- **One event of a start** leaves the fiber started, and takes no slot but its own. -/
theorem Started.step (started : Started tree fiber) (unasked : fiber.disposeRequested = false)
    (live : tree.topology.live fiber.scope = true) {event : FiberEvent ν} (works : event.Works)
    (unlocked : ¬ (tree.poisoned = true ∧ fiber.locks = true)) :
    Proceeds tree fiber (fiber.step tree event) := by
  have same : Proceeds tree fiber (tree, fiber) := ⟨started, .of_topology rfl⟩
  cases works with
  | go =>
    simp only [CapabilityFiber.step]
    split
    · exact started.drive unasked live ‹_›
    · rename_i call force publication dependencies value publishing
      refine started.publish live (Bool.eq_false_iff.mpr fun poisoned => unlocked ⟨poisoned, ?_⟩)
        publishing
      unfold locks
      rw [publishing]
    · exact started.finish unasked ‹_›
    · exact same
  | returned result =>
    simp only [CapabilityFiber.step]
    split
    · exact started.returned ‹_› result
    · exact same
  | cleaned result =>
    simp only [CapabilityFiber.step]
    split
    · rename_i call force purpose effect rest errors cleaning
      have placed := started.placed
      unfold Placed at placed
      rw [cleaning] at placed
      exact ⟨⟨placed, started.unforced, (fun _ _ same => by cases same), started.handled, started.slot⟩,
        .of_topology rfl⟩
    · exact same
  | register stack label => exact ⟨started.register stack label, .of_topology rfl⟩

/-- A start begins. -/
theorem Started.begin (started : Started tree fiber) (unasked : fiber.disposeRequested = false)
    (free : fiber.transition = .free) : Started tree (fiber.begin tree .start) := by
  have placed := started.placed
  unfold Placed at placed
  rw [free] at placed
  rw [begin_start tree free]
  unfold startDrive
  rw [if_neg (by rw [unasked]; exact Bool.false_ne_true)]
  split
  · rename_i fails
    refine ⟨.inr (.inr ⟨fails.2, .initializationFailed fiber.definition.id fiber.error
      fiber.lastCleanupErrors, ?_⟩), started.unforced, (fun _ _ same => by cases same), started.handled,
      started.slot⟩
    unfold lastAnswer reply
    rw [List.getLast?_concat]
    rfl
  · rename_i fine
    refine ⟨⟨⟨rfl, ?_⟩, ?_⟩, rfl, (fun _ _ same => by cases same), started.handled, started.slot⟩
    · exact started.unforced
    · rcases placed with active | ⟨pending, _⟩ | ⟨failed, _⟩
      · exact .inr active
      · exact .inl pending
      · exact absurd ⟨Bool.false_ne_true, failed⟩ fine

/-- The scopes change, but neither the load nor the slot of a fiber. -/
theorem Started.frame (started : Started tree fiber) {later : ScopeTree ν}
    (poisoned : tree.poisoned = true → later.poisoned = true)
    (pending : ∀ publication begun, fiber.begun = some publication →
      tree.pending[publication]? = some (some begun) →
        later.pending[publication]? = some (some begun))
    (slot : fiber.state = .active → fiber.definition.capability.id ∈
      (tree.topology.level fiber.scope).entries →
        fiber.definition.capability.id ∈ (later.topology.level fiber.scope).entries) :
    Started later fiber where
  placed := started.placed
  unforced := started.unforced
  begun := by
    intro publication dependencies loads_
    exact (started.begun publication dependencies loads_).imp poisoned
      (pending publication _ (begun_of_loads loads_))
  handled := started.handled
  slot := fun active => slot active (started.slot active)

/-- Another fiber changes its slot. -/
theorem Started.beside (started : Started tree fiber) (free : fiber.transition = .free)
    {later : ScopeTree ν} {scope : Nat} {capability : Id}
    (touches : tree.Touches later scope capability)
    (apart : capability ≠ fiber.definition.capability.id) : Started later fiber where
  placed := started.placed
  unforced := started.unforced
  begun := by
    intro publication dependencies loads_
    unfold loads at loads_
    rw [free] at loads_
    cases loads_
  handled := started.handled
  slot := by
    intro active
    have held := started.slot active
    rw [ExtTreeMap.mem_iff_isSome_getElem?] at held ⊢
    rw [touches.slots fiber.scope _ fun same => apart same.2.symm]
    exact held

/-! ### Fibers on their way -/

/-- Whether the dependencies of a fiber do not resolve. -/
def lacks (tree : ScopeTree ν) (fiber : CapabilityFiber ν) : Bool :=
  (fiber.currentBinding tree).isNone

/-- Whether a fiber is at the head of its loop and its dependencies do not resolve. -/
def misses (tree : ScopeTree ν) (fiber : CapabilityFiber ν) : Bool :=
  match fiber.transition with
  | .driving _ _ => fiber.lacks tree
  | _ => false

/-- **A fiber that was never active and missed no dependency**: at rest it is active, or it failed. -/
def Rising (fiber : CapabilityFiber ν) : Prop :=
  match fiber.transition with
  | .free => fiber.state = .active ∨ fiber.state = .failed
  | .driving _ _ => fiber.state = .pending
  | .loading _ _ _ _ | .publishing _ _ _ _ _ => True
  | .cleaning _ _ purpose _ _ => purpose ≠ .reload ∧ purpose ≠ .missing

/-- A new fiber that is started rises. -/
theorem rising_begin (unasked : fiber.disposeRequested = false) (free : fiber.transition = .free)
    (pending : fiber.state = .pending) : Rising (fiber.begin tree .start) := by
  rw [begin_start tree free]
  unfold startDrive
  rw [if_neg (by rw [unasked]; exact Bool.false_ne_true),
    if_neg (by rw [pending]; exact fun same => by cases same.2)]
  exact pending

/-- **A fiber keeps rising** as long as it misses no dependency. -/
theorem Rising.step (rising : Rising fiber) (started : Started tree fiber)
    (unasked : fiber.disposeRequested = false) {event : FiberEvent ν} (works : event.Works)
    (resolves : event = .go → fiber.misses tree = false) : Rising (fiber.step tree event).2 := by
  have again {other : CapabilityFiber ν} (asked : other.disposeRequested = fiber.disposeRequested) :
      Rising (other.again .start false .pending) := by
    unfold CapabilityFiber.again
    rw [if_neg (by rw [asked, unasked]; exact Bool.false_ne_true)]
    exact rfl
  cases works with
  | go =>
    simp only [CapabilityFiber.step]
    split
    · rename_i call force driving
      unfold Rising at rising
      rw [driving] at rising
      have found := resolves rfl
      unfold misses lacks currentBinding at found
      rw [driving] at found
      unfold drive
      cases same : tree.topology.contextResolve fiber.context fiber.definition.capability with
      | error error =>
        rw [same] at found
        cases found
      | ok dependencies =>
        have pending : fiber.state = .pending := rising
        have inactive : fiber.state ≠ .active := by
          rw [pending]
          intro same
          cases same
        have fine : fiber.state ≠ .failed := by
          rw [pending]
          intro same
          cases same
        simp only
        rw [if_neg (not_and_of_not_right _ (not_and_of_not_left _ inactive)),
          if_neg (not_or.mpr ⟨inactive, fine⟩),
          if_neg (by rw [unasked]; exact Bool.false_ne_true)]
        trivial
    · rename_i call force publication dependencies value publishing
      unfold publish
      split
      · exact .inl rfl
      · exact ⟨(fun same => by cases same), (fun same => by cases same)⟩
      · exact ⟨(fun same => by cases same), (fun same => by cases same)⟩
      · exact rising
    · rename_i call force purpose errors cleaning
      unfold Rising at rising
      rw [cleaning] at rising
      have placed := started.placed
      unfold Placed at placed
      rw [cleaning] at placed
      obtain ⟨⟨rfl, rfl⟩, during⟩ := placed
      cases purpose with
      | reload => exact absurd rfl rising.1
      | missing => exact absurd rfl rising.2
      | withdrawal detached => exact during.elim
      | disposal => exact during.elim
      | changed => exact rfl
      | refused error => exact .inr rfl
      | staleValue => exact again rfl
      | staleError => exact again rfl
      | failed reason => exact .inr rfl
    · exact rising
  | returned result =>
    simp only [CapabilityFiber.step]
    split
    · unfold returned
      simp only
      split
      · split
        · exact ⟨(fun same => by cases same), (fun same => by cases same)⟩
        · trivial
      · refine ⟨?_, ?_⟩
        · split
          · intro same
            cases same
          · intro same
            cases same
        · split
          · intro same
            cases same
          · intro same
            cases same
    · exact rising
  | cleaned result =>
    simp only [CapabilityFiber.step]
    split
    · rename_i call force purpose effect rest errors cleaning
      unfold Rising at rising
      rw [cleaning] at rising
      exact rising
    · exact rising
  | register stack label =>
    simp only [CapabilityFiber.step, CapabilityFiber.register]
    split
    · exact rising
    · exact rising

end CapabilityFiber

/-! ### Calls of others -/

namespace ScopeTree

variable {ν : Type} {tree : ScopeTree ν}

theorem pending_complete (tree : ScopeTree ν) (begun : Publication ν) (result : Except Text ν) :
    (tree.complete begun result).2.pending = tree.pending := by
  have locks (expectation : PublishExpectation) (value : ν) :
      (tree.locked begun.scope (tree.publishPreconstructed begun.scope begun.definition expectation
        begun.dependencies value)).2.pending = tree.pending := by
    unfold locked
    split
    · rfl
    · split
      · rfl
      · unfold publishPreconstructed
        split
        · rfl
        · split
          · rfl
          · rfl
  unfold complete
  split
  · rfl
  · split
    · unfold provideValue
      split
      · rfl
      · exact locks _ _
    · exact locks _ _

/-- A call answers one publication at most. -/
theorem pending_step {call : ScopeCall ν} {publication : Nat}
    (other : ∀ result, call ≠ .constructed publication result) {entry : Option (Publication ν)}
    (found : tree.pending[publication]? = some entry) :
    (tree.step call).2.pending[publication]? = some entry := by
  have bound := (List.getElem?_eq_some_iff.mp found).1
  have locks {scope : Nat} {after : ScopeAnswer ν × ScopeTree ν}
      (kept : after.2.pending[publication]? = some entry) :
      (tree.locked scope after).2.pending[publication]? = some entry := by
    unfold locked
    split
    · exact found
    · split
      · exact found
      · exact kept
  have awaits (begun : Publication ν) :
      (tree.await begun).2.pending[publication]? = some entry :=
    (List.getElem?_append_left bound).trans found
  cases call with
  | child scope => exact locks found
  | publish scope definition expectation =>
    refine locks ?_
    split
    · exact found
    · exact awaits _
  | load scope definition context =>
    simp only [step]
    split
    · exact found
    · split
      · exact found
      · exact awaits _
  | constructed position result =>
    have apart : position ≠ publication := by
      rintro rfl
      exact other result rfl
    simp only [step]
    split
    · rw [pending_complete]
      exact (List.getElem?_set_ne apart).trans found
    · exact found
  | withdraw scope capability expected =>
    refine locks ?_
    unfold withdraw
    split
    · exact found
    · exact found
  | teardown scope =>
    refine locks ?_
    unfold teardown
    split
    · exact found
    · exact found
  | release scope =>
    simp only [step]
    split
    · exact found
    · exact found
  | elsewhere =>
    simp only [step]
    split
    · exact found
    · exact found

/-- A poisoned lock stays poisoned. -/
theorem poisoned_step (poisoned : tree.poisoned = true) (call : ScopeCall ν) :
    (tree.step call).2.poisoned = true := by
  have locks {other : ScopeTree ν} (same : other.poisoned = true) {scope : Nat}
      {after : ScopeAnswer ν × ScopeTree ν} : (other.locked scope after).2.poisoned = true := by
    unfold locked
    split
    · exact same
    · exact same
  cases call with
  | child scope => exact locks poisoned
  | publish scope definition expectation => exact locks poisoned
  | load scope definition context =>
    simp only [step]
    split
    · exact poisoned
    · split
      · exact poisoned
      · exact poisoned
  | constructed publication result =>
    simp only [step]
    split
    · unfold complete
      split
      · exact poisoned
      · split
        · unfold provideValue
          split
          · exact poisoned
          · exact locks (by exact poisoned)
        · exact locks (by exact poisoned)
    · exact poisoned
  | withdraw scope capability expected => exact locks poisoned
  | teardown scope => exact locks poisoned
  | release scope =>
    simp only [step]
    split
    · exact poisoned
    · exact poisoned
  | elsewhere =>
    simp only [step]
    split
    · exact poisoned
    · exact poisoned

end ScopeTree

end Kernis
