/-
**What holds of a coordinator.**

Whatever happens to the contexts and to the fibers, and whichever future is dropped, no two fibers hold one
publication, and a fiber is bound to earlier publications than its own.

* `ReactiveRuntime.Coordinated` — the invariant; `Coordinated.step`, `Coordinated.run`.
* `rank` — the identity of what a fiber publishes; `Coordinated.rank_lt`.
-/

import Kernis.Capability.Handled
import Kernis.Capability.Reactive

namespace Kernis

open Std

variable {ν : Type}

/-! ### Contexts -/

namespace ContextTree

variable {contexts : ContextTree ν}

/-- The scope of a context is live. -/
theorem Chained.live {topology : Topology ν} {context : List ContextState}
    (chained : Chained topology context) :
    topology.live ((context.head?.map ContextState.scope).getD 0) = true := by
  obtain ⟨scope, live, views⟩ := chained
  cases context with
  | nil => cases views
  | cons view parents =>
    rw [List.map_cons, List.cons.injEq] at views
    show topology.live view.scope = true
    rw [views.1]
    exact live

/-- A call on the contexts is a call on the scopes at most. -/
theorem step_tree (contexts : ContextTree ν) (call : ContextCall ν) :
    (contexts.step call).tree = contexts.tree ∨ ∃ inner, (contexts.step call).tree =
      (contexts.tree.step inner).2 ∧ ∀ publication result,
        inner = .constructed publication result → call = .scope (.constructed publication result) := by
  have derives (context : Nat) (isolation : BTreeSet Id) (intercepts : BTreeMap Id Text) :
      (contexts.derive context isolation intercepts).tree = contexts.tree ∨ ∃ inner,
        (contexts.derive context isolation intercepts).tree = (contexts.tree.step inner).2 ∧
          ∀ publication result, inner ≠ .constructed publication result := by
    unfold derive
    split
    · rename_i current parents found
      refine .inr ⟨.child current.scope, ?_, fun _ _ same => by cases same⟩
      split
      · rename_i answered
        rw [answered]
      · rename_i answered
        rw [answered]
    · exact .inl rfl
  cases call with
  | fromScope scope =>
    simp only [step]
    split
    · exact .inl rfl
    · exact .inl rfl
  | extend context =>
    rcases derives context ∅ ∅ with same | ⟨inner, same, apart⟩
    · exact .inl same
    · exact .inr ⟨inner, same, fun _ _ equal => absurd equal (apart _ _)⟩
  | isolate context capability =>
    rcases derives context ((∅ : BTreeSet Id).insert capability) ∅ with same | ⟨inner, same, apart⟩
    · exact .inl same
    · exact .inr ⟨inner, same, fun _ _ equal => absurd equal (apart _ _)⟩
  | intercept context plugin config =>
    rcases derives context ∅ ((∅ : BTreeMap Id Text).insert plugin config) with
      same | ⟨inner, same, apart⟩
    · exact .inl same
    · exact .inr ⟨inner, same, fun _ _ equal => absurd equal (apart _ _)⟩
  | drop context => exact .inl rfl
  | scope call =>
    cases call with
    | release scope =>
      simp only [step]
      split
      · exact .inl rfl
      · exact .inr ⟨_, rfl, fun _ _ same => by cases same⟩
    | _ => exact .inr ⟨_, rfl, fun _ _ same => by rw [same]⟩

/-- A context that is not dropped stays. -/
theorem step_member {views : List ContextState} (member : some views ∈ contexts.contexts)
    {call : ContextCall ν} (kept : ∀ context, call = .drop context →
      contexts.contexts[context]? ≠ some (some views)) :
    some views ∈ (contexts.step call).contexts := by
  have derives (context : Nat) (isolation : BTreeSet Id) (intercepts : BTreeMap Id Text) :
      some views ∈ (contexts.derive context isolation intercepts).contexts := by
    unfold derive
    split
    · split
      · exact List.mem_append_left _ member
      · exact member
    · exact member
  cases call with
  | fromScope scope =>
    simp only [step]
    split
    · exact List.mem_append_left _ member
    · exact member
  | extend context => exact derives context _ _
  | isolate context capability => exact derives context _ _
  | intercept context plugin config => exact derives context _ _
  | drop context =>
    obtain ⟨index, found⟩ := List.mem_iff_getElem?.mp member
    have other : context ≠ index := by
      rintro rfl
      exact kept context rfl found
    refine List.mem_iff_getElem?.mpr ⟨index, ?_⟩
    exact (List.getElem?_set_ne other).trans found
  | scope call =>
    cases call with
    | release scope =>
      simp only [step]
      split
      · exact member
      · exact member
    | _ => exact member

end ContextTree

namespace ReactiveRuntime

open CapabilityFiber

variable {runtime : ReactiveRuntime ν}

/-! ### The invariant -/

/-- **What holds of a coordinator.** -/
structure Coordinated (runtime : ReactiveRuntime ν) : Prop where
  rooted : runtime.contexts.Rooted
  own : some runtime.context ∈ runtime.contexts.contexts
  placed : ∀ fiber ∈ runtime.fibers, some fiber.context ∈ runtime.contexts.contexts
  bound : ∀ fiber ∈ runtime.fibers, Bound runtime.tree fiber
  apart : ∀ (id other : Nat) (fiber rival : CapabilityFiber ν) (publication : Nat)
    (dependencies others : ResolvedDependencies ν), runtime.fibers[id]? = some fiber →
    runtime.fibers[other]? = some rival → fiber.loads = some (publication, dependencies) →
    rival.loads = some (publication, others) → id = other
  exact : ∀ (id other : Nat) (fiber rival : CapabilityFiber ν) (handle entry : CapabilityHandle ν),
    runtime.fibers[id]? = some fiber → runtime.fibers[other]? = some rival →
    fiber.handle = some handle → rival.handle = some entry → handle.entryId = entry.entryId → id = other
  listed : ∀ id ∈ runtime.watched, id < runtime.fibers.length

theorem coordinated_new {contexts : ContextTree ν} (rooted : contexts.Rooted)
    {context : List ContextState} (member : some context ∈ contexts.contexts) :
    (new contexts context).Coordinated where
  rooted := rooted
  own := member
  placed _ member := absurd member List.not_mem_nil
  bound _ member := absurd member List.not_mem_nil
  apart _ _ _ _ _ _ _ found := by cases found
  exact _ _ _ _ _ _ found := by cases found
  listed _ member := absurd member ExtTreeSet.not_mem_empty

/-- The scope of a fiber is live. -/
theorem Coordinated.live (coordinated : runtime.Coordinated) {fiber : CapabilityFiber ν}
    (member : fiber ∈ runtime.fibers) : runtime.tree.topology.live fiber.scope = true :=
  (coordinated.rooted.chained _ (coordinated.placed fiber member)).live

/-- A context that the coordinator or a fiber refers to is not dropped. -/
theorem refers_of_scopes {context : Nat} {views : List ContextState}
    (found : runtime.contexts.contexts[context]? = some (some views))
    (member : views ∈ runtime.context :: runtime.fibers.map CapabilityFiber.context) :
    runtime.refers context = true := by
  unfold refers
  rw [found]
  exact List.any_eq_true.mpr ⟨views, member, decide_eq_true rfl⟩

/-- **A call on the contexts.** -/
theorem Coordinated.call (coordinated : runtime.Coordinated) {call : ContextCall ν}
    (foreign : runtime.foreign call = true) :
    Coordinated { runtime with contexts := runtime.contexts.step call } := by
  have stays {views : List ContextState} (known : some views ∈ runtime.contexts.contexts)
      (member : views ∈ runtime.context :: runtime.fibers.map CapabilityFiber.context) :
      some views ∈ (runtime.contexts.step call).contexts := by
    refine ContextTree.step_member known fun context same found => ?_
    subst same
    have unused : (!runtime.refers context) = true := foreign
    rw [refers_of_scopes found member] at unused
    cases unused
  refine ⟨coordinated.rooted.step call, stays coordinated.own List.mem_cons_self, fun fiber member => ?_,
    fun fiber member => ?_, coordinated.apart, coordinated.exact, coordinated.listed⟩
  · exact stays (coordinated.placed fiber member)
      (List.mem_cons_of_mem _ (List.mem_map_of_mem member))
  · have bound := coordinated.bound fiber member
    show Bound (runtime.contexts.step call).tree fiber
    rcases runtime.contexts.step_tree call with same | ⟨inner, same, completes⟩
    · rw [same]
      exact bound
    · have later : Bound (runtime.tree.step inner).2 fiber := by
        refine bound.call coordinated.rooted.sound fun publication dependencies loads result equal => ?_
        have completed := completes publication result equal
        subst completed
        have others := List.all_eq_true.mp foreign fiber member
        exact of_decide_eq_true others (begun_of_loads loads)
      rw [same]
      exact later

/-- **A new fiber.** -/
theorem Coordinated.create (coordinated : runtime.Coordinated) (definition : PluginDefinition)
    {context : List ContextState} (member : some context ∈ runtime.contexts.contexts) (config : Text) :
    Coordinated { runtime with fibers := runtime.fibers ++ [.new definition context config] } := by
  have found {id : Nat} {fiber : CapabilityFiber ν}
      (place : (runtime.fibers ++ [.new definition context config])[id]? = some fiber) :
      runtime.fibers[id]? = some fiber ∨ fiber = .new definition context config := by
    rcases Nat.lt_or_ge id runtime.fibers.length with inside | outside
    · rw [List.getElem?_append_left inside] at place
      exact .inl place
    · rw [List.getElem?_append_right outside] at place
      exact .inr (List.mem_singleton.mp (List.mem_of_getElem? place))
  refine ⟨coordinated.rooted, coordinated.own, fun fiber inside => ?_, fun fiber inside => ?_, ?_, ?_, ?_⟩
  · rcases List.mem_append.mp inside with before | now
    · exact coordinated.placed fiber before
    · cases List.mem_singleton.mp now
      exact member
  · rcases List.mem_append.mp inside with before | now
    · exact coordinated.bound fiber before
    · cases List.mem_singleton.mp now
      exact bound_new _ definition context config
  · intro id other fiber rival publication dependencies others first second loads loading
    rcases found first with one | rfl
    · rcases found second with two | rfl
      · exact coordinated.apart _ _ _ _ _ _ _ one two loads loading
      · cases loading
    · cases loads
  · intro id other fiber rival handle entry first second held holds same
    rcases found first with one | rfl
    · rcases found second with two | rfl
      · exact coordinated.exact _ _ _ _ _ _ one two held holds same
      · cases holds
    · cases held
  · intro id inside
    rw [List.length_append]
    exact Nat.lt_add_right _ (coordinated.listed id inside)

/-- A fiber after an event of one: that one, or another as it was. -/
theorem place_cases {id other : Nat} {after : ScopeTree ν × CapabilityFiber ν} {rival : CapabilityFiber ν}
    (there : (runtime.place id after).fibers[other]? = some rival) :
    (id = other ∧ rival = after.2) ∨ (id ≠ other ∧ runtime.fibers[other]? = some rival) := by
  by_cases same : id = other
  · subst same
    have inside := (List.getElem?_eq_some_iff.mp there).1
    rw [place, List.length_set] at inside
    rw [place, List.getElem?_set_self inside] at there
    exact .inl ⟨rfl, (Option.some.inj there).symm⟩
  · rw [place, List.getElem?_set_ne same] at there
    exact .inr ⟨same, there⟩

section Event

variable {id other : Nat} {fiber rival : CapabilityFiber ν} {after : ScopeTree ν × CapabilityFiber ν}

/-- An event of a fiber leaves the others bound: it completes no publication of theirs. -/
theorem Coordinated.rests (coordinated : runtime.Coordinated) (found : runtime.fibers[id]? = some fiber)
    (handles : Handles runtime.tree fiber after) (different : id ≠ other)
    (there : runtime.fibers[other]? = some rival) : Bound after.1 rival := by
  have bound := coordinated.bound rival (List.mem_of_getElem? there)
  rcases handles.calls with same | ⟨call, calls, same⟩
  · rw [same]
    exact bound
  · rw [same]
    refine bound.call coordinated.rooted.sound fun publication dependencies loads result equal => ?_
    subst equal
    cases calls with
    | constructed _ own => exact different (coordinated.apart _ _ _ _ _ _ _ found there own loads)

/-- What a fiber has begun after an event is no other's. -/
theorem Coordinated.begins (coordinated : runtime.Coordinated) (unpoisoned : runtime.tree.poisoned = false)
    (found : runtime.fibers[id]? = some fiber) (handles : Handles runtime.tree fiber after)
    (different : id ≠ other) (there : runtime.fibers[other]? = some rival) {publication : Nat}
    {dependencies others : ResolvedDependencies ν} (own : after.2.loads = some (publication, dependencies)) :
    rival.loads ≠ some (publication, others) := by
  intro loads
  rcases handles.loads with none | same | ⟨resolved, begun⟩
  · rw [none] at own
    cases own
  · exact different (coordinated.apart _ _ _ _ _ _ _ found there (same ▸ own) loads)
  · rw [begun] at own
    cases own
    have waits := ((coordinated.bound rival (List.mem_of_getElem? there)).begun _ others loads).resolve_left
      (by rw [unpoisoned]; exact Bool.false_ne_true)
    exact Nat.lt_irrefl _ (List.getElem?_eq_some_iff.mp waits).1

/-- What a fiber publishes after an event is no other's. -/
theorem Coordinated.publishes (coordinated : runtime.Coordinated)
    (unpoisoned : runtime.tree.poisoned = false) (found : runtime.fibers[id]? = some fiber)
    (handles : Handles runtime.tree fiber after) (different : id ≠ other)
    (there : runtime.fibers[other]? = some rival) {handle entry : CapabilityHandle ν}
    (own : after.2.handle = some handle) (held : rival.handle = some entry) :
    handle.entryId ≠ entry.entryId := by
  intro same
  have member := List.mem_of_getElem? found
  have bound := coordinated.bound fiber member
  rcases bound.publishes (coordinated.live member) unpoisoned handles with
    kept | none | ⟨published, now, next⟩
  · exact different (coordinated.exact _ _ _ _ _ _ found there (kept ▸ own) held same)
  · rw [none] at own
    cases own
  · rw [now] at own
    cases own
    have known := ((coordinated.bound rival (List.mem_of_getElem? there)).known entry held).1
    exact Nat.ne_of_lt (coordinated.rooted.sound.bounded _ known) (same.symm.trans next)

/-- **An event of a fiber.** -/
theorem Coordinated.handles (coordinated : runtime.Coordinated)
    (unpoisoned : runtime.tree.poisoned = false) (found : runtime.fibers[id]? = some fiber)
    (handles : Handles runtime.tree fiber after) : (runtime.place id after).Coordinated := by
  have member := List.mem_of_getElem? found
  refine ⟨?_, coordinated.own, fun rival there => ?_, fun rival there => ?_, ?_, ?_, fun other known => ?_⟩
  · show ContextTree.Rooted { runtime.contexts with tree := after.1 }
    rcases handles.calls with same | ⟨call, calls, same⟩
    · rw [same]
      exact coordinated.rooted
    · rw [same]
      refine coordinated.rooted.call fun scope _ equal => ?_
      subst equal
      cases calls
  · obtain ⟨other, place⟩ := List.mem_iff_getElem?.mp there
    rcases place_cases place with ⟨_, rfl⟩ | ⟨_, before⟩
    · rw [handles.kin.context]
      exact coordinated.placed fiber member
    · exact coordinated.placed rival (List.mem_of_getElem? before)
  · obtain ⟨other, place⟩ := List.mem_iff_getElem?.mp there
    rcases place_cases place with ⟨_, rfl⟩ | ⟨different, before⟩
    · exact (coordinated.bound fiber member).handles coordinated.rooted.sound (coordinated.live member)
        unpoisoned handles
    · exact coordinated.rests found handles different before
  · intro first second one two publication dependencies others place another own loads
    rcases place_cases place with ⟨rfl, rfl⟩ | ⟨apart, before⟩
    · rcases place_cases another with ⟨rfl, _⟩ | ⟨different, there⟩
      · rfl
      · exact absurd loads (coordinated.begins unpoisoned found handles different there own)
    · rcases place_cases another with ⟨rfl, rfl⟩ | ⟨_, there⟩
      · exact absurd own (coordinated.begins unpoisoned found handles apart before loads)
      · exact coordinated.apart _ _ _ _ _ _ _ before there own loads
  · intro first second one two handle entry place another own held same
    rcases place_cases place with ⟨rfl, rfl⟩ | ⟨apart, before⟩
    · rcases place_cases another with ⟨rfl, _⟩ | ⟨different, there⟩
      · rfl
      · exact absurd same (coordinated.publishes unpoisoned found handles different there own held)
    · rcases place_cases another with ⟨rfl, rfl⟩ | ⟨_, there⟩
      · exact absurd same.symm (coordinated.publishes unpoisoned found handles apart before held own)
      · exact coordinated.exact _ _ _ _ _ _ before there own held same
  · rw [place, List.length_set]
    exact coordinated.listed other known

end Event

/-- **Whatever happens keeps the invariant.** -/
theorem Coordinated.step (coordinated : runtime.Coordinated) (event : ReactiveEvent ν) :
    (runtime.step event).Coordinated := by
  unfold ReactiveRuntime.step
  split
  · exact coordinated
  · rename_i unpoisoned
    cases event with
    | context call =>
      simp only
      split
      · exact coordinated.call ‹_›
      · exact coordinated
    | create definition context config =>
      simp only
      split
      · rename_i views _ found _
        exact coordinated.create definition (List.mem_of_getElem? found) config
      · exact coordinated
    | watch id =>
      simp only
      split
      · rename_i inside
        refine ⟨coordinated.rooted, coordinated.own, coordinated.placed, coordinated.bound,
          coordinated.apart, coordinated.exact, fun other member => ?_⟩
        rcases ExtTreeSet.mem_insert.mp member with same | before
        · cases LawfulEqOrd.eq_of_compare same
          exact inside
        · exact coordinated.listed other before
      · exact coordinated
    | drop id =>
      refine ⟨coordinated.rooted, coordinated.own, coordinated.placed, coordinated.bound,
        coordinated.apart, coordinated.exact, fun other member => ?_⟩
      exact coordinated.listed other (ExtTreeSet.mem_of_mem_erase member)
    | fiber id event =>
      simp only
      split
      · rename_i fiber found
        exact coordinated.handles (Bool.eq_false_iff.mpr unpoisoned) found (handles_step _ fiber event)
      · exact coordinated

theorem Coordinated.run (coordinated : runtime.Coordinated) (events : List (ReactiveEvent ν)) :
    (runtime.run events).Coordinated := by
  induction events generalizing runtime with
  | nil => exact coordinated
  | cons event rest ih => exact ih (coordinated.step event)

/-! ### Earlier publications -/

/-- The identity of what a fiber publishes; a fiber that publishes nothing comes after all that do. -/
def rank (runtime : ReactiveRuntime ν) (id : Nat) : Nat :=
  match runtime.handle id with
  | some handle => handle.entryId
  | none => runtime.tree.nextEntryId

/-- A fiber is bound to a provider. -/
def Pins (runtime : ReactiveRuntime ν) (id : Nat) (provider : ProviderIdentity) : Prop :=
  ∃ binding, runtime.dependencyBinding id = some binding ∧ provider ∈ binding

/-- A fiber publishes a provider. -/
def Publishes (runtime : ReactiveRuntime ν) (id : Nat) (provider : ProviderIdentity) : Prop :=
  ∃ handle, runtime.handle id = some handle ∧ handle.provider = provider

/-- A fiber is bound to what another publishes. -/
def DependsOn (runtime : ReactiveRuntime ν) (id other : Nat) : Prop :=
  ∃ provider, runtime.Publishes other provider ∧ runtime.Pins id provider

/-- **A fiber is bound to earlier publications than its own.** -/
theorem Coordinated.rank_lt (coordinated : runtime.Coordinated) {id other : Nat}
    (depends : runtime.DependsOn id other) : runtime.rank other < runtime.rank id := by
  obtain ⟨provider, ⟨entry, published, rfl⟩, binding, bound_, pinned⟩ := depends
  obtain ⟨rival, there, held⟩ := Option.bind_eq_some_iff.mp published
  obtain ⟨fiber, found, binds⟩ := Option.bind_eq_some_iff.mp bound_
  have bound := coordinated.bound fiber (List.mem_of_getElem? found)
  have known := ((coordinated.bound rival (List.mem_of_getElem? there)).known entry held).1
  have other : runtime.rank other = entry.entryId := by
    unfold rank
    rw [published]
  have own : runtime.handle id = fiber.handle := by
    unfold handle
    rw [found]
    rfl
  unfold rank at other ⊢
  rw [other, own]
  cases holds : fiber.handle with
  | none => exact coordinated.rooted.sound.bounded _ known
  | some handle =>
    obtain ⟨there, epoch⟩ := bound.known handle holds
    unfold CapabilityFiber.dependencyBinding at binds
    rw [epoch] at binds
    cases binds
    obtain ⟨dependency, member, same⟩ := List.mem_map.mp pinned
    have older := coordinated.rooted.sound.older _ there dependency member
    have equal : dependency.2.entryId = entry.entryId := congrArg (fun pin => pin.2.2) same
    exact equal ▸ older

/-- A provider has one publisher. -/
theorem Coordinated.publisher (coordinated : runtime.Coordinated) {id other : Nat}
    {provider : ProviderIdentity} (one : runtime.Publishes id provider)
    (two : runtime.Publishes other provider) : id = other := by
  obtain ⟨handle, published, rfl⟩ := one
  obtain ⟨entry, also, same⟩ := two
  obtain ⟨fiber, found, held⟩ := Option.bind_eq_some_iff.mp published
  obtain ⟨rival, there, holds⟩ := Option.bind_eq_some_iff.mp also
  exact coordinated.exact _ _ _ _ _ _ found there held holds
    (congrArg (fun pin => pin.2.2) same).symm

end ReactiveRuntime

end Kernis
