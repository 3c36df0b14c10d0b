/-
**Contexts over a scope tree.**

A context has a scope and a parent context. Its own lookup walks the contexts and honours isolation;
the lookup of its scope walks the scopes and stops at one that is not open.

* `ContextTree.step` — the constructors of contexts, and every call on the scopes.
* `Chained` — the scopes of a context are its scope and the ancestors of that.
* `contextGet_eq_findSome` — the context lookup finds the nearest local entry, up to the first view
  that isolates the capability.
* `agrees_iff` — where the two lookups agree.
-/

import Kernis.Capability.Sound

namespace Kernis

open Std

variable {ν : Type}

/-! ### Contexts -/

/-- A scope tree and the contexts over it. A context that was dropped leaves an empty place. -/
structure ContextTree (ν : Type) where
  tree : ScopeTree ν
  contexts : List (Option (List ContextState))

/-- What is done to contexts and to their scopes. -/
inductive ContextCall (ν : Type)
  | fromScope (scope : Nat)
  | extend (context : Nat)
  | isolate (context : Nat) (capability : Id)
  | intercept (context : Nat) (plugin : Id) (config : Text)
  | drop (context : Nat)
  | scope (call : ScopeCall ν)

namespace ContextTree

/-- A context that wraps a scope and its ancestors. -/
def chain (topology : Topology ν) (scope : Nat) : List ContextState :=
  (scope :: topology.ancestors scope).map fun scope => ⟨scope, ∅, ∅⟩

/-- The root context over an empty root scope. -/
def root : ContextTree ν := ⟨.root, [some [⟨0, ∅, ∅⟩]]⟩

/-- A context over a child of the scope of another. -/
def derive (contexts : ContextTree ν) (context : Nat) (isolation : BTreeSet Id)
    (intercepts : BTreeMap Id Text) : ContextTree ν :=
  match contexts.contexts[context]? with
  | some (some (current :: parents)) =>
    match contexts.tree.step (.child current.scope) with
    | (.child scope, tree) =>
      ⟨tree, contexts.contexts ++ [some (⟨scope, isolation, intercepts⟩ :: current :: parents)]⟩
    | (_, tree) => { contexts with tree := tree }
  | _ => contexts

/-- Whether a context refers to a scope. -/
def refers (contexts : ContextTree ν) (scope : Nat) : Bool :=
  contexts.contexts.any fun context =>
    context.any fun views => views.any fun view => view.scope = scope

/-- What a call does. A scope that a context refers to is not released. -/
def step (contexts : ContextTree ν) : ContextCall ν → ContextTree ν
  | .fromScope scope =>
    if contexts.tree.topology.live scope then
      { contexts with contexts := contexts.contexts ++ [some (chain contexts.tree.topology scope)] }
    else contexts
  | .extend context => contexts.derive context ∅ ∅
  | .isolate context capability => contexts.derive context ((∅ : BTreeSet Id).insert capability) ∅
  | .intercept context plugin config =>
    contexts.derive context ∅ ((∅ : BTreeMap Id Text).insert plugin config)
  | .drop context => { contexts with contexts := contexts.contexts.set context none }
  | .scope (.release scope) =>
    if contexts.refers scope then contexts
    else { contexts with tree := (contexts.tree.step (.release scope)).2 }
  | .scope call => { contexts with tree := (contexts.tree.step call).2 }

/-- A run of calls. -/
def run (contexts : ContextTree ν) (calls : List (ContextCall ν)) : ContextTree ν :=
  calls.foldl step contexts

end ContextTree

/-! ### Contexts follow the scopes -/

namespace ContextTree

variable {contexts : ContextTree ν}

/-- The views of a context lie over its scope and the ancestors of that, and the scope is live. -/
def Chained (topology : Topology ν) (context : List ContextState) : Prop :=
  ∃ scope, topology.live scope = true ∧
    context.map ContextState.scope = scope :: topology.ancestors scope

/-- **What holds of reachable contexts.** -/
structure Rooted (contexts : ContextTree ν) : Prop where
  sound : contexts.tree.Sound
  chained : ∀ context, some context ∈ contexts.contexts → Chained contexts.tree.topology context

theorem rooted_root : Rooted (root : ContextTree ν) where
  sound := ScopeTree.sound_root
  chained context member := by
    cases List.mem_singleton.mp member
    exact ⟨0, rfl, rfl⟩

theorem Chained.refers {context : List ContextState} {scope : Nat}
    {rest : List Nat} (member : some context ∈ contexts.contexts)
    (views : context.map ContextState.scope = scope :: rest) : contexts.refers scope = true := by
  have inside : scope ∈ context.map ContextState.scope := by
    rw [views]
    exact List.mem_cons_self
  obtain ⟨view, place, same⟩ := List.mem_map.mp inside
  refine List.any_eq_true.mpr ⟨some context, member, ?_⟩
  exact List.any_eq_true.mpr ⟨view, place, decide_eq_true same⟩

/-- A call on the scopes that releases no scope of a context. -/
theorem Rooted.call (rooted : Rooted contexts) {call : ScopeCall ν}
    (held : ∀ scope, contexts.refers scope = true → call ≠ .release scope) :
    Rooted { contexts with tree := (contexts.tree.step call).2 } := by
  refine ⟨rooted.sound.step call, fun context member => ?_⟩
  obtain ⟨scope, live, views⟩ := rooted.chained context member
  obtain ⟨alive, same⟩ := ScopeTree.step_kept live (held scope (Chained.refers member views))
  exact ⟨scope, alive, views.trans (by rw [same])⟩

/-- A context that joins the others. -/
theorem Rooted.push (rooted : Rooted contexts) {context : List ContextState}
    (chained : Chained contexts.tree.topology context) :
    Rooted { contexts with contexts := contexts.contexts ++ [some context] } := by
  refine ⟨rooted.sound, fun other member => ?_⟩
  rcases List.mem_append.mp member with old | new
  · exact rooted.chained other old
  · cases List.mem_singleton.mp new
    exact chained

theorem Rooted.derive (rooted : Rooted contexts) (context : Nat) (isolation : BTreeSet Id)
    (intercepts : BTreeMap Id Text) : Rooted (contexts.derive context isolation intercepts) := by
  unfold ContextTree.derive
  split
  · rename_i current parents found
    have after : Rooted { contexts with tree := (contexts.tree.step (.child current.scope)).2 } :=
      rooted.call fun scope _ same => by cases same
    split
    · rename_i scope tree answered
      rw [answered] at after
      refine after.push ?_
      obtain ⟨own, live, views⟩ := rooted.chained _ (List.mem_of_getElem? found)
      obtain ⟨rfl, above⟩ := List.cons.inj views
      simp only [ScopeTree.step, ScopeTree.locked] at answered
      rw [if_neg (not_not.mpr live)] at answered
      split at answered
      · cases answered
      · cases answered
        refine ⟨contexts.tree.topology.scopes.length, ?_, ?_⟩
        · unfold Topology.live
          rw [Topology.scopes_child_self]
          rfl
        · rw [Topology.ancestors_child_self]
          simp only [List.map_cons, above]
    · rename_i tree _ answered
      rw [answered] at after
      exact after
  · exact rooted

/-- **Every call keeps the contexts over their scopes.** -/
theorem Rooted.step (rooted : Rooted contexts) (call : ContextCall ν) :
    Rooted (contexts.step call) := by
  cases call with
  | fromScope scope =>
    simp only [ContextTree.step]
    by_cases live : contexts.tree.topology.live scope
    · rw [if_pos live]
      refine rooted.push ⟨scope, live, ?_⟩
      unfold chain
      rw [List.map_map]
      exact List.map_id _
    · rw [if_neg live]
      exact rooted
  | extend context => exact rooted.derive context ∅ ∅
  | isolate context capability => exact rooted.derive context _ ∅
  | intercept context plugin config => exact rooted.derive context ∅ _
  | drop context =>
    refine ⟨rooted.sound, fun other member => ?_⟩
    rcases List.mem_or_eq_of_mem_set member with inside | same
    · exact rooted.chained other inside
    · cases same
  | scope call =>
    cases call with
    | release scope =>
      simp only [ContextTree.step]
      split
      · exact rooted
      · rename_i unused
        refine rooted.call fun other used same => unused ?_
        cases same
        exact used
    | _ => exact rooted.call fun _ _ same => by cases same

theorem Rooted.run (rooted : Rooted contexts) (calls : List (ContextCall ν)) :
    Rooted (contexts.run calls) := by
  induction calls generalizing contexts with
  | nil => exact rooted
  | cons call rest ih => exact ih (rooted.step call)

end ContextTree

/-! ### The two lookups -/

namespace Topology

variable {topology : Topology ν}

/-- The views of a context that a lookup may reach: up to the first that isolates the capability. -/
def within (id : Id) : List ContextState → List ContextState
  | [] => []
  | current :: parents => current :: if id ∈ current.isolation then [] else within id parents

theorem within_eq_self {id : Id} {context : List ContextState}
    (free : ∀ view ∈ context, id ∉ view.isolation) : within id context = context := by
  induction context with
  | nil => rfl
  | cons current parents ih =>
    obtain ⟨first, rest⟩ := List.forall_mem_cons.mp free
    unfold within
    rw [if_neg first, ih rest]

theorem within_isolated {id : Id} {below above : List ContextState} {nearest : ContextState}
    (free : ∀ view ∈ below, id ∉ view.isolation) (isolates : id ∈ nearest.isolation) :
    within id (below ++ nearest :: above) = below ++ [nearest] := by
  induction below with
  | nil =>
    show nearest :: (if id ∈ nearest.isolation then [] else within id above) = [nearest]
    rw [if_pos isolates]
  | cons current parents ih =>
    obtain ⟨first, rest⟩ := List.forall_mem_cons.mp free
    show current :: (if id ∈ current.isolation then [] else
      within id (parents ++ nearest :: above)) = current :: (parents ++ [nearest])
    rw [if_neg first, ih rest]

/-- **The context lookup finds the nearest local entry that isolation lets it reach.** -/
theorem contextGet_eq_findSome (vacant : ∀ scope, (topology.level scope).isOpen = false →
      (topology.level scope).entries = ∅) (id : Id) (context : List ContextState) :
    topology.contextGet context id =
      (within id context).findSome? fun view => topology.entry id view.scope := by
  induction context with
  | nil => rfl
  | cons current parents ih =>
    unfold contextGet within
    rw [List.findSome?_cons]
    by_cases inside : id ∈ (topology.level current.scope).entries
    · obtain ⟨handle, held⟩ := Option.isSome_iff_exists.mp
        (ExtTreeMap.mem_iff_isSome_getElem?.mp inside)
      have found : topology.entry id current.scope = some handle := held
      rw [if_pos inside, found]
      exact get_of_entry vacant found
    · have absent : topology.entry id current.scope = none := lookup_none_of_not_mem inside
      rw [if_neg inside, absent]
      by_cases isolates : id ∈ current.isolation
      · rw [if_pos isolates, if_pos isolates]
        rfl
      · rw [if_neg isolates, if_neg isolates]
        exact ih

/-- **What the context lookup promises**: without isolation it is the lookup of the scope, and it
does not pass the nearest view that isolates the capability. -/
def Agrees (topology : Topology ν) (context : List ContextState) (id : Id) : Prop :=
  ((∀ view ∈ context, id ∉ view.isolation) → ∀ scope,
    (context.map ContextState.scope).head? = some scope →
      topology.contextGet context id = (topology.view scope).get id) ∧
  ∀ below nearest above, context = below ++ nearest :: above →
    (∀ view ∈ below, id ∉ view.isolation) → id ∈ nearest.isolation →
      ∀ handle, topology.contextGet context id = some handle →
        ∃ view ∈ below ++ [nearest], (topology.level view.scope).entries[id]? = some handle

end Topology

namespace ContextTree

variable {contexts : ContextTree ν}

/-- Whether the scope of a context is open, or nothing above it publishes the capability. -/
def Settled (topology : Topology ν) (context : List ContextState) (id : Id) : Prop :=
  ∀ scope, (context.map ContextState.scope).head? = some scope →
    (topology.level scope).isOpen = true ∨
      ∀ above ∈ topology.ancestors scope, id ∉ (topology.level above).entries

/-- No isolation: the context walks the same scopes as its scope does. -/
theorem Rooted.contextGet_iff (rooted : Rooted contexts) {context : List ContextState}
    (member : some context ∈ contexts.contexts) {id : Id}
    (free : ∀ view ∈ context, id ∉ view.isolation) {scope : Nat}
    (own : (context.map ContextState.scope).head? = some scope) :
    contexts.tree.topology.contextGet context id = (contexts.tree.topology.view scope).get id ↔
      (contexts.tree.topology.level scope).isOpen = true ∨
        ∀ above ∈ contexts.tree.topology.ancestors scope,
          id ∉ (contexts.tree.topology.level above).entries := by
  obtain ⟨first, live, views⟩ := rooted.chained context member
  rw [views] at own
  cases own
  have walked : contexts.tree.topology.contextGet context id =
      (scope :: contexts.tree.topology.ancestors scope).findSome?
        (contexts.tree.topology.entry id) := by
    rw [Topology.contextGet_eq_findSome rooted.sound.vacant, Topology.within_eq_self free, ← views,
      List.findSome?_map]
    rfl
  rw [walked]
  by_cases isOpen : (contexts.tree.topology.level scope).isOpen
  · refine ⟨fun _ => .inl isOpen, fun _ => ?_⟩
    refine (Topology.lookupLevels_eq_findSome id fun other inside => ?_).symm
    rcases List.mem_cons.mp inside with rfl | above
    · exact isOpen
    · exact rooted.sound.openUp scope live isOpen other above
  · have closed := Bool.eq_false_iff.mpr isOpen
    have nothing : contexts.tree.topology.entry id scope = none := by
      unfold Topology.entry
      rw [rooted.sound.vacant scope closed, ExtTreeMap.getElem?_empty]
    rw [Topology.get_closed id closed, List.findSome?_cons, nothing, closed]
    simp only [Bool.false_eq_true, false_or]
    refine List.findSome?_eq_none_iff.trans (forall₂_congr fun above _ => ?_)
    exact ⟨not_mem_of_lookup_none, lookup_none_of_not_mem⟩

/-- **Where the two lookups agree**: under isolation always; else in a context whose scope is open,
and in one below which nothing is published. -/
theorem agrees_iff (calls : List (ContextCall ν)) (context : List ContextState)
    (member : some context ∈ ((root : ContextTree ν).run calls).contexts) (id : Id) :
    ((root : ContextTree ν).run calls).tree.topology.Agrees context id ↔
      (∃ view ∈ context, id ∈ view.isolation) ∨
        Settled ((root : ContextTree ν).run calls).tree.topology context id := by
  have rooted := rooted_root.run calls
  generalize (root : ContextTree ν).run calls = contexts at rooted member ⊢
  have isolated : ∀ below nearest above, context = below ++ nearest :: above →
      (∀ view ∈ below, id ∉ view.isolation) → id ∈ nearest.isolation →
      ∀ handle, contexts.tree.topology.contextGet context id = some handle →
        ∃ view ∈ below ++ [nearest],
          (contexts.tree.topology.level view.scope).entries[id]? = some handle := by
    rintro below nearest above rfl free isolates handle found
    rw [Topology.contextGet_eq_findSome rooted.sound.vacant,
      Topology.within_isolated free isolates] at found
    exact List.exists_of_findSome?_eq_some found
  by_cases free : ∀ view ∈ context, id ∉ view.isolation
  · have none : ¬ ∃ view ∈ context, id ∈ view.isolation := fun ⟨view, inside, isolates⟩ =>
      free view inside isolates
    constructor
    · rintro ⟨same, _⟩
      exact .inr fun scope own => (rooted.contextGet_iff member free own).mp (same free scope own)
    · rintro (some | settled)
      · exact absurd some none
      · exact ⟨fun _ scope own => (rooted.contextGet_iff member free own).mpr (settled scope own),
          isolated⟩
  · have some : ∃ view ∈ context, id ∈ view.isolation := by
      by_contra none
      exact free fun view inside isolates => none ⟨view, inside, isolates⟩
    exact ⟨fun _ => .inl some, fun _ => ⟨fun all => absurd all free, isolated⟩⟩

/-- A torn-down context below an open root that publishes a capability. -/
def forgotten : List (ContextCall Unit) :=
  [.extend 0, .scope (.publish 0 (sampleDefinition sampleA []) .new),
    .scope (.constructed 0 (.ok ())), .scope (.teardown 1)]

theorem forgotten_member :
    some [⟨1, ∅, ∅⟩, ⟨0, ∅, ∅⟩] ∈ ((root : ContextTree Unit).run forgotten).contexts :=
  List.mem_of_getElem? (show _[1]? = _ from rfl)

/-- The lookups of the torn-down context agree on what nobody publishes, and not on what the root
does. -/
theorem agrees_iff_forgotten :
    ((root : ContextTree Unit).run forgotten).tree.topology.Agrees
        [⟨1, ∅, ∅⟩, ⟨0, ∅, ∅⟩] sampleB ∧
      ¬ ((root : ContextTree Unit).run forgotten).tree.topology.Agrees
        [⟨1, ∅, ∅⟩, ⟨0, ∅, ∅⟩] sampleA := by
  constructor
  · refine (agrees_iff forgotten _ forgotten_member sampleB).mpr (.inr ?_)
    rintro scope ⟨⟩
    exact .inr (by decide +kernel)
  · intro agrees
    rcases (agrees_iff forgotten _ forgotten_member sampleA).mp agrees with isolated | settled
    · exact absurd isolated (by decide)
    · have settles : (((root : ContextTree Unit).run forgotten).tree.topology.level 1).isOpen = true ∨
          ∀ above ∈ ((root : ContextTree Unit).run forgotten).tree.topology.ancestors 1,
            sampleA ∉ (((root : ContextTree Unit).run forgotten).tree.topology.level above).entries :=
        settled 1 rfl
      exact absurd settles (by decide +kernel)

/-- **The context of a torn-down scope still finds what its ancestors publish.** -/
theorem forgotten_disagrees : ¬ ∀ (calls : List (ContextCall Unit)) (context : List ContextState),
    some context ∈ ((root : ContextTree Unit).run calls).contexts → ∀ id,
      ((root : ContextTree Unit).run calls).tree.topology.Agrees context id := by
  intro all
  have same := (all forgotten _ forgotten_member sampleA).1 (by simp) 1 rfl
  have differ : (((root : ContextTree Unit).run forgotten).tree.topology.contextGet
      [⟨1, ∅, ∅⟩, ⟨0, ∅, ∅⟩] sampleA).isSome = true ∧
      ((((root : ContextTree Unit).run forgotten).tree.topology.view 1).get sampleA).isSome =
        false := by decide +kernel
  rw [same, differ.2] at differ
  cases differ.1

end ContextTree

end Kernis
