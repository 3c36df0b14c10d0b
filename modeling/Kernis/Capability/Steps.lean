/-
**What a call can do to a scope tree.**

* `Grounded` — the ancestors of a scope are its parent and the parent's ancestors, older than itself;
  what a live scope descends from is live. `mem_liveDescendants`: the traversals visit exactly the
  live descendants.
* `Evolves` — the elementary changes of a tree, each with what the code has checked by then.
* `step_reaches` — every call is a sequence of elementary changes.
-/

import Mathlib.Logic.Relation
import Kernis.Capability.Tree

namespace Kernis

open Std

namespace Topology

variable {ν : Type} {topology : Topology ν}

/-! ### Frames -/

theorem scopes_modify (scope other : Nat) (change : ScopeState ν → ScopeState ν) :
    (topology.modify scope change).scopes[other]? =
      (topology.scopes[other]?).map fun state => if scope = other then change state else state :=
  List.getElem?_modify _ _ _ _

theorem scopes_modify_ne {scope other : Nat} (change : ScopeState ν → ScopeState ν)
    (different : scope ≠ other) : (topology.modify scope change).scopes[other]? = topology.scopes[other]? := by
  rw [scopes_modify]
  simp only [if_neg different, Option.map_id']

theorem level_modify_ne {scope other : Nat} (change : ScopeState ν → ScopeState ν)
    (different : scope ≠ other) : (topology.modify scope change).level other = topology.level other := by
  unfold level
  rw [scopes_modify_ne change different]

/-- A change that leaves the ancestors alone. -/
theorem ancestors_modify {change : ScopeState ν → ScopeState ν}
    (keeps : ∀ state, (change state).ancestors = state.ancestors) (scope other : Nat) :
    (topology.modify scope change).ancestors other = topology.ancestors other := by
  unfold ancestors
  rw [scopes_modify, Option.map_map]
  congr 2
  funext state
  show (if scope = other then change state else state).ancestors = state.ancestors
  split
  · exact keeps state
  · rfl

/-- A change that leaves liveness alone. -/
theorem live_modify {change : ScopeState ν → ScopeState ν}
    (keeps : ∀ state, (change state).live = state.live) (scope other : Nat) :
    (topology.modify scope change).live other = topology.live other := by
  unfold live
  rw [scopes_modify, Option.any_map]
  congr 1
  funext state
  show (if scope = other then change state else state).live = state.live
  split
  · exact keeps state
  · rfl

/-- Two topologies with the same scopes and the same living ones. -/
structure SameShape (topology next : Topology ν) : Prop where
  ancestors : ∀ scope, next.ancestors scope = topology.ancestors scope
  live : ∀ scope, next.live scope = topology.live scope

theorem sameShape_modify {change : ScopeState ν → ScopeState ν}
    (path : ∀ state, (change state).ancestors = state.ancestors)
    (alive : ∀ state, (change state).live = state.live) (scope : Nat) :
    topology.SameShape (topology.modify scope change) :=
  ⟨ancestors_modify path scope, live_modify alive scope⟩

theorem sameShape_install (scope : Nat) (handle : CapabilityHandle ν) :
    topology.SameShape (topology.install scope handle) := by
  apply sameShape_modify
  · exact fun _ => rfl
  · exact fun _ => rfl

theorem sameShape_remove (scope : Nat) (capability : Id) :
    topology.SameShape (topology.remove scope capability) := by
  apply sameShape_modify
  · exact fun _ => rfl
  · exact fun _ => rfl

theorem sameShape_empty (scope : Nat) (lifecycle : Lifecycle) :
    topology.SameShape (topology.empty scope lifecycle) := by
  apply sameShape_modify
  · exact fun _ => rfl
  · exact fun _ => rfl

/-- A scope that does not read the changed one reads what it read. -/
theorem view_modify {change : ScopeState ν → ScopeState ν}
    (keeps : ∀ state, (change state).ancestors = state.ancestors) {scope other : Nat}
    (apart : scope ∉ other :: topology.ancestors other) :
    (topology.modify scope change).view other = topology.view other := by
  have different (member : Nat) (inside : member ∈ other :: topology.ancestors other) :
      scope ≠ member := by
    rintro rfl
    exact apart inside
  unfold view
  rw [ancestors_modify keeps, level_modify_ne _ (different other List.mem_cons_self)]
  congr 1
  exact List.map_congr_left fun member inside =>
    level_modify_ne _ (different member (List.mem_cons_of_mem _ inside))

theorem level_of_scope {scope : Nat} {state : ScopeState ν}
    (found : topology.scopes[scope]? = some state) :
    topology.level scope = ⟨state.lifecycle = .opened, state.entries⟩ := by
  unfold level
  rw [found]

theorem scope_of_live {scope : Nat} (live : topology.live scope) :
    ∃ state, topology.scopes[scope]? = some state ∧ state.live = true := by
  unfold Topology.live at live
  cases found : topology.scopes[scope]? with
  | none =>
    rw [found] at live
    cases live
  | some state =>
    rw [found] at live
    exact ⟨state, rfl, live⟩

theorem lt_of_live {scope : Nat} (live : topology.live scope) : scope < topology.scopes.length := by
  obtain ⟨state, found, _⟩ := scope_of_live live
  exact (List.getElem?_eq_some_iff.mp found).1

/-! ### Ancestors and descendants -/

/-- **The shape of a tree.** -/
structure Grounded (topology : Topology ν) : Prop where
  parent : ∀ scope, topology.ancestors scope = [] ∨
    ∃ above < scope, topology.ancestors scope = above :: topology.ancestors above
  alive : ∀ scope, topology.live scope → ∀ above ∈ topology.ancestors scope, topology.live above

/-- What an ancestor descends from, its descendant does too. -/
theorem Grounded.suffix (grounded : Grounded topology) {scope above : Nat}
    (member : above ∈ topology.ancestors scope) :
    above < scope ∧ ∃ front, topology.ancestors scope = front ++ above :: topology.ancestors above := by
  induction scope using Nat.strongRecOn with
  | ind scope ih =>
    rcases grounded.parent scope with none | ⟨parent, older, path⟩
    · rw [none] at member
      cases member
    · rw [path] at member ⊢
      rcases List.mem_cons.mp member with rfl | further
      · exact ⟨older, [], rfl⟩
      · obtain ⟨before, front, same⟩ := ih parent older further
        exact ⟨by omega, parent :: front, by rw [same]; rfl⟩

theorem Grounded.trans (grounded : Grounded topology) {scope above top : Nat}
    (member : above ∈ topology.ancestors scope) (further : top ∈ topology.ancestors above) :
    top ∈ topology.ancestors scope := by
  obtain ⟨_, front, path⟩ := grounded.suffix member
  rw [path]
  exact List.mem_append_right front (List.mem_cons_of_mem _ further)

/-- The child of a scope on the way to its descendant. -/
theorem Grounded.below (grounded : Grounded topology) {scope above : Nat}
    (member : above ∈ topology.ancestors scope) :
    ∃ child, (child = scope ∨ child ∈ topology.ancestors scope) ∧
      (topology.ancestors child).head? = some above := by
  induction scope using Nat.strongRecOn with
  | ind scope ih =>
    rcases grounded.parent scope with none | ⟨parent, older, path⟩
    · rw [none] at member
      cases member
    · rw [path] at member
      rcases List.mem_cons.mp member with rfl | further
      · exact ⟨scope, .inl rfl, by rw [path]; rfl⟩
      · obtain ⟨child, place, first⟩ := ih parent older further
        refine ⟨child, .inr ?_, first⟩
        rw [path]
        rcases place with rfl | inside
        · exact List.mem_cons_self
        · exact List.mem_cons_of_mem _ inside

theorem mem_children {scope child : Nat} :
    child ∈ topology.children scope ↔
      topology.live child = true ∧ (topology.ancestors child).head? = some scope := by
  unfold children
  rw [List.mem_filter, List.mem_range, Bool.and_eq_true, decide_eq_true_iff]
  exact ⟨And.right, fun both => ⟨lt_of_live both.1, both⟩⟩

theorem mem_of_head {list : List Nat} {first : Nat} (head : list.head? = some first) :
    first ∈ list :=
  List.mem_of_mem_head? head

/-- What the traversals visit. -/
def Below (topology : Topology ν) (scope other : Nat) : Prop :=
  topology.live other = true ∧ scope ∈ topology.ancestors other

theorem Grounded.descendant (grounded : Grounded topology) {depth scope other : Nat}
    (member : other ∈ topology.descendantsWithin depth scope) : topology.Below scope other := by
  induction depth generalizing scope with
  | zero => cases member
  | succ depth ih =>
    obtain ⟨child, inside, place⟩ := List.mem_flatMap.mp member
    obtain ⟨live, first⟩ := mem_children.mp inside
    rcases List.mem_cons.mp place with rfl | further
    · exact ⟨live, mem_of_head first⟩
    · obtain ⟨alive, above⟩ := ih further
      exact ⟨alive, grounded.trans above (mem_of_head first)⟩

/-- A descendant is found at any depth that bounds its distance. -/
theorem Grounded.visited (grounded : Grounded topology) {depth scope other : Nat}
    (below : topology.Below scope other) (near : other ≤ scope + depth) :
    other ∈ topology.descendantsWithin depth scope := by
  induction depth generalizing scope with
  | zero =>
    have := (grounded.suffix below.2).1
    omega
  | succ depth ih =>
    obtain ⟨child, place, first⟩ := grounded.below below.2
    have older := (grounded.suffix (mem_of_head first)).1
    refine List.mem_flatMap.mpr ⟨child, mem_children.mpr ⟨?_, first⟩, ?_⟩
    · rcases place with rfl | inside
      · exact below.1
      · exact grounded.alive other below.1 child inside
    · rcases place with rfl | inside
      · exact List.mem_cons_self
      · exact List.mem_cons_of_mem _ (ih ⟨below.1, inside⟩ (by omega))

/-- **The live descendants are exactly those that are visited.** -/
theorem Grounded.mem_liveDescendants (grounded : Grounded topology) {scope other : Nat} :
    other ∈ topology.liveDescendants scope ↔ topology.Below scope other := by
  refine ⟨grounded.descendant, fun below => grounded.visited below ?_⟩
  have := lt_of_live below.1
  omega

/-- The order of a teardown has the same members. -/
theorem mem_childFirstWithin {depth scope other : Nat} :
    other ∈ topology.childFirstWithin depth scope ↔ other ∈ topology.descendantsWithin depth scope := by
  induction depth generalizing scope with
  | zero => rfl
  | succ depth ih =>
    unfold childFirstWithin descendantsWithin
    rw [List.mem_flatMap, List.mem_flatMap]
    refine exists_congr fun child => and_congr_right fun _ => ?_
    rw [List.mem_append, List.mem_singleton, List.mem_cons, ih, or_comm]

/-- Every member of a list comes after its live descendants. -/
def ChildFirst (topology : Topology ν) (scopes : List Nat) : Prop :=
  ∀ front scope back, scopes = front ++ scope :: back →
    ∀ other, topology.Below scope other → other ∈ front

theorem ChildFirst.append {first second : List Nat} (one : topology.ChildFirst first)
    (two : topology.ChildFirst second) : topology.ChildFirst (first ++ second) := by
  intro front scope back same other below
  rcases List.append_eq_append_iff.mp same with ⟨middle, rfl, split⟩ | ⟨middle, split, rest⟩
  · exact List.mem_append_right first (two middle scope back split other below)
  · cases middle with
    | nil =>
      rw [List.append_nil] at split
      rw [split] at one
      have inside := two [] scope back rest.symm other below
      cases inside
    | cons head middle =>
      obtain ⟨rfl, _⟩ := List.cons.inj rest
      exact one front scope middle split other below

/-- Appending a scope after all its live descendants. -/
theorem ChildFirst.push {scopes : List Nat} {scope : Nat} (ordered : topology.ChildFirst scopes)
    (known : ∀ other, topology.Below scope other → other ∈ scopes) :
    topology.ChildFirst (scopes ++ [scope]) := by
  intro front member back same other below
  rcases List.eq_nil_or_concat back with rfl | ⟨middle, last, rfl⟩
  · obtain ⟨rfl, final⟩ := List.append_inj' same rfl
    cases final
    exact known other below
  · rw [List.concat_eq_append, ← List.cons_append, ← List.append_assoc] at same
    obtain ⟨inner, _⟩ := List.append_inj' same rfl
    exact ordered front member middle inner other below

theorem Grounded.childFirstWithin (grounded : Grounded topology) {depth scope : Nat}
    (enough : topology.scopes.length ≤ scope + depth) :
    topology.ChildFirst (topology.childFirstWithin depth scope) := by
  induction depth generalizing scope with
  | zero =>
    intro front member back same
    cases front <;> cases same
  | succ depth ih =>
    have each : ∀ children : List Nat, (∀ child ∈ children, child ∈ topology.children scope) →
        topology.ChildFirst (children.flatMap fun child =>
          topology.childFirstWithin depth child ++ [child]) := by
      intro children
      induction children with
      | nil =>
        intro _ front member back same
        cases front <;> cases same
      | cons child rest ihRest =>
        intro inside
        obtain ⟨first, others⟩ := List.forall_mem_cons.mp inside
        have younger := (grounded.suffix (mem_of_head (mem_children.mp first).2)).1
        refine ChildFirst.append ((ih (by omega)).push fun other below => ?_) (ihRest others)
        rw [mem_childFirstWithin]
        have := lt_of_live below.1
        exact grounded.visited below (by omega)
    exact each (topology.children scope) fun _ member => member

/-- **A teardown plans every scope after its live descendants.** -/
theorem Grounded.teardownOrder (grounded : Grounded topology) (scope : Nat) :
    topology.ChildFirst (topology.collectDescendantsChildFirst scope ++ [scope]) := by
  refine (grounded.childFirstWithin (by omega)).push fun other below => ?_
  exact mem_childFirstWithin.mpr (grounded.mem_liveDescendants.mpr below)

/-! ### Snapshots come from entries -/

/-- A snapshot of entries: a handle for each requirement, in order. -/
structure Resolved (topology : Topology ν) (definition : CapabilityDefinition)
    (dependencies : ResolvedDependencies ν) : Prop where
  listed : dependencies.map Prod.fst = definition.dependencies.toList
  held : ∀ dependency ∈ dependencies, ∃ scope, (topology.level scope).entries[dependency.1]? =
    some dependency.2

theorem lookupLevels_held {levels : List (ScopeLevel ν)} {id : Id} {handle : CapabilityHandle ν}
    (found : Scope.lookupLevels levels id = some handle) :
    ∃ level ∈ levels, level.entries[id]? = some handle := by
  induction levels with
  | nil => cases found
  | cons level rest ih =>
    unfold Scope.lookupLevels at found
    split at found
    · split at found
      · rename_i entry here
        cases found
        exact ⟨level, List.mem_cons_self, here⟩
      · obtain ⟨other, member, held⟩ := ih found
        exact ⟨other, List.mem_cons_of_mem _ member, held⟩
    · cases found

theorem get_held {scope : Nat} {id : Id} {handle : CapabilityHandle ν}
    (found : (topology.view scope).get id = some handle) :
    ∃ holder ∈ scope :: topology.ancestors scope,
      (topology.level holder).entries[id]? = some handle := by
  obtain ⟨level, member, held⟩ := lookupLevels_held found
  rcases List.mem_cons.mp member with rfl | inside
  · exact ⟨scope, List.mem_cons_self, held⟩
  · obtain ⟨holder, above, rfl⟩ := List.mem_map.mp inside
    exact ⟨holder, List.mem_cons_of_mem _ above, held⟩

theorem contextGet_held {context : List ContextState} {id : Id} {handle : CapabilityHandle ν}
    (found : topology.contextGet context id = some handle) :
    ∃ holder, (topology.level holder).entries[id]? = some handle := by
  induction context with
  | nil => cases found
  | cons current parents ih =>
    unfold contextGet at found
    split at found
    · obtain ⟨holder, _, held⟩ := get_held found
      exact ⟨holder, held⟩
    · split at found
      · cases found
      · exact ih found

/-- What resolving dependency by dependency answers. -/
theorem resolved_of_mapM {lookup : Id → Option (CapabilityHandle ν)} {error : Id → ScopeError}
    {wanted : List Id} {dependencies : ResolvedDependencies ν}
    (resolved : (wanted.mapM fun dependency => (match lookup dependency with
      | none => .error (error dependency)
      | some handle => .ok (dependency, handle) : Except ScopeError (Id × CapabilityHandle ν))) =
        .ok dependencies) :
    dependencies.map Prod.fst = wanted ∧
      ∀ dependency ∈ dependencies, lookup dependency.1 = some dependency.2 := by
  have pairs := forall₂_of_mapM resolved
  clear resolved
  induction pairs with
  | nil => exact ⟨rfl, fun _ member => by cases member⟩
  | cons first _ ih =>
    obtain ⟨names, found⟩ := ih
    split at first
    · cases first
    · cases first
      refine ⟨by rw [List.map_cons, names], fun dependency member => ?_⟩
      rcases List.mem_cons.mp member with rfl | inside
      · assumption
      · exact found dependency inside

theorem resolved_of_view {scope : Nat} {definition : CapabilityDefinition}
    {dependencies : ResolvedDependencies ν}
    (resolved : (topology.view scope).resolveDependencies definition = .ok dependencies) :
    topology.Resolved definition dependencies := by
  obtain ⟨listed, found⟩ := resolved_of_mapM resolved
  refine ⟨listed, fun dependency member => ?_⟩
  obtain ⟨holder, _, held⟩ := get_held (found dependency member)
  exact ⟨holder, held⟩

theorem resolved_of_context {context : List ContextState} {definition : CapabilityDefinition}
    {dependencies : ResolvedDependencies ν}
    (resolved : topology.contextResolve context definition = .ok dependencies) :
    topology.Resolved definition dependencies := by
  obtain ⟨listed, found⟩ := resolved_of_mapM resolved
  exact ⟨listed, fun dependency member => contextGet_held (found dependency member)⟩

/-! ### Emptying one scope after the other -/

theorem level_empty {scope : Nat} {lifecycle : Lifecycle} (closes : lifecycle ≠ .opened) :
    ((topology.empty scope lifecycle).level scope).isOpen = false := by
  unfold level empty
  rw [scopes_modify]
  cases topology.scopes[scope]? with
  | none => rfl
  | some state =>
    simp only [Option.map_some, if_true]
    exact decide_eq_false closes

theorem below_empty {scope other under : Nat} {lifecycle : Lifecycle} :
    (topology.empty scope lifecycle).Below other under ↔ topology.Below other under := by
  have same := topology.sameShape_empty scope lifecycle
  unfold Below
  rw [same.live, same.ancestors]

theorem closed_empty {scope other : Nat} {lifecycle : Lifecycle} (closes : lifecycle ≠ .opened)
    (closed : (topology.level other).isOpen = false) :
    ((topology.empty scope lifecycle).level other).isOpen = false := by
  by_cases same : scope = other
  · subst same
    exact level_empty closes
  · unfold empty
    rw [level_modify_ne _ same]
    exact closed

/-- Every scope of a list comes after its open descendants. -/
def Covered (topology : Topology ν) (scopes : List Nat) : Prop :=
  ∀ front scope back, scopes = front ++ scope :: back →
    ∀ other, topology.Below scope other → other ∈ front ∨ (topology.level other).isOpen = false

theorem Covered.first {scope : Nat} {rest : List Nat} (covered : topology.Covered (scope :: rest))
    (other : Nat) (below : topology.Below scope other) : (topology.level other).isOpen = false := by
  rcases covered [] scope rest rfl other below with inside | closed
  · cases inside
  · exact closed

/-- The rest of a list, once its first scope is not open. -/
theorem Covered.rest {next : Topology ν} {scope : Nat} {rest : List Nat}
    (covered : topology.Covered (scope :: rest)) (closed : (next.level scope).isOpen = false)
    (same : ∀ other under, next.Below other under ↔ topology.Below other under)
    (kept : ∀ other, (topology.level other).isOpen = false → (next.level other).isOpen = false) :
    next.Covered rest := by
  intro front member back split other below
  rcases covered (scope :: front) member back (by rw [split]; rfl) other ((same _ _).mp below) with
    inside | shut
  · rcases List.mem_cons.mp inside with rfl | further
    · exact .inr closed
    · exact .inl further
  · exact .inr (kept other shut)

theorem Grounded.covered (grounded : Grounded topology) (scope : Nat) :
    topology.Covered (topology.collectDescendantsChildFirst scope ++ [scope]) :=
  fun front member back split other below =>
    .inl (grounded.teardownOrder scope front member back split other below)

end Topology

/-! ### Elementary changes -/

namespace ScopeTree

variable {ν : Type} {tree : ScopeTree ν}

/-- **An elementary change of a tree** that withdraws no entry. -/
inductive Retains (tree : ScopeTree ν) : ScopeTree ν → Prop
  | noted (pending : List (Option (Publication ν))) (nextEntryId : Nat) (poisoned : Bool)
      (kept : ∀ begun, some begun ∈ pending → some begun ∈ tree.pending)
      (onward : tree.nextEntryId ≤ nextEntryId) :
      Retains tree { tree with
        pending := pending
        nextEntryId := nextEntryId
        poisoned := poisoned }
  | began (begun : Publication ν) (live : tree.topology.live begun.scope)
      (resolved : tree.topology.Resolved begun.definition begun.dependencies)
      (isNew : begun.load = true → begun.expectation = .new) :
      Retains tree { tree with pending := tree.pending ++ [some begun] }
  | grown (scope : Nat) (live : tree.topology.live scope) :
      Retains tree { tree with topology := tree.topology.child scope }
  | installed (begun : Publication ν) (pending : List (Option (Publication ν)))
      (generation : Nat) (value : ν) (live : tree.topology.live begun.scope)
      (member : some begun ∈ tree.pending)
      (kept : ∀ begun, some begun ∈ pending → some begun ∈ tree.pending)
      (admitted : tree.topology.admitPreconstructed begun.scope begun.definition begun.expectation
        begun.dependencies = .ok generation) :
      Retains tree { tree.install begun.scope begun.expectation
        ⟨begun.definition, value, begun.dependencies, generation, tree.nextEntryId⟩ with
        pending := pending }
  | emptied (scope : Nat) (lifecycle : Lifecycle) (closes : lifecycle ≠ .opened)
      (below : ∀ other, tree.topology.Below scope other →
        (tree.topology.level other).isOpen = false) :
      Retains tree { tree with topology := tree.topology.empty scope lifecycle }
  | released (scope : Nat) (live : tree.topology.live scope) (releasable : tree.releasable scope) :
      Retains tree { tree with topology := tree.topology.release scope }

/-- **An elementary change of a tree.** -/
inductive Evolves (tree : ScopeTree ν) : ScopeTree ν → Prop
  | retains {next : ScopeTree ν} (retains : tree.Retains next) : Evolves tree next
  | withdrawn (scope : Nat) (capability : Id) (expected : Nat) (entry : CapabilityHandle ν)
      (live : tree.topology.live scope)
      (found : tree.topology.withdrawable scope capability expected = .ok entry) :
      Evolves tree { tree with topology := tree.topology.remove scope capability }

/-- A sequence of elementary changes. -/
abbrev Reaches (tree next : ScopeTree ν) : Prop := Relation.ReflTransGen Evolves tree next

/-- A sequence of elementary changes that withdraw no entry. -/
abbrev Keeps (tree next : ScopeTree ν) : Prop := Relation.ReflTransGen Retains tree next

theorem teardownEach_keeps {scopes : List Nat} (orders : List (List Id))
    (covered : tree.topology.Covered scopes) :
    tree.Keeps { tree with topology := (tree.topology.teardownEach orders scopes).2 } := by
  induction scopes generalizing tree orders with
  | nil => exact .refl
  | cons scope rest ih =>
    unfold Topology.teardownEach
    by_cases isOpen : (tree.topology.level scope).isOpen
    · rw [if_neg (not_not.mpr isOpen)]
      split
      · exact .single (.emptied scope .closing (by decide) covered.first)
      · rename_i order _
        have next := @ih { tree with topology := tree.topology.empty scope .closed }
          (orders ++ [order])
          (covered.rest (Topology.level_empty (by decide)) (fun _ _ => Topology.below_empty)
            fun _ closed => Topology.closed_empty (by decide) closed)
        exact (Relation.ReflTransGen.single
          (.emptied scope .closed (by decide) covered.first)).trans next
    · rw [if_pos isOpen]
      exact ih orders (covered.rest (Bool.eq_false_iff.mpr isOpen) (fun _ _ => Iff.rfl)
        fun _ closed => closed)

theorem locked_keeps {scope : Nat} {call : ScopeAnswer ν × ScopeTree ν}
    (keeps : tree.topology.live scope → tree.Keeps call.2) :
    tree.Keeps (tree.locked scope call).2 := by
  unfold locked
  by_cases live : tree.topology.live scope
  · rw [if_neg (not_not.mpr live)]
    split
    · exact .refl
    · exact keeps live
  · rw [if_pos live]

theorem mem_of_set_none {pending : List (Option (Publication ν))} {publication : Nat}
    {begun : Publication ν} (member : some begun ∈ pending.set publication none) :
    some begun ∈ pending := by
  rcases List.mem_or_eq_of_mem_set member with inside | same
  · exact inside
  · cases same

/-- The second phase of a publication that was pending, once it is not pending any more. -/
theorem publishPreconstructed_keeps {begun : Publication ν} (member : some begun ∈ tree.pending)
    {pending : List (Option (Publication ν))}
    (kept : ∀ begun, some begun ∈ pending → some begun ∈ tree.pending) (value : ν) :
    tree.Keeps (({ tree with pending := pending } : ScopeTree ν).locked begun.scope
      (({ tree with pending := pending } : ScopeTree ν).publishPreconstructed begun.scope
        begun.definition begun.expectation begun.dependencies value)).2 := by
  have noted (poisoned : Bool) : tree.Keeps { tree with pending := pending, poisoned := poisoned } :=
    .single (.noted pending tree.nextEntryId poisoned kept (Nat.le_refl _))
  unfold locked
  by_cases live : tree.topology.live begun.scope
  · rw [if_neg (not_not.mpr live)]
    split
    · exact noted tree.poisoned
    · unfold publishPreconstructed
      split
      · exact noted tree.poisoned
      · rename_i generation admitted
        split
        · exact noted true
        · exact .single (.installed begun pending generation value live member kept admitted)
  · rw [if_pos live]
    exact noted tree.poisoned

/-- **A call that is no withdrawal retains every entry it does not empty.** -/
theorem step_keeps (grounded : tree.topology.Grounded)
    (loads : ∀ begun, some begun ∈ tree.pending → begun.load = true → begun.expectation = .new)
    {call : ScopeCall ν} (keeps : call.withdraws = false) : tree.Keeps (tree.step call).2 := by
  cases call with
  | child scope => exact locked_keeps fun live => .single (.grown scope live)
  | publish scope definition expectation =>
    refine locked_keeps fun live => ?_
    split
    · exact .refl
    · rename_i dependencies begun
      unfold Topology.beginPublication at begun
      obtain ⟨_, _, rest⟩ := except_bind_ok.mp begun
      obtain ⟨_, _, resolved⟩ := except_bind_ok.mp rest
      exact .single (.began ⟨scope, definition, expectation, dependencies, false⟩ live
        (Topology.resolved_of_view resolved) fun loads => by cases loads)
  | load scope definition context =>
    simp only [step]
    split
    · exact .refl
    · rename_i live
      split
      · exact .refl
      · exact .single (.began _ (not_not.mp live) (Topology.resolved_of_context ‹_›) fun _ => rfl)
  | constructed publication result =>
    simp only [step]
    split
    · rename_i begun found
      have member : some begun ∈ tree.pending := List.mem_of_getElem? found
      have kept : ∀ begun, some begun ∈ tree.pending.set publication none →
          some begun ∈ tree.pending := fun _ inside => mem_of_set_none inside
      have noted : tree.Keeps { tree with pending := tree.pending.set publication none } :=
        .single (.noted _ tree.nextEntryId tree.poisoned kept (Nat.le_refl _))
      unfold complete
      split
      · exact noted
      · rename_i value
        have published := publishPreconstructed_keeps member kept value
        by_cases load : begun.load
        · rw [if_pos load]
          unfold provideValue
          rw [loads begun member load] at published
          split
          · exact noted
          · exact published
        · rw [if_neg load]
          exact published
    · exact .refl
  | withdraw scope capability expected => cases keeps
  | teardown scope =>
    refine locked_keeps fun _ => ?_
    have torn := teardownEach_keeps [] (grounded.covered scope)
    unfold teardown Topology.teardown
    split
    · rename_i same
      rw [same] at torn
      exact torn
    · rename_i same
      rw [same] at torn
      exact torn.tail (.noted _ _ true (fun _ member => member) (Nat.le_refl _))
  | release scope =>
    simp only [step]
    by_cases both : tree.topology.live scope = true ∧ tree.releasable scope = true
    · rw [if_pos both]
      exact .single (.released scope both.1 both.2)
    · rw [if_neg both]
  | elsewhere =>
    simp only [step]
    split
    · exact .refl
    · rename_i next found
      have onward := (checkedNext_eq_some found).2
      exact .single (.noted tree.pending next tree.poisoned (fun _ member => member) (by omega))

/-- **Every call is a sequence of elementary changes.** -/
theorem step_reaches (grounded : tree.topology.Grounded)
    (loads : ∀ begun, some begun ∈ tree.pending → begun.load = true → begun.expectation = .new)
    (call : ScopeCall ν) : tree.Reaches (tree.step call).2 := by
  cases kind : call.withdraws with
  | false => exact (step_keeps grounded loads kind).lift id fun _ _ => Evolves.retains
  | true =>
    cases call with
    | withdraw scope capability expected =>
      simp only [step, locked]
      by_cases live : tree.topology.live scope
      · rw [if_neg (not_not.mpr live)]
        split
        · exact .refl
        · unfold withdraw
          split
          · exact .refl
          · exact .single (.withdrawn scope capability expected _ live ‹_›)
      · rw [if_pos live]
    | _ => cases kind

end ScopeTree

end Kernis
