/-
**What holds of every reachable scope tree.**

* `Snapshot` — a dependency snapshot: one published entry for each requirement, in order.
* `Sound` — the invariant: a live open scope has open ancestors, a scope that is not open has no
  entries, every entry was published in its scope under its identifier, entries have distinct
  identities, and an entry pins older entries only.
* `Sound.evolves`, `Sound.step` — every elementary change and hence every call keeps it.
-/

import Kernis.Capability.Steps

namespace Kernis

open Std

/-! ### Frames of the topology -/

namespace Topology

variable {ν : Type} {topology : Topology ν}

theorem scopes_child_ne {scope other : Nat} (different : other ≠ topology.scopes.length) :
    (topology.child scope).scopes[other]? = topology.scopes[other]? := by
  unfold child
  rcases Nat.lt_or_gt_of_ne different with older | younger
  · exact List.getElem?_append_left older
  · have outside : topology.scopes[other]? = none := List.getElem?_eq_none (by omega)
    rw [List.getElem?_append_right (by omega), outside]
    exact List.getElem?_eq_none (by rw [List.length_singleton]; omega)

theorem scopes_child_self (scope : Nat) :
    (topology.child scope).scopes[topology.scopes.length]? =
      some ⟨scope :: topology.ancestors scope, ∅,
        if (topology.level scope).isOpen then .opened else .closed, true⟩ := by
  unfold child
  rw [List.getElem?_append_right (Nat.le_refl _), Nat.sub_self]
  rfl

theorem level_child_ne {scope other : Nat} (different : other ≠ topology.scopes.length) :
    (topology.child scope).level other = topology.level other := by
  unfold level
  rw [scopes_child_ne different]

theorem ancestors_child_ne {scope other : Nat} (different : other ≠ topology.scopes.length) :
    (topology.child scope).ancestors other = topology.ancestors other := by
  unfold ancestors
  rw [scopes_child_ne different]

theorem live_child_ne {scope other : Nat} (different : other ≠ topology.scopes.length) :
    (topology.child scope).live other = topology.live other := by
  unfold Topology.live
  rw [scopes_child_ne different]

theorem level_child_self (scope : Nat) :
    (topology.child scope).level topology.scopes.length = ⟨(topology.level scope).isOpen, ∅⟩ := by
  rw [level_of_scope (scopes_child_self scope)]
  cases (topology.level scope).isOpen <;> rfl

theorem ancestors_child_self (scope : Nat) :
    (topology.child scope).ancestors topology.scopes.length =
      scope :: topology.ancestors scope := by
  unfold ancestors
  rw [scopes_child_self]
  rfl

/-- An ancestor of a scope is older than the tree is long. -/
theorem Grounded.ne_length (grounded : Grounded topology) {scope above : Nat}
    (live : topology.live scope) (member : above ∈ scope :: topology.ancestors scope) :
    above ≠ topology.scopes.length := by
  have bound := lt_of_live live
  rcases List.mem_cons.mp member with rfl | inside
  · omega
  · have := (grounded.suffix inside).1
    omega

/-- The shape of a tree is all that its being grounded is about. -/
theorem Grounded.sameShape (grounded : Grounded topology) {next : Topology ν}
    (same : topology.SameShape next) : Grounded next where
  parent scope := by
    simp only [same.ancestors]
    exact grounded.parent scope
  alive scope := by
    simp only [same.ancestors, same.live]
    exact grounded.alive scope

theorem Grounded.child (grounded : Grounded topology) {scope : Nat} (live : topology.live scope) :
    Grounded (topology.child scope) where
  parent other := by
    by_cases fresh : other = topology.scopes.length
    · subst fresh
      refine .inr ⟨scope, lt_of_live live, ?_⟩
      rw [ancestors_child_self, ancestors_child_ne (Nat.ne_of_lt (lt_of_live live))]
    · rw [ancestors_child_ne fresh]
      rcases grounded.parent other with none | ⟨above, older, path⟩
      · exact .inl none
      · refine .inr ⟨above, older, ?_⟩
        have known : above ≠ topology.scopes.length := by
          rintro rfl
          have outside : topology.ancestors other = [] := by
            unfold ancestors
            rw [List.getElem?_eq_none (by omega)]
            rfl
          rw [outside] at path
          cases path
        rw [path, ancestors_child_ne known]
  alive other lives above member := by
    by_cases fresh : other = topology.scopes.length
    · subst fresh
      rw [ancestors_child_self] at member
      rw [live_child_ne (grounded.ne_length live member)]
      rcases List.mem_cons.mp member with rfl | inside
      · exact live
      · exact grounded.alive scope live above inside
    · rw [live_child_ne fresh] at lives
      rw [ancestors_child_ne fresh] at member
      rw [live_child_ne (grounded.ne_length lives (List.mem_cons_of_mem _ member))]
      exact grounded.alive other lives above member

theorem live_release {scope other : Nat} (live : (topology.release scope).live other) :
    other ≠ scope ∧ topology.live other := by
  by_cases same : scope = other
  · subst same
    unfold Topology.live release at live
    rw [scopes_modify] at live
    cases found : topology.scopes[scope]? with
    | none =>
      rw [found] at live
      cases live
    | some state =>
      rw [found] at live
      simp at live
  · unfold Topology.live release at live
    rw [scopes_modify_ne _ same] at live
    exact ⟨Ne.symm same, live⟩

theorem ancestors_release (scope other : Nat) :
    (topology.release scope).ancestors other = topology.ancestors other := by
  apply ancestors_modify
  exact fun _ => rfl

/-- A scope without live children is no ancestor of a live scope. -/
theorem Grounded.childless (grounded : Grounded topology) {scope other : Nat}
    (none : topology.children scope = []) (live : topology.live other) :
    scope ∉ topology.ancestors other := by
  intro member
  obtain ⟨child, place, first⟩ := grounded.below member
  have alive : topology.live child := by
    rcases place with rfl | inside
    · exact live
    · exact grounded.alive other live child inside
  have inside := mem_children.mpr ⟨alive, first⟩
  rw [none] at inside
  cases inside

theorem Grounded.release (grounded : Grounded topology) {scope : Nat}
    (none : topology.children scope = []) : Grounded (topology.release scope) where
  parent other := by
    simp only [ancestors_release]
    exact grounded.parent other
  alive other lives above member := by
    obtain ⟨_, live⟩ := live_release lives
    rw [ancestors_release] at member
    have different : scope ≠ above := by
      rintro rfl
      exact grounded.childless none live member
    unfold Topology.live Topology.release
    rw [scopes_modify_ne _ different]
    exact grounded.alive other live above member

/-! ### Levels after a change -/

/-- What one scope holds and whether it is open, after a change. -/
theorem level_modify (scope other : Nat) (change : ScopeState ν → ScopeState ν) :
    (topology.modify scope change).level other = topology.level other ∨
      scope = other ∧ ∃ state, topology.scopes[other]? = some state ∧
        (topology.modify scope change).level other =
          ⟨(change state).lifecycle = .opened, (change state).entries⟩ := by
  by_cases same : scope = other
  · subst same
    cases found : topology.scopes[scope]? with
    | none =>
      left
      unfold level
      rw [scopes_modify, found]
      rfl
    | some state =>
      refine .inr ⟨rfl, state, rfl, ?_⟩
      refine level_of_scope ?_
      rw [scopes_modify, found, Option.map_some, if_pos rfl]
  · exact .inl (level_modify_ne change same)

theorem level_release (scope other : Nat) :
    (topology.release scope).level other = topology.level other := by
  rcases level_modify (ν := ν) scope other fun state => { state with live := false }
    with same | ⟨_, state, found, changed⟩
  · exact same
  · rw [level_of_scope found]
    exact changed

theorem isOpen_remove (scope other : Nat) (capability : Id) :
    ((topology.remove scope capability).level other).isOpen = (topology.level other).isOpen := by
  rcases level_modify (ν := ν) scope other
    fun state => { state with entries := state.entries.erase capability }
    with same | ⟨_, state, found, changed⟩
  · exact congrArg ScopeLevel.isOpen same
  · unfold remove
    rw [level_of_scope found, changed]

theorem isOpen_install (scope other : Nat) (handle : CapabilityHandle ν) :
    ((topology.install scope handle).level other).isOpen = (topology.level other).isOpen := by
  rcases level_modify (ν := ν) scope other
    fun state => { state with entries := state.entries.insert handle.definition.id handle }
    with same | ⟨_, state, found, changed⟩
  · exact congrArg ScopeLevel.isOpen same
  · unfold install
    rw [level_of_scope found, changed]

/-- What is found after an installation. -/
theorem entries_install {scope other : Nat} {id : Id} {handle entry : CapabilityHandle ν}
    (found : ((topology.install scope handle).level other).entries[id]? = some entry) :
    (other = scope ∧ id = handle.definition.id ∧ entry = handle) ∨
      (topology.level other).entries[id]? = some entry := by
  rcases level_modify (ν := ν) scope other
    fun state => { state with entries := state.entries.insert handle.definition.id handle }
    with same | ⟨here, state, held, changed⟩
  · right
    rw [← same]
    exact found
  · unfold install at found
    rw [changed, lookup_insert] at found
    split at found
    · rename_i named
      exact .inl ⟨here.symm, named.symm, (Option.some.inj found).symm⟩
    · right
      rw [level_of_scope held]
      exact found

/-- The slot of an installed entry holds that entry. -/
theorem entry_install {scope : Nat} {handle entry : CapabilityHandle ν}
    (found : ((topology.install scope handle).level scope).entries[handle.definition.id]? =
      some entry) : entry = handle := by
  unfold install level at found
  rw [scopes_modify] at found
  cases held : topology.scopes[scope]? with
  | none => simp [held] at found
  | some state =>
    simp only [held, Option.map_some, if_true, lookup_insert, Option.some.injEq] at found
    exact found.symm

theorem entry_installed {scope : Nat} (live : topology.live scope) (handle : CapabilityHandle ν) :
    ((topology.install scope handle).level scope).entries[handle.definition.id]? = some handle := by
  obtain ⟨state, found, _⟩ := scope_of_live live
  unfold install level
  rw [scopes_modify]
  simp only [found, Option.map_some, if_true, lookup_insert]

theorem entry_removed (scope : Nat) (capability : Id) :
    ((topology.remove scope capability).level scope).entries[capability]? = none := by
  unfold remove level
  rw [scopes_modify]
  cases held : topology.scopes[scope]? with
  | none => simp
  | some state => simp

/-- What is found after a removal was there before. -/
theorem entries_remove {scope other : Nat} {capability id : Id} {entry : CapabilityHandle ν}
    (found : ((topology.remove scope capability).level other).entries[id]? = some entry) :
    (topology.level other).entries[id]? = some entry := by
  rcases level_modify (ν := ν) scope other
    fun state => { state with entries := state.entries.erase capability }
    with same | ⟨_, state, held, changed⟩
  · rw [← same]
    exact found
  · unfold remove at found
    rw [changed, ExtTreeMap.getElem?_erase] at found
    rw [level_of_scope held]
    split at found
    · cases found
    · exact found

/-- Emptying a scope changes no other. -/
theorem level_empty_or (scope other : Nat) (lifecycle : Lifecycle) :
    (topology.empty scope lifecycle).level other = topology.level other ∨
      scope = other ∧ ((topology.empty scope lifecycle).level other).entries = ∅ := by
  rcases level_modify (ν := ν) scope other
    fun state => { state with entries := ∅, lifecycle := lifecycle }
    with same | ⟨here, state, _, changed⟩
  · exact .inl same
  · refine .inr ⟨here, ?_⟩
    unfold empty
    rw [changed]

/-! ### Lookups -/

/-- The entry of a scope under an identifier. -/
def entry (topology : Topology ν) (id : Id) (scope : Nat) : Option (CapabilityHandle ν) :=
  (topology.level scope).entries[id]?

/-- A scope that holds an entry is open, so its own lookup finds that entry. -/
theorem get_of_entry (vacant : ∀ scope, (topology.level scope).isOpen = false →
      (topology.level scope).entries = ∅) {scope : Nat} {id : Id} {handle : CapabilityHandle ν}
    (held : topology.entry id scope = some handle) : (topology.view scope).get id = some handle := by
  have isOpen : (topology.level scope).isOpen := by
    by_contra closed
    unfold entry at held
    rw [vacant scope (Bool.eq_false_iff.mpr closed), ExtTreeMap.getElem?_empty] at held
    cases held
  unfold Scope.get Scope.lookupLevels Topology.view
  rw [if_pos isOpen]
  unfold entry at held
  simp only [held]

/-- Through open levels, the scope lookup finds the nearest local entry. -/
theorem lookupLevels_eq_findSome {scopes : List Nat} (id : Id)
    (isOpen : ∀ scope ∈ scopes, (topology.level scope).isOpen) :
    Scope.lookupLevels (scopes.map topology.level) id = scopes.findSome? (topology.entry id) := by
  induction scopes with
  | nil => rfl
  | cons scope rest ih =>
    obtain ⟨first, others⟩ := List.forall_mem_cons.mp isOpen
    rw [List.map_cons, List.findSome?_cons]
    unfold Scope.lookupLevels
    rw [if_pos first, ih others,
      show (topology.level scope).entries[id]? = topology.entry id scope from rfl]
    cases topology.entry id scope <;> rfl

/-- A scope that is not open finds nothing. -/
theorem get_closed {scope : Nat} (id : Id) (closed : (topology.level scope).isOpen = false) :
    (topology.view scope).get id = none := by
  unfold Scope.get Scope.lookupLevels Topology.view
  rw [closed]
  rfl

end Topology

/-! ### The invariant -/

/-- **A dependency snapshot**: a handle for each requirement, in order, published under that name. -/
structure Snapshot {ν : Type} (published : List (Nat × CapabilityHandle ν))
    (definition : CapabilityDefinition) (dependencies : ResolvedDependencies ν) : Prop where
  listed : dependencies.map Prod.fst = definition.dependencies.toList
  known : ∀ dependency ∈ dependencies,
    dependency.2.definition.id = dependency.1 ∧ ∃ scope, (scope, dependency.2) ∈ published

theorem Snapshot.mono {ν : Type} {published later : List (Nat × CapabilityHandle ν)}
    {definition : CapabilityDefinition} {dependencies : ResolvedDependencies ν}
    (snapshot : Snapshot published definition dependencies) :
    Snapshot (published ++ later) definition dependencies := by
  refine ⟨snapshot.listed, fun dependency member => ?_⟩
  obtain ⟨named, scope, known⟩ := snapshot.known dependency member
  exact ⟨named, scope, List.mem_append_left later known⟩

namespace ScopeTree

variable {ν : Type} {tree next : ScopeTree ν}

/-- The identity of a publication. -/
def identity (publication : Nat × CapabilityHandle ν) : Nat := publication.2.entryId

/-- **What holds of a reachable tree.** -/
structure Sound (tree : ScopeTree ν) : Prop where
  grounded : tree.topology.Grounded
  openUp : ∀ scope, tree.topology.live scope → (tree.topology.level scope).isOpen →
    ∀ above ∈ tree.topology.ancestors scope, (tree.topology.level above).isOpen
  vacant : ∀ scope, (tree.topology.level scope).isOpen = false →
    (tree.topology.level scope).entries = ∅
  recorded : ∀ (scope : Nat) (id : Id) (entry : CapabilityHandle ν),
    (tree.topology.level scope).entries[id]? = some entry →
    entry.definition.id = id ∧ (scope, entry) ∈ tree.published
  loads : ∀ begun, some begun ∈ tree.pending → begun.load = true → begun.expectation = .new
  snapshots : ∀ begun, some begun ∈ tree.pending →
    Snapshot tree.published begun.definition begun.dependencies
  built : ∀ publication ∈ tree.published,
    Snapshot tree.published publication.2.definition publication.2.dependencies
  older : ∀ publication ∈ tree.published, ∀ dependency ∈ publication.2.dependencies,
    dependency.2.entryId < publication.2.entryId
  unique : (tree.published.map identity).Nodup
  bounded : ∀ publication ∈ tree.published, identity publication < tree.nextEntryId

theorem sound_root : Sound (root : ScopeTree ν) where
  grounded := by
    have single : ∀ scope, (root : ScopeTree ν).topology.ancestors scope = [] := by
      intro scope
      cases scope <;> rfl
    exact ⟨fun scope => .inl (single scope), fun scope _ above member => by
      rw [single] at member
      cases member⟩
  openUp scope _ _ above member := by
    have none : (root : ScopeTree ν).topology.ancestors scope = [] := by cases scope <;> rfl
    rw [none] at member
    cases member
  vacant scope _ := by cases scope <;> rfl
  recorded scope id entry found := by
    have none : ((root : ScopeTree ν).topology.level scope).entries = ∅ := by cases scope <;> rfl
    rw [none, ExtTreeMap.getElem?_empty] at found
    cases found
  loads _ member := by cases member
  snapshots _ member := by cases member
  built _ member := by cases member
  older _ member := by cases member
  unique := List.nodup_nil
  bounded _ member := by cases member

/-- The facts about the publications, after the topology alone changed. -/
theorem Sound.reshape (sound : Sound tree) {topology : Topology ν} (grounded : topology.Grounded)
    (openUp : ∀ scope, topology.live scope → (topology.level scope).isOpen →
      ∀ above ∈ topology.ancestors scope, (topology.level above).isOpen)
    (vacant : ∀ scope, (topology.level scope).isOpen = false → (topology.level scope).entries = ∅)
    (entries : ∀ (scope : Nat) (id : Id) (entry : CapabilityHandle ν),
      (topology.level scope).entries[id]? = some entry →
      (tree.topology.level scope).entries[id]? = some entry) :
    Sound { tree with topology := topology } :=
  { sound with
    grounded := grounded
    openUp := openUp
    vacant := vacant
    recorded := fun scope id entry found => sound.recorded scope id entry (entries scope id entry found) }

theorem Sound.child (sound : Sound tree) {scope : Nat} (live : tree.topology.live scope) :
    Sound { tree with topology := tree.topology.child scope } := by
  have older (above : Nat) (member : above ∈ scope :: tree.topology.ancestors scope) :=
    sound.grounded.ne_length live member
  refine sound.reshape (sound.grounded.child live) (fun other lives isOpen above member => ?_)
    (fun other closed => ?_) fun other id entry found => ?_
  · by_cases fresh : other = tree.topology.scopes.length
    · subst fresh
      rw [Topology.ancestors_child_self] at member
      rw [Topology.level_child_self] at isOpen
      rw [Topology.level_child_ne (older above member)]
      rcases List.mem_cons.mp member with rfl | inside
      · exact isOpen
      · exact sound.openUp scope live isOpen above inside
    · rw [Topology.live_child_ne fresh] at lives
      rw [Topology.level_child_ne fresh] at isOpen
      rw [Topology.ancestors_child_ne fresh] at member
      rw [Topology.level_child_ne
        (sound.grounded.ne_length lives (List.mem_cons_of_mem _ member))]
      exact sound.openUp other lives isOpen above member
  · by_cases fresh : other = tree.topology.scopes.length
    · subst fresh
      rw [Topology.level_child_self]
    · rw [Topology.level_child_ne fresh] at closed ⊢
      exact sound.vacant other closed
  · by_cases fresh : other = tree.topology.scopes.length
    · subst fresh
      rw [Topology.level_child_self] at found
      simp at found
    · rw [Topology.level_child_ne fresh] at found
      exact found

theorem Sound.remove (sound : Sound tree) (scope : Nat) (capability : Id) :
    Sound { tree with topology := tree.topology.remove scope capability } := by
  have same := tree.topology.sameShape_remove scope capability
  refine sound.reshape (sound.grounded.sameShape same)
    (fun other lives isOpen above member => ?_) (fun other closed => ?_)
    fun other id entry found => Topology.entries_remove found
  · rw [Topology.isOpen_remove] at isOpen ⊢
    rw [same.live] at lives
    rw [same.ancestors] at member
    exact sound.openUp other lives isOpen above member
  · rw [Topology.isOpen_remove] at closed
    have nothing := sound.vacant other closed
    refine ExtTreeMap.ext_getElem? fun id => ?_
    rw [ExtTreeMap.getElem?_empty]
    by_contra found
    obtain ⟨entry, held⟩ := Option.ne_none_iff_exists'.mp found
    have before := Topology.entries_remove held
    rw [nothing, ExtTreeMap.getElem?_empty] at before
    cases before

theorem Sound.empty (sound : Sound tree) {scope : Nat} {lifecycle : Lifecycle}
    (closes : lifecycle ≠ .opened)
    (below : ∀ other, tree.topology.Below scope other →
      (tree.topology.level other).isOpen = false) :
    Sound { tree with topology := tree.topology.empty scope lifecycle } := by
  have shut (other : Nat) (here : scope = other) :
      ((tree.topology.empty scope lifecycle).level other).isOpen = false := by
    subst here
    exact Topology.level_empty closes
  have shape := tree.topology.sameShape_empty scope lifecycle
  refine sound.reshape (sound.grounded.sameShape shape)
    (fun other lives isOpen above member => ?_) (fun other closed => ?_)
    fun other id entry found => ?_
  · rw [shape.live] at lives
    rw [shape.ancestors] at member
    rcases Topology.level_empty_or scope other lifecycle with same | ⟨here, _⟩
    · rw [same] at isOpen
      rcases Topology.level_empty_or scope above lifecycle with kept | ⟨rfl, _⟩
      · rw [kept]
        exact sound.openUp other lives isOpen above member
      · have closed := below other ⟨lives, member⟩
        rw [closed] at isOpen
        cases isOpen
    · rw [shut other here] at isOpen
      cases isOpen
  · rcases Topology.level_empty_or scope other lifecycle with same | ⟨_, nothing⟩
    · rw [same] at closed ⊢
      exact sound.vacant other closed
    · exact nothing
  · rcases Topology.level_empty_or scope other lifecycle with same | ⟨_, nothing⟩
    · rw [same] at found
      exact found
    · rw [nothing, ExtTreeMap.getElem?_empty] at found
      cases found

theorem Sound.release (sound : Sound tree) {scope : Nat} (releasable : tree.releasable scope) :
    Sound { tree with topology := tree.topology.release scope } := by
  have none : tree.topology.children scope = [] := by
    have both := releasable
    unfold ScopeTree.releasable at both
    rw [Bool.and_eq_true] at both
    exact List.isEmpty_iff.mp both.1
  refine sound.reshape (sound.grounded.release none) (fun other lives isOpen above member => ?_)
    (fun other closed => ?_) fun other id entry found => ?_
  · rw [Topology.level_release] at isOpen ⊢
    rw [Topology.ancestors_release] at member
    exact sound.openUp other (Topology.live_release lives).2 isOpen above member
  · rw [Topology.level_release] at closed ⊢
    exact sound.vacant other closed
  · rw [Topology.level_release] at found
    exact found

/-- The handles of a resolved snapshot were published. -/
theorem Sound.snapshot (sound : Sound tree) {definition : CapabilityDefinition}
    {dependencies : ResolvedDependencies ν}
    (resolved : tree.topology.Resolved definition dependencies) :
    Snapshot tree.published definition dependencies := by
  refine ⟨resolved.listed, fun dependency member => ?_⟩
  obtain ⟨scope, held⟩ := resolved.held dependency member
  obtain ⟨named, known⟩ := sound.recorded scope dependency.1 dependency.2 held
  exact ⟨named, scope, known⟩

/-- What is pinned by a publication that is installed. -/
theorem Sound.install (sound : Sound tree) {begun : Publication ν}
    (member : some begun ∈ tree.pending) (isOpen : (tree.topology.level begun.scope).isOpen)
    (generation : Nat) (value : ν) :
    Sound (tree.install begun.scope begun.expectation
      ⟨begun.definition, value, begun.dependencies, generation, tree.nextEntryId⟩) := by
  have snapshot := sound.snapshots begun member
  generalize entry_eq : (⟨begun.definition, value, begun.dependencies, generation,
    tree.nextEntryId⟩ : CapabilityHandle ν) = entry
  have pinned : entry.dependencies = begun.dependencies := by rw [← entry_eq]
  have defined : entry.definition = begun.definition := by rw [← entry_eq]
  have numbered : entry.entryId = tree.nextEntryId := by rw [← entry_eq]
  have pinsOlder : ∀ dependency ∈ entry.dependencies, dependency.2.entryId < entry.entryId := by
    intro dependency inside
    rw [pinned] at inside
    obtain ⟨_, scope, known⟩ := snapshot.known dependency inside
    rw [numbered]
    exact sound.bounded _ known
  have shape := tree.topology.sameShape_install begun.scope entry
  refine ⟨sound.grounded.sameShape shape, ?_, ?_, ?_, sound.loads, ?_, ?_, ?_, ?_, ?_⟩
  · intro other lives opened above inside
    show ((tree.topology.install begun.scope entry).level above).isOpen
    have opened : ((tree.topology.install begun.scope entry).level other).isOpen := opened
    rw [Topology.isOpen_install] at opened ⊢
    exact sound.openUp other (shape.live other ▸ lives) opened above
      (shape.ancestors other ▸ inside)
  · intro other closed
    have closed : ((tree.topology.install begun.scope entry).level other).isOpen = false := closed
    rw [Topology.isOpen_install] at closed
    have different : begun.scope ≠ other := by
      rintro rfl
      rw [isOpen] at closed
      cases closed
    show ((tree.topology.install begun.scope entry).level other).entries = ∅
    unfold Topology.install
    rw [Topology.level_modify_ne _ different]
    exact sound.vacant other closed
  · intro other id held found
    rcases Topology.entries_install found with ⟨rfl, rfl, rfl⟩ | before
    · exact ⟨rfl, List.mem_append_right _ (List.mem_singleton_self _)⟩
    · obtain ⟨named, known⟩ := sound.recorded other id held before
      exact ⟨named, List.mem_append_left _ known⟩
  · intro other inside
    exact (sound.snapshots other inside).mono
  · intro publication inside
    rcases List.mem_append.mp inside with old | new
    · exact (sound.built publication old).mono
    · cases List.mem_singleton.mp new
      rw [defined, pinned]
      exact snapshot.mono
  · intro publication inside
    rcases List.mem_append.mp inside with old | new
    · exact sound.older publication old
    · cases List.mem_singleton.mp new
      exact pinsOlder
  · show ((tree.published ++ [(begun.scope, entry)]).map identity).Nodup
    rw [List.map_append, List.nodup_append]
    refine ⟨sound.unique, List.nodup_singleton _, fun first inside second last same => ?_⟩
    obtain ⟨publication, known, rfl⟩ := List.mem_map.mp inside
    have bound := sound.bounded publication known
    rw [same, List.mem_singleton.mp last] at bound
    have equal : identity (begun.scope, entry) = tree.nextEntryId := numbered
    omega
  · intro publication inside
    show identity publication < tree.nextEntryId + 1
    rcases List.mem_append.mp inside with old | new
    · have := sound.bounded publication old
      omega
    · cases List.mem_singleton.mp new
      have equal : identity (begun.scope, entry) = tree.nextEntryId := numbered
      omega

/-- The generation that a publication allocates in a slot. -/
inductive Allocates (entries : BTreeMap Id (CapabilityHandle ν)) (id : Id) :
    PublishExpectation → Nat → Prop
  | first (vacant : entries[id]? = none) : Allocates entries id .new 1
  | next {entry : CapabilityHandle ν} (held : entries[id]? = some entry) :
      Allocates entries id (.replace entry.generation) (entry.generation + 1)

/-- What the second phase has checked of the slot. -/
theorem allocates_of_admitted {topology : Topology ν} {scope generation : Nat}
    {definition : CapabilityDefinition} {expectation : PublishExpectation}
    {dependencies : ResolvedDependencies ν}
    (admitted : topology.admitPreconstructed scope definition expectation dependencies =
      .ok generation) :
    (topology.level scope).isOpen ∧
      Allocates (topology.level scope).entries definition.id expectation generation := by
  unfold Topology.admitPreconstructed at admitted
  obtain ⟨_, _, rest⟩ := except_bind_ok.mp admitted
  split at rest
  · cases rest
  · obtain ⟨_, rest⟩ := except_then_ok.mp rest
    obtain ⟨expected, rest⟩ := except_then_ok.mp rest
    obtain ⟨_, allocated⟩ := except_then_ok.mp rest
    unfold Scope.checkExpectation at expected
    split at expected
    · cases expected
    · rename_i isOpen
      refine ⟨not_not.mp isOpen, ?_⟩
      unfold Scope.nextGeneration at allocated
      cases held : (topology.level scope).entries[definition.id]? with
      | none =>
        cases expectation with
        | new =>
          cases allocated
          exact .first held
        | replace wanted =>
          simp only [Topology.view, held] at expected
          cases expected
      | some entry =>
        cases expectation with
        | new =>
          simp only [Topology.view, held] at expected
          cases expected
        | replace wanted =>
          simp only [Topology.view, held] at expected allocated
          by_cases same : entry.generation = wanted
          · subst same
            split at allocated
            · cases allocated
            · rename_i next found
              cases allocated
              rw [(checkedNext_eq_some found).2]
              exact .next held
          · rw [if_pos same] at expected
            cases expected

/-- The scope of an admitted publication is open. -/
theorem isOpen_of_admitted {topology : Topology ν} {scope generation : Nat}
    {definition : CapabilityDefinition} {expectation : PublishExpectation}
    {dependencies : ResolvedDependencies ν}
    (admitted : topology.admitPreconstructed scope definition expectation dependencies =
      .ok generation) : (topology.level scope).isOpen :=
  (allocates_of_admitted admitted).1

theorem Sound.retains (sound : Sound tree) (retains : tree.Retains next) : Sound next := by
  cases retains with
  | noted pending nextEntryId poisoned kept onward =>
    exact { sound with
      loads := fun begun member => sound.loads begun (kept begun member)
      snapshots := fun begun member => sound.snapshots begun (kept begun member)
      bounded := fun publication member =>
        Nat.lt_of_lt_of_le (sound.bounded publication member) onward }
  | began begun live resolved isNew =>
    have inside {other : Publication ν} (member : some other ∈ tree.pending ++ [some begun]) :
        some other ∈ tree.pending ∨ other = begun := by
      rcases List.mem_append.mp member with old | new
      · exact .inl old
      · exact .inr (Option.some.inj (List.mem_singleton.mp new))
    refine { sound with loads := fun other member => ?_, snapshots := fun other member => ?_ }
    · rcases inside member with old | rfl
      · exact sound.loads other old
      · exact isNew
    · rcases inside member with old | rfl
      · exact sound.snapshots other old
      · exact sound.snapshot resolved
  | grown scope live => exact sound.child live
  | installed begun pending generation value live member kept admitted =>
    have after := sound.install member (isOpen_of_admitted admitted) generation value
    exact { after with
      loads := fun other inside => after.loads other (kept other inside)
      snapshots := fun other inside => after.snapshots other (kept other inside) }
  | emptied scope lifecycle closes below => exact sound.empty closes below
  | released scope live releasable => exact sound.release releasable

/-- **An elementary change keeps the invariant.** -/
theorem Sound.evolves (sound : Sound tree) (evolves : tree.Evolves next) : Sound next := by
  cases evolves with
  | retains retains => exact sound.retains retains
  | withdrawn scope capability expected entry live found => exact sound.remove scope capability

theorem Sound.reaches (sound : Sound tree) (reaches : tree.Reaches next) : Sound next := by
  induction reaches with
  | refl => exact sound
  | tail _ evolves ih => exact ih.evolves evolves

theorem Sound.step (sound : Sound tree) (call : ScopeCall ν) : Sound (tree.step call).2 :=
  sound.reaches (step_reaches sound.grounded sound.loads call)

/-! ### What a call publishes -/

/-- A constructor or a plugin returned, and its value was published. -/
structure Installs (tree : ScopeTree ν) (publication : Nat) (begun : Publication ν) (value : ν)
    (generation : Nat) : Prop where
  found : tree.pending[publication]? = some (some begun)
  live : tree.topology.live begun.scope
  unpoisoned : tree.poisoned = false
  admitted : tree.topology.admitPreconstructed begun.scope begun.definition begun.expectation
    begun.dependencies = .ok generation
  result : tree.step (.constructed publication (.ok value)) =
    (.published ⟨begun.definition, value, begun.dependencies, generation, tree.nextEntryId⟩,
      { tree with pending := tree.pending.set publication none }.install begun.scope
        begun.expectation
        ⟨begun.definition, value, begun.dependencies, generation, tree.nextEntryId⟩)

/-- Nothing was published, and no entry of a scope was replaced. -/
structure Silent (before : ScopeTree ν) (after : ScopeAnswer ν × ScopeTree ν) : Prop where
  published : after.2.published = before.published
  provided : after.2.provided = before.provided
  answer : ∀ handle, after.1 ≠ .published handle

theorem Silent.locked {scope : Nat} {call : ScopeAnswer ν × ScopeTree ν} (silent : Silent tree call) :
    Silent tree (tree.locked scope call) := by
  unfold ScopeTree.locked
  split
  · exact ⟨rfl, rfl, fun _ same => by cases same⟩
  · split
    · exact ⟨rfl, rfl, fun _ same => by cases same⟩
    · exact silent

/-- What a publication whose constructor returned does: it installs its entry, or it changes nothing
but what waits and whether the lock is poisoned. -/
theorem Sound.constructed_cases (sound : Sound tree) (publication : Nat) (result : Except Text ν) :
    ((tree.step (.constructed publication result)).2.topology = tree.topology ∧
      Silent tree (tree.step (.constructed publication result))) ∨
    ∃ begun value generation, result = .ok value ∧
      Installs tree publication begun value generation := by
  have quiet : tree.topology = tree.topology ∧ Silent tree (.unavailable, tree) :=
    ⟨rfl, rfl, rfl, fun _ same => by cases same⟩
  generalize same : tree.step (.constructed publication result) = after
  have copy := same
  simp only [ScopeTree.step] at same
  split at same
  · rename_i begun found
    have member : some begun ∈ tree.pending := List.mem_of_getElem? found
    unfold complete at same
    cases result with
    | error reason =>
      subst same
      exact .inl ⟨rfl, rfl, rfl, fun _ same => by cases same⟩
    | ok value =>
      have published (locked : ({ tree with pending := tree.pending.set publication none } :
          ScopeTree ν).locked begun.scope (({ tree with pending := tree.pending.set publication none }
            : ScopeTree ν).publishPreconstructed begun.scope begun.definition begun.expectation
              begun.dependencies value) = after) :
          (after.2.topology = tree.topology ∧ Silent tree after) ∨
            ∃ other another generation, (Except.ok value : Except Text ν) = .ok another ∧
              Installs tree publication other another generation := by
        unfold ScopeTree.locked at locked
        split at locked
        · subst locked
          exact .inl ⟨rfl, rfl, rfl, fun _ same => by cases same⟩
        · rename_i live
          split at locked
          · subst locked
            exact .inl ⟨rfl, rfl, rfl, fun _ same => by cases same⟩
          · rename_i unpoisoned
            unfold publishPreconstructed at locked
            split at locked
            · subst locked
              exact .inl ⟨rfl, rfl, rfl, fun _ same => by cases same⟩
            · rename_i generation admitted
              split at locked
              · subst locked
                exact .inl ⟨rfl, rfl, rfl, fun _ same => by cases same⟩
              · subst locked
                exact .inr ⟨begun, value, generation, rfl, found, not_not.mp live,
                  Bool.eq_false_iff.mpr unpoisoned, admitted, copy⟩
      by_cases load : begun.load
      · simp only [load, if_true] at same
        unfold provideValue at same
        split at same
        · subst same
          exact .inl ⟨rfl, rfl, rfl, fun _ same => by cases same⟩
        · refine published ?_
          rw [sound.loads begun member load]
          exact same
      · simp only [load] at same
        exact published same
  · subst same
    exact .inl quiet

/-- **A call publishes an entry, or nothing.** -/
theorem Sound.step_published (sound : Sound tree) (call : ScopeCall ν) :
    Silent tree (tree.step call) ∨ ∃ publication begun value generation,
      call = .constructed publication (.ok value) ∧
        Installs tree publication begun value generation := by
  have quiet (answer : ScopeAnswer ν) (other : ∀ handle, answer ≠ .published handle) :
      Silent tree (answer, tree) := ⟨rfl, rfl, other⟩
  cases call with
  | child scope => exact .inl (Silent.locked ⟨rfl, rfl, fun _ same => by cases same⟩)
  | publish scope definition expectation =>
    refine .inl (Silent.locked ?_)
    split
    · exact quiet _ fun _ same => by cases same
    · exact ⟨rfl, rfl, fun _ same => by cases same⟩
  | load scope definition context =>
    simp only [ScopeTree.step]
    split
    · exact .inl (quiet _ fun _ same => by cases same)
    · split
      · exact .inl (quiet _ fun _ same => by cases same)
      · exact .inl ⟨rfl, rfl, fun _ same => by cases same⟩
  | constructed publication result =>
    rcases sound.constructed_cases publication result with
      ⟨_, silent⟩ | ⟨begun, value, generation, rfl, installs⟩
    · exact .inl silent
    · exact .inr ⟨publication, begun, value, generation, rfl, installs⟩
  | withdraw scope capability expected =>
    refine .inl (Silent.locked ?_)
    unfold ScopeTree.withdraw
    split <;> exact ⟨rfl, rfl, fun _ same => by cases same⟩
  | teardown scope =>
    refine .inl (Silent.locked ?_)
    unfold ScopeTree.teardown
    split <;> exact ⟨rfl, rfl, fun _ same => by cases same⟩
  | release scope =>
    simp only [ScopeTree.step]
    split
    · exact .inl ⟨rfl, rfl, fun _ same => by cases same⟩
    · exact .inl (quiet _ fun _ same => by cases same)
  | elsewhere =>
    simp only [ScopeTree.step]
    split <;> exact .inl ⟨rfl, rfl, fun _ same => by cases same⟩

end ScopeTree

/-! ### The shape after a call -/

namespace Topology

variable {ν : Type} {topology next : Topology ν}

theorem SameShape.refl : topology.SameShape topology := ⟨fun _ => rfl, fun _ => rfl⟩

theorem SameShape.trans {last : Topology ν} (first : topology.SameShape next)
    (second : next.SameShape last) : topology.SameShape last :=
  ⟨fun scope => (second.ancestors scope).trans (first.ancestors scope),
    fun scope => (second.live scope).trans (first.live scope)⟩

theorem sameShape_teardownEach {scopes : List Nat} (orders : List (List Id)) :
    topology.SameShape (topology.teardownEach orders scopes).2 := by
  induction scopes generalizing topology orders with
  | nil => exact .refl
  | cons scope rest ih =>
    unfold teardownEach
    split
    · exact ih orders
    · split
      · exact topology.sameShape_empty scope .closing
      · exact (topology.sameShape_empty scope .closed).trans (ih _)

end Topology

namespace ScopeTree

variable {ν : Type} {tree : ScopeTree ν}

theorem locked_sameShape {scope : Nat} {call : ScopeAnswer ν × ScopeTree ν}
    (same : tree.topology.SameShape call.2.topology) :
    tree.topology.SameShape (tree.locked scope call).2.topology := by
  unfold locked
  split
  · exact .refl
  · split
    · exact .refl
    · exact same

theorem publishPreconstructed_sameShape (scope : Nat) (definition : CapabilityDefinition)
    (expectation : PublishExpectation) (dependencies : ResolvedDependencies ν) (value : ν) :
    tree.topology.SameShape (tree.publishPreconstructed scope definition expectation dependencies
      value).2.topology := by
  unfold publishPreconstructed
  split
  · exact .refl
  · split
    · exact .refl
    · exact tree.topology.sameShape_install scope _

theorem complete_sameShape (tree : ScopeTree ν) (begun : Publication ν) (result : Except Text ν) :
    tree.topology.SameShape (tree.complete begun result).2.topology := by
  unfold complete
  split
  · exact .refl
  · split
    · unfold provideValue
      split
      · exact .refl
      · exact locked_sameShape (publishPreconstructed_sameShape _ _ _ _ _)
    · exact locked_sameShape (publishPreconstructed_sameShape _ _ _ _ _)

/-- **Only a child and a release change the shape of the tree.** -/
theorem step_shape (call : ScopeCall ν) :
    (∃ scope, call = .child scope ∧ tree.topology.live scope ∧
      (tree.step call).2.topology = tree.topology.child scope) ∨
    (∃ scope, call = .release scope ∧ tree.releasable scope ∧
      (tree.step call).2.topology = tree.topology.release scope) ∨
    tree.topology.SameShape (tree.step call).2.topology := by
  cases call with
  | child scope =>
    simp only [step, locked]
    by_cases live : tree.topology.live scope
    · rw [if_neg (not_not.mpr live)]
      split
      · exact .inr (.inr .refl)
      · exact .inl ⟨scope, rfl, live, rfl⟩
    · rw [if_pos live]
      exact .inr (.inr .refl)
  | publish scope definition expectation =>
    refine .inr (.inr (locked_sameShape ?_))
    split <;> exact .refl
  | load scope definition context =>
    simp only [step]
    split
    · exact .inr (.inr .refl)
    · split <;> exact .inr (.inr .refl)
  | constructed publication result =>
    simp only [step]
    split
    · exact .inr (.inr (complete_sameShape
        { tree with pending := tree.pending.set publication none } _ result))
    · exact .inr (.inr .refl)
  | withdraw scope capability expected =>
    refine .inr (.inr (locked_sameShape ?_))
    unfold withdraw
    split
    · exact .refl
    · exact tree.topology.sameShape_remove scope capability
  | teardown scope =>
    refine .inr (.inr (locked_sameShape ?_))
    have same : tree.topology.SameShape (tree.topology.teardown scope).2 :=
      Topology.sameShape_teardownEach []
    unfold teardown
    split
    all_goals
      rename_i torn
      rw [torn] at same
      exact same
  | release scope =>
    simp only [step]
    by_cases both : tree.topology.live scope = true ∧ tree.releasable scope = true
    · rw [if_pos both]
      exact .inr (.inl ⟨scope, rfl, both.2, rfl⟩)
    · rw [if_neg both]
      exact .inr (.inr .refl)
  | elsewhere =>
    simp only [step]
    split <;> exact .inr (.inr .refl)

/-- **What a living scope keeps over a call that does not release it.** -/
theorem step_kept {call : ScopeCall ν} {scope : Nat}
    (live : tree.topology.live scope) (held : call ≠ .release scope) :
    (tree.step call).2.topology.live scope ∧
      (tree.step call).2.topology.ancestors scope = tree.topology.ancestors scope := by
  rcases tree.step_shape call with ⟨other, rfl, _, grown⟩ | ⟨other, rfl, releasable, shrunk⟩ | same
  · have older := Nat.ne_of_lt (Topology.lt_of_live live)
    rw [grown, Topology.live_child_ne older, Topology.ancestors_child_ne older]
    exact ⟨live, rfl⟩
  · have different : other ≠ scope := by
      rintro rfl
      exact held rfl
    rw [shrunk, Topology.ancestors_release]
    refine ⟨?_, rfl⟩
    unfold Topology.live Topology.release
    rw [Topology.scopes_modify_ne _ different]
    exact live
  · rw [same.live, same.ancestors]
    exact ⟨live, rfl⟩

end ScopeTree

end Kernis
