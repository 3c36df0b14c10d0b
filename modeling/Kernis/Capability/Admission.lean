/-
**Admission keeps every visible graph valid.**

A publication is admitted in its own scope and in every live open descendant that would see it. What a
scope sees then changes in one place, or not at all.

* `graph_install` — what an installation does to the graph that a scope sees.
* `Visible` — every live open scope sees a valid graph; every change but a withdrawal keeps it.
* `Publishes` — an installed entry pins what its scope sees at that moment.
* `admission_sound` — both over every run without withdrawals, and what a failing publication leaves.
-/

import Kernis.Capability.Sound

namespace Kernis

open Std

namespace Topology

variable {ν : Type} {topology : Topology ν}

/-! ### What a scope sees -/

/-- The graph that a scope sees. -/
def graph (topology : Topology ν) (scope : Nat) : CapabilityGraph :=
  (topology.view scope).visibleGraph

theorem visibleLevels_lookup (levels : List (ScopeLevel ν)) (id : Id) :
    (Scope.visibleLevels levels)[id]? =
      (Scope.lookupLevels levels id).map CapabilityHandle.definition := by
  induction levels with
  | nil => exact ExtTreeMap.getElem?_empty
  | cons level rest ih =>
    unfold Scope.visibleLevels Scope.lookupLevels
    by_cases isOpen : level.isOpen
    · rw [if_pos isOpen, if_pos isOpen]
      refine (lookup_foldl_over CapabilityHandle.definition level.entries _ id).trans ?_
      rw [ih]
      cases level.entries[id]? <;> rfl
    · rw [if_neg isOpen, if_neg isOpen]
      exact ExtTreeMap.getElem?_empty

/-- Every entry is held under its own identifier. -/
def Named (topology : Topology ν) : Prop :=
  ∀ (scope : Nat) (id : Id) (entry : CapabilityHandle ν),
    (topology.level scope).entries[id]? = some entry → entry.definition.id = id

theorem Named.keyed (named : topology.Named) (scope : Nat) :
    CapabilityGraph.Keyed (Scope.visibleLevels ((topology.view scope).own ::
      (topology.view scope).ancestors)) := by
  intro id definition found
  rw [visibleLevels_lookup, Option.map_eq_some_iff] at found
  obtain ⟨handle, held, rfl⟩ := found
  obtain ⟨holder, _, here⟩ := get_held held
  exact named holder id handle here

/-- **The graph of a scope holds the definitions of what the scope finds.** -/
theorem Named.graph_lookup (named : topology.Named) (scope : Nat) (id : Id) :
    (topology.graph scope).definitions[id]? =
      ((topology.view scope).get id).map CapabilityHandle.definition := by
  unfold graph Scope.visibleGraph
  rw [CapabilityGraph.fromDefinitions_valuesOf (named.keyed scope)]
  exact visibleLevels_lookup _ id

/-- Two scopes that find the same see the same graph. -/
theorem Named.graph_congr (named : topology.Named) {next : Topology ν} (after : next.Named)
    {scope other : Nat}
    (same : ∀ id, (next.view other).get id = (topology.view scope).get id) :
    next.graph other = topology.graph scope := by
  have equal : (next.graph other).definitions = (topology.graph scope).definitions := by
    ext1 id
    rw [after.graph_lookup, named.graph_lookup, same]
  cases hn : next.graph other
  cases ht : topology.graph scope
  rw [hn, ht] at equal
  exact congrArg CapabilityGraph.mk equal

/-- The graph checked under the entry lock of an open scope is the one it sees. -/
theorem visibleGraphWithEntries_eq {scope : Nat} (isOpen : (topology.level scope).isOpen) :
    (topology.view scope).visibleGraphWithEntries = topology.graph scope := by
  unfold graph Scope.visibleGraph Scope.visibleGraphWithEntries
  congr 2
  show _ = Scope.visibleLevels (topology.level scope :: _)
  rw [Scope.visibleLevels, if_pos isOpen]
  rfl

/-! ### Installing an entry -/

theorem entry_install_ne {scope other : Nat} {id : Id} {handle : CapabilityHandle ν}
    (different : scope ≠ other ∨ handle.definition.id ≠ id) :
    (topology.install scope handle).entry id other = topology.entry id other := by
  unfold entry
  rcases level_modify (ν := ν) scope other
    fun state => { state with entries := state.entries.insert handle.definition.id handle }
    with same | ⟨rfl, state, found, changed⟩
  · exact congrArg (fun level => level.entries[id]?) same
  · rcases different with apart | apart
    · exact absurd rfl apart
    · unfold install
      rw [changed, level_of_scope found]
      exact lookup_insert_ne _ _ apart

/-- **What an installation changes on an open path**: the nearest entry under its identifier, if the
path reaches the scope before another entry. -/
theorem findSome_install {scope : Nat} {handle : CapabilityHandle ν} (live : topology.live scope)
    {path : List Nat} (isOpen : ∀ member ∈ path, (topology.level member).isOpen) :
    path.findSome? ((topology.install scope handle).entry handle.definition.id) =
      if topology.candidateAffects scope handle.definition.id path then some handle
      else path.findSome? (topology.entry handle.definition.id) := by
  induction path with
  | nil => rfl
  | cons current rest ih =>
    obtain ⟨first, others⟩ := List.forall_mem_cons.mp isOpen
    unfold candidateAffects
    rw [List.findSome?_cons, List.findSome?_cons]
    by_cases here : current = scope
    · subst here
      have installed : (topology.install current handle).entry handle.definition.id current =
        some handle := topology.entry_installed live handle
      rw [installed, if_pos rfl]
      rfl
    · rw [if_neg here, entry_install_ne (.inl (Ne.symm here))]
      by_cases inside : handle.definition.id ∈ (topology.level current).entries
      · obtain ⟨held, found⟩ := exists_lookup_of_mem inside
        have local_ : topology.entry handle.definition.id current = some held := found
        have blocked : ¬ (topology.level current).isOpen ∨
            handle.definition.id ∈ (topology.level current).entries := .inr inside
        rw [local_, if_pos blocked]
        rfl
      · have absent : topology.entry handle.definition.id current = none :=
          lookup_none_of_not_mem inside
        have free : ¬ (¬ (topology.level current).isOpen ∨
            handle.definition.id ∈ (topology.level current).entries) :=
          fun either => either.elim (fun closed => closed first) inside
        rw [absent, if_neg free]
        exact ih others

/-- Only below a scope is a publication in it visible. -/
theorem mem_of_affects {scope : Nat} {capability : Id} {path : List Nat}
    (affects : topology.candidateAffects scope capability path = true) : scope ∈ path := by
  induction path with
  | nil => cases affects
  | cons current above ih =>
    unfold candidateAffects at affects
    by_cases same : current = scope
    · exact List.mem_cons.mpr (.inl same.symm)
    · rw [if_neg same] at affects
      split at affects
      · cases affects
      · exact List.mem_cons_of_mem _ (ih affects)

/-- The lookup of a scope below open scopes. -/
theorem get_eq_findSome {scope : Nat} (isOpen : ∀ member ∈ scope :: topology.ancestors scope,
      (topology.level member).isOpen) (id : Id) :
    (topology.view scope).get id =
      (scope :: topology.ancestors scope).findSome? (topology.entry id) :=
  lookupLevels_eq_findSome id isOpen

/-- **What an installation does to the graph that an open scope sees.** -/
theorem Named.graph_install (named : topology.Named) {scope other : Nat}
    {handle : CapabilityHandle ν} (live : topology.live scope)
    (isOpen : ∀ member ∈ other :: topology.ancestors other, (topology.level member).isOpen) :
    (topology.install scope handle).graph other =
      if topology.candidateAffects scope handle.definition.id (other :: topology.ancestors other)
      then (topology.graph other).insert handle.definition else topology.graph other := by
  have after : (topology.install scope handle).Named := by
    intro holder id entry found
    rcases entries_install found with ⟨_, same, rfl⟩ | before
    · exact same.symm
    · exact named holder id entry before
  have path : (topology.install scope handle).ancestors other = topology.ancestors other :=
    (topology.sameShape_install scope handle).ancestors other
  have opened : ∀ member ∈ other :: (topology.install scope handle).ancestors other,
      ((topology.install scope handle).level member).isOpen := by
    intro member inside
    rw [path] at inside
    rw [isOpen_install]
    exact isOpen member inside
  have found (id : Id) : ((topology.install scope handle).graph other).definitions[id]? =
      (if topology.candidateAffects scope handle.definition.id (other :: topology.ancestors other)
        then (topology.graph other).insert handle.definition else topology.graph other
        ).definitions[id]? := by
    rw [after.graph_lookup, get_eq_findSome opened, path]
    by_cases same : handle.definition.id = id
    · subst same
      rw [findSome_install live isOpen]
      by_cases affects : topology.candidateAffects scope handle.definition.id
          (other :: topology.ancestors other)
      · rw [if_pos affects, if_pos affects]
        exact (lookup_insert_self _ _ _).symm
      · rw [if_neg affects, if_neg affects, named.graph_lookup, get_eq_findSome isOpen]
    · have kept : (other :: topology.ancestors other).findSome?
          ((topology.install scope handle).entry id) =
          (other :: topology.ancestors other).findSome? (topology.entry id) := by
        congr 1
        funext member
        exact entry_install_ne (.inr same)
      rw [kept, ← get_eq_findSome isOpen, ← named.graph_lookup]
      split
      · exact (lookup_insert_ne _ _ same).symm
      · rfl
  have equal := ExtTreeMap.ext_getElem? found
  cases hn : (topology.install scope handle).graph other
  rw [hn] at equal
  exact congrArg CapabilityGraph.mk equal

end Topology

/-! ### What admission has checked -/

namespace ScopeTree

variable {ν : Type} {tree next : ScopeTree ν}

theorem Sound.named (sound : Sound tree) : tree.topology.Named :=
  fun scope id entry held => (sound.recorded scope id entry held).1

/-- What a graph that admits a candidate becomes. -/
theorem valid_of_validate {graph : CapabilityGraph} {definition : CapabilityDefinition}
    {order : List Id} (admitted : graph.validateCandidate definition = .ok order) :
    (graph.insert definition).Valid :=
  (CapabilityGraph.resolve_iff _).mp ⟨order, admitted⟩

theorem valid_of_validateCandidate {scope : Scope ν} {definition : CapabilityDefinition}
    (admitted : scope.validateCandidate definition = .ok ()) :
    (scope.visibleGraph.insert definition).Valid := by
  unfold Scope.validateCandidate at admitted
  split at admitted
  · cases admitted
  · exact valid_of_validate ‹_›

/-- **Admission covers every live open scope that would see the candidate.** -/
theorem Sound.admits (sound : Sound tree) {scope other generation : Nat}
    {definition : CapabilityDefinition} {expectation : PublishExpectation}
    {dependencies : ResolvedDependencies ν}
    (admitted : tree.topology.admitPreconstructed scope definition expectation dependencies =
      .ok generation) (live : tree.topology.live other) (isOpen : (tree.topology.level other).isOpen)
    (affects : tree.topology.candidateAffects scope definition.id
      (other :: tree.topology.ancestors other)) :
    ((tree.topology.graph other).insert definition).Valid := by
  have open_ := isOpen_of_admitted admitted
  unfold Topology.admitPreconstructed at admitted
  obtain ⟨_, _, rest⟩ := except_bind_ok.mp admitted
  split at rest
  · cases rest
  · obtain ⟨descendants, rest⟩ := except_then_ok.mp rest
    obtain ⟨_, rest⟩ := except_then_ok.mp rest
    obtain ⟨own, _⟩ := except_then_ok.mp rest
    by_cases here : other = scope
    · subst here
      unfold Scope.validateWithEntries at own
      rw [Topology.visibleGraphWithEntries_eq open_] at own
      split at own
      · cases own
      · exact valid_of_validate ‹_›
    · have above : scope ∈ tree.topology.ancestors other := by
        rcases List.mem_cons.mp (Topology.mem_of_affects affects) with same | inside
        · exact absurd same.symm here
        · exact inside
      have each := forM_ok.mp descendants other
        (sound.grounded.mem_liveDescendants.mpr ⟨live, above⟩)
      rw [if_pos ⟨isOpen, affects⟩] at each
      exact valid_of_validateCandidate each

/-! ### Every visible graph stays valid -/

/-- **Every live open scope sees a valid graph.** -/
def Visible (tree : ScopeTree ν) : Prop :=
  ∀ scope, tree.topology.live scope → (tree.topology.level scope).isOpen →
    (tree.topology.graph scope).Valid

theorem visible_root : Visible (root : ScopeTree ν) := by
  intro scope live _
  have named : (root : ScopeTree ν).topology.Named := sound_root.named
  have nothing : ∀ id : Id, ((root : ScopeTree ν).topology.graph scope).definitions[id]? = none := by
    intro id
    rw [named.graph_lookup]
    cases held : ((root : ScopeTree ν).topology.view scope).get id with
    | none => rfl
    | some handle =>
      obtain ⟨holder, _, found⟩ := Topology.get_held held
      have empty : ((root : ScopeTree ν).topology.level holder).entries = ∅ := by
        cases holder <;> rfl
      rw [empty, ExtTreeMap.getElem?_empty] at found
      cases found
  have free : ∀ capability dependency : Id,
      ¬ ((root : ScopeTree ν).topology.graph scope).Requires capability dependency := by
    rintro capability dependency ⟨definition, found, _⟩
    rw [nothing] at found
    cases found
  refine ⟨fun capability dependency requires => absurd requires (free _ _), fun capability cycle => ?_⟩
  obtain ⟨_, first, _⟩ := Relation.TransGen.head'_iff.mp cycle
  exact free _ _ first

theorem Sound.path_open (sound : Sound tree) {scope : Nat} (live : tree.topology.live scope)
    (isOpen : (tree.topology.level scope).isOpen) :
    ∀ member ∈ scope :: tree.topology.ancestors scope, (tree.topology.level member).isOpen := by
  intro member inside
  rcases List.mem_cons.mp inside with rfl | above
  · exact isOpen
  · exact sound.openUp scope live isOpen member above

theorem Visible.installed (sound : Sound tree) (visible : Visible tree) {begun : Publication ν}
    {generation : Nat} (live : tree.topology.live begun.scope)
    (admitted : tree.topology.admitPreconstructed begun.scope begun.definition begun.expectation
      begun.dependencies = .ok generation) {handle : CapabilityHandle ν}
    (defines : handle.definition = begun.definition) {scope : Nat}
    (lives : (tree.topology.install begun.scope handle).live scope)
    (isOpen : ((tree.topology.install begun.scope handle).level scope).isOpen) :
    ((tree.topology.install begun.scope handle).graph scope).Valid := by
  rw [(tree.topology.sameShape_install begun.scope handle).live] at lives
  rw [Topology.isOpen_install] at isOpen
  rw [sound.named.graph_install live (sound.path_open lives isOpen)]
  by_cases affects : tree.topology.candidateAffects begun.scope handle.definition.id
      (scope :: tree.topology.ancestors scope)
  · rw [if_pos affects, defines]
    rw [defines] at affects
    exact sound.admits admitted lives isOpen affects
  · rw [if_neg affects]
    exact visible scope lives isOpen

theorem Visible.grown (sound : Sound tree) (visible : Visible tree) {scope : Nat}
    (live : tree.topology.live scope) :
    Visible { tree with topology := tree.topology.child scope } := by
  have after : (tree.topology.child scope).Named := (sound.child live).named
  intro other lives isOpen
  show ((tree.topology.child scope).graph other).Valid
  have lives : (tree.topology.child scope).live other := lives
  have isOpen : ((tree.topology.child scope).level other).isOpen := isOpen
  have same (member : Nat) (inside : member ∈ scope :: tree.topology.ancestors scope) :
      (tree.topology.child scope).level member = tree.topology.level member :=
    Topology.level_child_ne (sound.grounded.ne_length live inside)
  have above : (tree.topology.ancestors scope).map (tree.topology.child scope).level =
      (tree.topology.ancestors scope).map tree.topology.level :=
    List.map_congr_left fun member inside => same member (List.mem_cons_of_mem _ inside)
  by_cases fresh : other = tree.topology.scopes.length
  · subst fresh
    rw [Topology.level_child_self] at isOpen
    have seen : (tree.topology.child scope).graph tree.topology.scopes.length =
        tree.topology.graph scope := by
      refine sound.named.graph_congr after fun id => ?_
      unfold Topology.view
      rw [Topology.ancestors_child_self, Topology.level_child_self]
      unfold Scope.get
      rw [List.map_cons, above, same scope List.mem_cons_self, Scope.lookupLevels]
      rw [if_pos isOpen, ExtTreeMap.getElem?_empty]
    rw [seen]
    exact visible scope live isOpen
  · rw [Topology.live_child_ne fresh] at lives
    rw [Topology.level_child_ne fresh] at isOpen
    have seen : (tree.topology.child scope).graph other = tree.topology.graph other := by
      refine sound.named.graph_congr after fun id => ?_
      unfold Topology.view
      rw [Topology.ancestors_child_ne fresh, Topology.level_child_ne fresh]
      congr 2
      exact List.map_congr_left fun member inside => Topology.level_child_ne
        (sound.grounded.ne_length lives (List.mem_cons_of_mem _ inside))
    rw [seen]
    exact visible other lives isOpen

theorem Visible.emptied (visible : Visible tree) {scope : Nat} {lifecycle : Lifecycle}
    (closes : lifecycle ≠ .opened)
    (below : ∀ other, tree.topology.Below scope other → (tree.topology.level other).isOpen = false) :
    Visible { tree with topology := tree.topology.empty scope lifecycle } := by
  intro other lives isOpen
  show ((tree.topology.empty scope lifecycle).graph other).Valid
  have shape := tree.topology.sameShape_empty scope lifecycle
  have lives : tree.topology.live other := (shape.live other) ▸ lives
  have isOpen : ((tree.topology.empty scope lifecycle).level other).isOpen := isOpen
  have different : scope ≠ other := by
    rintro rfl
    rw [Topology.level_empty closes] at isOpen
    cases isOpen
  have same : (tree.topology.empty scope lifecycle).level other = tree.topology.level other :=
    Topology.level_modify_ne _ different
  rw [same] at isOpen
  have apart : scope ∉ other :: tree.topology.ancestors other := by
    intro inside
    rcases List.mem_cons.mp inside with equal | above
    · exact different equal
    · rw [below other ⟨lives, above⟩] at isOpen
      cases isOpen
  have seen : (tree.topology.empty scope lifecycle).graph other = tree.topology.graph other := by
    unfold Topology.graph Topology.empty
    rw [Topology.view_modify _ apart]
    exact fun _ => rfl
  rw [seen]
  exact visible other lives isOpen

theorem Visible.released (visible : Visible tree) (scope : Nat) :
    Visible { tree with topology := tree.topology.release scope } := by
  intro other lives isOpen
  show ((tree.topology.release scope).graph other).Valid
  have isOpen : ((tree.topology.release scope).level other).isOpen := isOpen
  rw [Topology.level_release] at isOpen
  have seen : (tree.topology.release scope).graph other = tree.topology.graph other := by
    unfold Topology.graph Topology.view
    rw [Topology.ancestors_release, Topology.level_release]
    congr 3
    exact funext fun member => Topology.level_release scope member
  rw [seen]
  exact visible other (Topology.live_release lives).2 isOpen

/-- **A change that withdraws nothing keeps every visible graph valid.** -/
theorem Visible.retains (sound : Sound tree) (visible : Visible tree)
    (retains : tree.Retains next) : Visible next := by
  cases retains with
  | noted pending nextEntryId poisoned kept onward => exact visible
  | began begun live resolved isNew => exact visible
  | grown scope live => exact visible.grown sound live
  | installed begun pending generation value live member kept admitted =>
    exact fun scope lives isOpen => visible.installed sound live admitted rfl lives isOpen
  | emptied scope lifecycle closes below => exact visible.emptied closes below
  | released scope live releasable => exact visible.released scope

theorem Visible.keeps (sound : Sound tree) (visible : Visible tree) (keeps : tree.Keeps next) :
    Sound next ∧ Visible next := by
  induction keeps with
  | refl => exact ⟨sound, visible⟩
  | tail _ retains ih => exact ⟨ih.1.retains retains, ih.2.retains ih.1 retains⟩

theorem Visible.run (sound : Sound tree) (visible : Visible tree) {calls : List (ScopeCall ν)}
    (keeps : ∀ call ∈ calls, call.withdraws = false) :
    Sound (tree.run calls) ∧ Visible (tree.run calls) := by
  induction calls generalizing tree with
  | nil => exact ⟨sound, visible⟩
  | cons call rest ih =>
    obtain ⟨first, others⟩ := List.forall_mem_cons.mp keeps
    obtain ⟨after, seen⟩ := visible.keeps sound (step_keeps sound.grounded sound.loads first)
    exact ih after seen others

/-! ### What a publication pins -/

/-- An entry identity belongs to one publication. -/
theorem Sound.same_entry (sound : Sound tree) {scope other : Nat}
    {first second : CapabilityHandle ν} (member : (scope, first) ∈ tree.published)
    (inside : (other, second) ∈ tree.published) (same : first.entryId = second.entryId) :
    first = second :=
  congrArg Prod.snd (List.inj_on_of_nodup_map sound.unique member inside same)

/-- **An admitted snapshot is what the scope sees at that moment.** -/
theorem Sound.pins (sound : Sound tree) {scope generation : Nat}
    {definition : CapabilityDefinition} {expectation : PublishExpectation}
    {dependencies : ResolvedDependencies ν}
    (snapshot : Snapshot tree.published definition dependencies)
    (admitted : tree.topology.admitPreconstructed scope definition expectation dependencies =
      .ok generation) :
    ∀ dependency ∈ dependencies,
      (tree.topology.view scope).get dependency.1 = some dependency.2 := by
  unfold Topology.admitPreconstructed at admitted
  obtain ⟨current, resolved, rest⟩ := except_bind_ok.mp admitted
  obtain ⟨listed, found⟩ := Topology.resolved_of_mapM resolved
  split at rest
  · cases rest
  · rename_i unchanged
    rintro ⟨id, pinned⟩ member
    have required : id ∈ definition.dependencies.toList := by
      rw [← snapshot.listed]
      exact List.mem_map.mpr ⟨_, member, rfl⟩
    obtain ⟨⟨_, now⟩, inside, rfl⟩ := List.mem_map.mp (listed ▸ required)
    -- both lists name each requirement once, so the comparison is about these two handles
    have same := of_not_not (of_decide_eq_false
      (Bool.eq_false_iff.mpr (List.find?_eq_none.mp unchanged _ required)))
    unfold Scope.entryOf at same
    rw [lookup_of_mem (by rw [listed]; exact nodup_toList _) inside,
      lookup_of_mem (by rw [snapshot.listed]; exact nodup_toList _) member] at same
    have entryId : now.entryId = pinned.entryId := congrArg Prod.snd (Option.some.inj same)
    have seen := found _ inside
    obtain ⟨holder, _, held⟩ := Topology.get_held seen
    obtain ⟨_, known⟩ := sound.recorded holder _ now held
    obtain ⟨_, other, published⟩ := snapshot.known _ member
    rw [← sound.same_entry known published entryId]
    exact seen

/-- **What a successful publication does**: it installs an entry that pins what its scope sees at
that moment, with the first generation in a vacant slot and the next one in a replaced slot. -/
structure Publishes (tree : ScopeTree ν) (begun : Publication ν) (handle : CapabilityHandle ν)
    (next : ScopeTree ν) : Prop where
  topology : next.topology = tree.topology.install begun.scope handle
  definition : handle.definition = begun.definition
  listed : handle.dependencies.map Prod.fst = begun.definition.dependencies.toList
  visible : ∀ dependency ∈ handle.dependencies,
    (tree.topology.view begun.scope).get dependency.1 = some dependency.2
  generation : Allocates (tree.topology.level begun.scope).entries begun.definition.id
    begun.expectation handle.generation

theorem Sound.publishes (sound : Sound tree) {call : ScopeCall ν} {handle : CapabilityHandle ν}
    (answered : (tree.step call).1 = .published handle) :
    ∃ publication begun result, call = .constructed publication result ∧
      tree.pending[publication]? = some (some begun) ∧
        Publishes tree begun handle (tree.step call).2 := by
  rcases sound.step_published call with
    silent | ⟨publication, begun, value, generation, rfl, installs⟩
  · exact absurd answered (silent.answer handle)
  · rw [installs.result] at answered ⊢
    cases answered
    have snapshot := sound.snapshots begun (List.mem_of_getElem? installs.found)
    exact ⟨publication, begun, _, rfl, installs.found, rfl, rfl, snapshot.listed,
      sound.pins snapshot installs.admitted, (allocates_of_admitted installs.admitted).2⟩

/-- The answer of a call that fails, or that only begins a publication. -/
def Unfinished : ScopeAnswer ν → Prop
  | .failed _ => True
  | .constructs _ => True
  | _ => False

/-- A call with such an answer changes no scope. -/
def Leaves (tree : ScopeTree ν) (after : ScopeAnswer ν × ScopeTree ν) : Prop :=
  Unfinished after.1 → after.2.topology = tree.topology

theorem Leaves.locked {scope : Nat} {after : ScopeAnswer ν × ScopeTree ν}
    (leaves : Leaves tree after) : Leaves tree (tree.locked scope after) := by
  unfold ScopeTree.locked
  split
  · exact fun _ => rfl
  · split
    · exact fun _ => rfl
    · exact leaves

theorem Sound.leaves (sound : Sound tree) (call : ScopeCall ν) : Leaves tree (tree.step call) := by
  cases call with
  | child scope => exact Leaves.locked fun unfinished => unfinished.elim
  | publish scope definition expectation =>
    apply Leaves.locked
    split <;> exact fun _ => rfl
  | load scope definition context =>
    simp only [ScopeTree.step]
    split
    · exact fun _ => rfl
    · split <;> exact fun _ => rfl
  | constructed publication result =>
    rcases sound.constructed_cases publication result with
      ⟨same, _⟩ | ⟨begun, value, generation, rfl, installs⟩
    · exact fun _ => same
    · rw [installs.result]
      exact fun unfinished => unfinished.elim
  | withdraw scope capability expected =>
    apply Leaves.locked
    unfold ScopeTree.withdraw
    split
    · exact fun _ => rfl
    · exact fun unfinished => unfinished.elim
  | teardown scope =>
    apply Leaves.locked
    unfold ScopeTree.teardown
    split <;> exact fun unfinished => unfinished.elim
  | release scope =>
    simp only [ScopeTree.step]
    split
    · exact fun unfinished => unfinished.elim
    · exact fun _ => rfl
  | elsewhere =>
    simp only [ScopeTree.step]
    split <;> exact fun _ => rfl

/-! ### Every run -/

/-- **What admission promises at a tree.** -/
structure Admits (tree : ScopeTree ν) : Prop where
  valid : ∀ scope, tree.topology.live scope → (tree.topology.level scope).isOpen →
    (tree.topology.view scope).visibleGraph.Valid
  failed : ∀ call, Unfinished (tree.step call).1 →
    ∀ scope, (tree.step call).2.topology.level scope = tree.topology.level scope
  published : ∀ call handle, (tree.step call).1 = .published handle →
    ∃ publication begun result, call = .constructed publication result ∧
      tree.pending[publication]? = some (some begun) ∧
        Publishes tree begun handle (tree.step call).2

/-- **Admission over every run without withdrawals.** -/
theorem admission_sound (calls : List (ScopeCall ν))
    (keeps : ∀ call ∈ calls, call.withdraws = false) : Admits ((root : ScopeTree ν).run calls) := by
  obtain ⟨sound, visible⟩ := visible_root.run sound_root keeps
  refine ⟨visible, fun call unfinished scope => ?_, fun call handle answered =>
    sound.publishes answered⟩
  rw [sound.leaves call unfinished]

/-- A capability, and a child scope that publishes one over it. -/
def layered : List (ScopeCall Unit) :=
  [.publish 0 (sampleDefinition sampleA []) .new, .child 0, .constructed 0 (.ok ()),
    .publish 1 (sampleDefinition sampleB [sampleA]) .new, .constructed 1 (.ok ()),
    .publish 0 (sampleDefinition sampleA []) (.replace 1), .teardown 1, .constructed 2 (.ok ())]

theorem admission_sound_layered :
    (∀ call ∈ layered, call.withdraws = false) ∧ Admits ((root : ScopeTree Unit).run layered) :=
  ⟨by decide, admission_sound layered (by decide)⟩

end ScopeTree

end Kernis
