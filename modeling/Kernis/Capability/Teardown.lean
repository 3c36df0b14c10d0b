/-
**Teardown orders.**

A teardown orders the entries of a scope by a graph that holds the current definitions and, for what
they pin besides, the definition that is met first. Pinned publications may be older than those that
replaced them, so this graph is always closed, but not always acyclic.

* `holdings` — the entries of a scope and what they pin, depth first, down to current entries.
* `runtimeGraph_lookup` — the graph holds the first definition under each identifier.
* `Tangled` — those definitions require each other in a cycle; `teardownOrder_iff`: then, and only
  then, there is no order.
* `Finishes` — a teardown ends, and it leaves its scope and every live descendant closed and empty.
* `teardown_finishes` — when it does, over every run.
-/

import Kernis.Capability.Admission

namespace Kernis

open Std

variable {ν : Type}

/-! ### What a scope holds on to -/

mutual

/-- A handle and what it pins, depth first; a current entry ends the descent. -/
def pinned (current : List Nat) : CapabilityHandle ν → List (CapabilityHandle ν)
  | ⟨definition, value, dependencies, generation, entryId⟩ =>
    if entryId ∈ current then []
    else ⟨definition, value, dependencies, generation, entryId⟩ :: pinnedBy current dependencies

def pinnedBy (current : List Nat) : List (Id × CapabilityHandle ν) → List (CapabilityHandle ν)
  | [] => []
  | (_, handle) :: rest => pinned current handle ++ pinnedBy current rest

end

/-- The identities of the current entries of a scope. -/
def currentIds (entries : BTreeMap Id (CapabilityHandle ν)) : List Nat :=
  (valuesOf entries).map CapabilityHandle.entryId

/-- The entries of a scope, then what they pin. -/
def holdings (entries : BTreeMap Id (CapabilityHandle ν)) : List (CapabilityHandle ν) :=
  valuesOf entries ++
    (valuesOf entries).flatMap fun entry => pinnedBy (currentIds entries) entry.dependencies

/-- The first of some handles under an identifier. -/
def firstOf (handles : List (CapabilityHandle ν)) (id : Id) : Option (CapabilityHandle ν) :=
  handles.find? fun handle => handle.definition.id = id

/-- The first holding under one identifier requires another. -/
def Tied (entries : BTreeMap Id (CapabilityHandle ν)) (capability dependency : Id) : Prop :=
  ∃ handle, firstOf (holdings entries) capability = some handle ∧
    dependency ∈ handle.definition.dependencies

/-- **The holdings of a scope require each other in a cycle.** -/
def Tangled (entries : BTreeMap Id (CapabilityHandle ν)) : Prop :=
  ∃ capability, Relation.TransGen (Tied entries) capability capability

theorem pinned_eq (current : List Nat) (handle : CapabilityHandle ν) :
    pinned current handle = if handle.entryId ∈ current then []
      else handle :: pinnedBy current handle.dependencies := by
  cases handle
  rw [pinned]

theorem insertSnapshot_eq (handle : CapabilityHandle ν) (snapshots : Snapshots) :
    insertSnapshot handle snapshots = if handle.entryId ∈ snapshots.visited then snapshots
      else insertSnapshots handle.dependencies
        ⟨if handle.definition.id ∈ snapshots.graph.definitions then snapshots.graph
          else snapshots.graph.insert handle.definition, snapshots.visited.insert handle.entryId⟩ := by
  cases handle
  rw [insertSnapshot]

theorem firstOf_append (first second : List (CapabilityHandle ν)) (id : Id) :
    firstOf (first ++ second) id = (firstOf first id).or (firstOf second id) :=
  List.find?_append

theorem firstOf_none {handles : List (CapabilityHandle ν)} {id : Id} :
    firstOf handles id = none ↔ ∀ handle ∈ handles, handle.definition.id ≠ id := by
  unfold firstOf
  rw [List.find?_eq_none]
  simp only [decide_eq_true_eq, ne_eq]

theorem firstOf_some {handles : List (CapabilityHandle ν)} {id : Id} {handle : CapabilityHandle ν}
    (found : firstOf handles id = some handle) : handle ∈ handles ∧ handle.definition.id = id := by
  unfold firstOf at found
  have named := List.find?_some found
  exact ⟨List.mem_of_find?_eq_some found, of_decide_eq_true named⟩

/-- Handles that were there before are not the first. -/
theorem firstOf_absorb {held more : List (CapabilityHandle ν)} (known : ∀ handle ∈ more, handle ∈ held)
    (id : Id) : firstOf (held ++ more) id = firstOf held id := by
  rw [firstOf_append]
  cases found : firstOf held id with
  | some handle => rfl
  | none =>
    rw [Option.none_or, firstOf_none]
    exact fun handle member => firstOf_none.mp found handle (known handle member)

/-! ### What the search collects -/

/-- The handles of a tree: one pins a handle for each requirement, all of them older, and an identity
belongs to one handle. -/
structure Pinning (known : CapabilityHandle ν → Prop) : Prop where
  listed : ∀ handle, known handle →
    handle.dependencies.map Prod.fst = handle.definition.dependencies.toList
  named : ∀ handle, known handle → ∀ dependency ∈ handle.dependencies,
    dependency.2.definition.id = dependency.1
  older : ∀ handle, known handle → ∀ dependency ∈ handle.dependencies,
    known dependency.2 ∧ dependency.2.entryId < handle.entryId
  unique : ∀ first second, known first → known second → first.entryId = second.entryId →
    first = second

/-- **What has been collected**: the first definition under each identifier, and all identities. -/
structure Collects (held : List (CapabilityHandle ν)) (snapshots : Snapshots) : Prop where
  graph : ∀ id : Id, snapshots.graph.definitions[id]? =
    (firstOf held id).map CapabilityHandle.definition
  visited : ∀ entryId : Nat, entryId ∈ snapshots.visited ↔
    ∃ handle ∈ held, handle.entryId = entryId

/-- Of what is held, everything below a bound is held with all that it pins. -/
def Complete (current : List Nat) (bound : Nat) (held : List (CapabilityHandle ν)) : Prop :=
  ∀ handle ∈ held, handle.entryId < bound → ∀ other ∈ pinned current handle, other ∈ held

theorem Collects.absorb {held more : List (CapabilityHandle ν)} {snapshots : Snapshots}
    (collects : Collects held snapshots) (known : ∀ handle ∈ more, handle ∈ held) :
    Collects (held ++ more) snapshots := by
  refine ⟨fun id => (collects.graph id).trans (by rw [firstOf_absorb known]), fun entryId => ?_⟩
  rw [collects.visited]
  constructor
  · rintro ⟨handle, member, same⟩
    exact ⟨handle, List.mem_append_left _ member, same⟩
  · rintro ⟨handle, member, same⟩
    rcases List.mem_append.mp member with old | new
    · exact ⟨handle, old, same⟩
    · exact ⟨handle, known handle new, same⟩

/-- Collecting one handle that is new. -/
theorem Collects.push {held : List (CapabilityHandle ν)} {snapshots : Snapshots}
    (collects : Collects held snapshots) (handle : CapabilityHandle ν) :
    Collects (held ++ [handle])
      ⟨if handle.definition.id ∈ snapshots.graph.definitions then snapshots.graph
        else snapshots.graph.insert handle.definition, snapshots.visited.insert handle.entryId⟩ := by
  have single (id : Id) :
      firstOf [handle] id = if handle.definition.id = id then some handle else none := by
    unfold firstOf
    rw [List.find?_cons]
    by_cases same : handle.definition.id = id
    · rw [if_pos same, decide_eq_true same]
    · rw [if_neg same, decide_eq_false same]
      rfl
  refine ⟨fun id => ?_, fun entryId => ?_⟩
  · rw [firstOf_append, single]
    by_cases defined : handle.definition.id ∈ snapshots.graph.definitions
    · show (if _ then _ else _ : CapabilityGraph).definitions[id]? = _
      rw [if_pos defined, collects.graph]
      by_cases same : handle.definition.id = id
      · obtain ⟨definition, found⟩ := exists_lookup_of_mem (same ▸ defined)
        rw [collects.graph] at found
        obtain ⟨first, earlier, _⟩ := Option.map_eq_some_iff.mp found
        rw [earlier, Option.some_or]
      · rw [if_neg same, Option.or_none]
    · show (if _ then _ else _ : CapabilityGraph).definitions[id]? = _
      rw [if_neg defined]
      by_cases same : handle.definition.id = id
      · subst same
        have none := lookup_none_of_not_mem defined
        rw [collects.graph, Option.map_eq_none_iff] at none
        rw [none, if_pos rfl, Option.none_or]
        exact lookup_insert_self _ _ _
      · rw [if_neg same, Option.or_none, ← collects.graph]
        exact lookup_insert_ne _ _ same
  · rw [ExtTreeSet.mem_insert, collects.visited, Std.compare_eq_iff_eq]
    simp only [List.mem_append, List.mem_singleton, or_and_right, exists_or, exists_eq_left]
    exact or_comm

/-- What older handles pin is older still. -/
theorem pinnedBy_below {known : CapabilityHandle ν → Prop} (pinning : Pinning known)
    {current : List Nat} (bound : Nat) {handles : List (Id × CapabilityHandle ν)}
    (below : ∀ dependency ∈ handles, known dependency.2 ∧ dependency.2.entryId < bound) :
    ∀ other ∈ pinnedBy current handles, known other ∧ other.entryId < bound := by
  induction bound using Nat.strongRecOn generalizing handles with
  | ind bound ih =>
    induction handles with
    | nil =>
      intro other member
      rw [pinnedBy] at member
      cases member
    | cons dependency rest ihRest =>
      obtain ⟨id, handle⟩ := dependency
      obtain ⟨⟨isKnown, older⟩, others⟩ := List.forall_mem_cons.mp below
      intro other member
      rw [pinnedBy, pinned_eq] at member
      rcases List.mem_append.mp member with here | further
      · split at here
        · cases here
        · rcases List.mem_cons.mp here with rfl | deeper
          · exact ⟨isKnown, older⟩
          · obtain ⟨known, young⟩ :=
              ih handle.entryId older (pinning.older handle isKnown) other deeper
            exact ⟨known, Nat.lt_trans young older⟩
      · exact ihRest others other further

/-- **Collecting what some handles pin**, by induction on a bound of their identities: what is
visited already has been collected with all that it pins. -/
theorem collects_insertSnapshots {known : CapabilityHandle ν → Prop} (pinning : Pinning known)
    {current : List Nat} (bound : Nat) {handles : List (Id × CapabilityHandle ν)}
    (below : ∀ dependency ∈ handles, known dependency.2 ∧ dependency.2.entryId < bound)
    {held : List (CapabilityHandle ν)} {snapshots : Snapshots} (collects : Collects held snapshots)
    (knows : ∀ handle ∈ held, known handle)
    (has : ∀ entryId ∈ current, ∃ handle ∈ held, handle.entryId = entryId)
    (complete : Complete current bound held) :
    Collects (held ++ pinnedBy current handles) (insertSnapshots handles snapshots) ∧
      (∀ handle ∈ held ++ pinnedBy current handles, known handle) ∧
        Complete current bound (held ++ pinnedBy current handles) := by
  induction bound using Nat.strongRecOn generalizing handles held snapshots with
  | ind bound ih =>
    induction handles generalizing held snapshots with
    | nil =>
      rw [pinnedBy, insertSnapshots, List.append_nil]
      exact ⟨collects, knows, complete⟩
    | cons dependency rest ihRest =>
      obtain ⟨id, handle⟩ := dependency
      obtain ⟨⟨isKnown, older⟩, others⟩ := List.forall_mem_cons.mp below
      rw [pinnedBy, insertSnapshots, ← List.append_assoc]
      have first : Collects (held ++ pinned current handle) (insertSnapshot handle snapshots) ∧
          (∀ other ∈ held ++ pinned current handle, known other) ∧
            Complete current bound (held ++ pinned current handle) := by
        rw [insertSnapshot_eq]
        by_cases visited : handle.entryId ∈ snapshots.visited
        · rw [if_pos visited]
          obtain ⟨same, inside, equal⟩ := (collects.visited _).mp visited
          cases pinning.unique same handle (knows same inside) isKnown equal
          have whole := complete handle inside older
          refine ⟨collects.absorb whole, fun other member => ?_, fun other member young more place => ?_⟩
          · rcases List.mem_append.mp member with old | new
            · exact knows other old
            · exact knows other (whole other new)
          · rcases List.mem_append.mp member with old | new
            · exact List.mem_append_left _ (complete other old young more place)
            · exact List.mem_append_left _ (complete other (whole other new) young more place)
        · rw [if_neg visited]
          have absent : handle.entryId ∉ current := fun inside =>
            visited ((collects.visited _).mpr (has _ inside))
          have expanded : pinned current handle = handle :: pinnedBy current handle.dependencies := by
            rw [pinned_eq, if_neg absent]
          have step := ih handle.entryId older (pinning.older handle isKnown)
            (collects.push handle)
            (fun other member => by
              rcases List.mem_append.mp member with old | new
              · exact knows other old
              · cases List.mem_singleton.mp new
                exact isKnown)
            (fun entryId member => by
              obtain ⟨other, inside, same⟩ := has entryId member
              exact ⟨other, List.mem_append_left _ inside, same⟩)
            (fun other member young more place => by
              rcases List.mem_append.mp member with old | new
              · exact List.mem_append_left _
                  (complete other old (Nat.lt_trans young older) more place)
              · cases List.mem_singleton.mp new
                exact absurd young (Nat.lt_irrefl _))
          rw [List.append_assoc, List.singleton_append, ← expanded] at step
          obtain ⟨collected, allKnown, inner⟩ := step
          refine ⟨collected, allKnown, fun other member young more place => ?_⟩
          rcases List.mem_append.mp member with old | new
          · exact List.mem_append_left _ (complete other old young more place)
          · have placed := new
            rw [expanded] at placed
            rcases List.mem_cons.mp placed with rfl | deeper
            · exact List.mem_append_right _ place
            · exact inner other member
                (pinnedBy_below pinning _ (pinning.older handle isKnown) other deeper).2 more place
      obtain ⟨collected, allKnown, inner⟩ := first
      exact ihRest others collected allKnown (fun entryId member => by
        obtain ⟨other, inside, same⟩ := has entryId member
        exact ⟨other, List.mem_append_left _ inside, same⟩) inner

/-- The graph of the current definitions. -/
theorem collects_current {values : List (CapabilityHandle ν)}
    (distinct : (values.map fun handle => handle.definition.id).Nodup) :
    Collects values (values.foldl (fun snapshots entry =>
      ⟨snapshots.graph.insert entry.definition, snapshots.visited.insert entry.entryId⟩)
        ⟨.empty, ∅⟩) := by
  induction values using List.reverseRecOn with
  | nil =>
    refine ⟨fun id => ExtTreeMap.getElem?_empty, fun entryId => ?_⟩
    simp
  | append_singleton values last ih =>
    rw [List.map_append, List.nodup_append] at distinct
    have before := ih distinct.1
    have pushed := before.push last
    rw [List.foldl_append, List.foldl_cons, List.foldl_nil]
    have fresh : last.definition.id ∉ (values.foldl (fun (snapshots : Snapshots) entry =>
        ⟨snapshots.graph.insert entry.definition, snapshots.visited.insert entry.entryId⟩)
          ⟨.empty, ∅⟩).graph.definitions := by
      intro inside
      obtain ⟨definition, found⟩ := exists_lookup_of_mem inside
      rw [before.graph] at found
      obtain ⟨handle, first, _⟩ := Option.map_eq_some_iff.mp found
      obtain ⟨member, named⟩ := firstOf_some first
      exact distinct.2.2 _ (List.mem_map.mpr ⟨handle, member, rfl⟩) _ (List.mem_singleton_self _)
        named
    rw [if_neg fresh] at pushed
    exact pushed

/-- The entries of one scope, among the handles of a tree. -/
structure Held (known : CapabilityHandle ν → Prop) (entries : BTreeMap Id (CapabilityHandle ν)) :
    Prop where
  named : ∀ (id : Id) (entry : CapabilityHandle ν), entries[id]? = some entry →
    entry.definition.id = id
  known : ∀ (id : Id) (entry : CapabilityHandle ν), entries[id]? = some entry → known entry

variable {known : CapabilityHandle ν → Prop} {entries : BTreeMap Id (CapabilityHandle ν)}

theorem Held.distinct (held : Held known entries) :
    ((valuesOf entries).map fun handle => handle.definition.id).Nodup := by
  unfold valuesOf
  rw [List.map_map]
  have same : entries.toList.map ((fun handle => handle.definition.id) ∘ Prod.snd) =
      entries.toList.map Prod.fst :=
    List.map_congr_left fun entry member =>
      held.named entry.1 entry.2 (ExtTreeMap.mem_toList_iff_getElem?_eq_some.mp member)
  rw [same]
  exact nodup_names entries

/-- **What the teardown graph collects**: the holdings of the scope. -/
theorem runtimeGraph_collects (pinning : Pinning known) (held : Held known entries)
    {bound : Nat} (young : ∀ handle, known handle → handle.entryId < bound) :
    ∃ snapshots : Snapshots, snapshots.graph = runtimeGraph entries ∧
      Collects (holdings entries) snapshots ∧
        Complete (currentIds entries) bound (holdings entries) := by
  have isKnown : ∀ entry ∈ valuesOf entries, known entry := by
    intro entry member
    obtain ⟨id, found⟩ := mem_valuesOf.mp member
    exact held.known id entry found
  have each : ∀ (values : List (CapabilityHandle ν)), (∀ entry ∈ values, entry ∈ valuesOf entries) →
      ∀ (before : List (CapabilityHandle ν)) (snapshots : Snapshots),
        Collects (valuesOf entries ++ before) snapshots →
        (∀ handle ∈ valuesOf entries ++ before, known handle) →
        Complete (currentIds entries) bound (valuesOf entries ++ before) →
        Collects (valuesOf entries ++ (before ++ values.flatMap fun entry =>
            pinnedBy (currentIds entries) entry.dependencies))
          (values.foldl (fun snapshots entry => insertSnapshots entry.dependencies snapshots)
            snapshots) ∧
        Complete (currentIds entries) bound (valuesOf entries ++ (before ++ values.flatMap
          fun entry => pinnedBy (currentIds entries) entry.dependencies)) := by
    intro values
    induction values with
    | nil =>
      intro _ before snapshots collects _ complete
      rw [List.flatMap_nil, List.append_nil]
      exact ⟨collects, complete⟩
    | cons entry rest ih =>
      intro inside before snapshots collects knows complete
      obtain ⟨first, others⟩ := List.forall_mem_cons.mp inside
      have older : ∀ dependency ∈ entry.dependencies,
          known dependency.2 ∧ dependency.2.entryId < bound := fun dependency member =>
        have facts := pinning.older entry (isKnown entry first) dependency member
        ⟨facts.1, young _ facts.1⟩
      obtain ⟨collected, allKnown, inner⟩ := collects_insertSnapshots pinning bound older collects
        knows (fun entryId member => by
          obtain ⟨handle, place, same⟩ := List.mem_map.mp member
          exact ⟨handle, List.mem_append_left _ place, same⟩) complete
      rw [List.append_assoc] at collected allKnown inner
      rw [List.flatMap_cons, ← List.append_assoc before]
      exact ih others _ _ collected allKnown inner
  have started := each (valuesOf entries) (fun _ member => member) [] _
    (by rw [List.append_nil]; exact collects_current held.distinct)
    (by rw [List.append_nil]; exact isKnown) (by
      rw [List.append_nil]
      intro handle member _ other place
      have here : handle.entryId ∈ currentIds entries := List.mem_map.mpr ⟨handle, member, rfl⟩
      rw [pinned_eq, if_pos here] at place
      cases place)
  exact ⟨_, rfl, started⟩

theorem mem_pinnedBy {current : List Nat} {handles : List (Id × CapabilityHandle ν)} {id : Id}
    {handle other : CapabilityHandle ν} (member : (id, handle) ∈ handles)
    (place : other ∈ pinned current handle) : other ∈ pinnedBy current handles := by
  induction handles with
  | nil => cases member
  | cons dependency rest ih =>
    rw [pinnedBy]
    rcases List.mem_cons.mp member with rfl | inside
    · exact List.mem_append_left _ place
    · exact List.mem_append_right _ (ih inside)

/-- Every requirement of a holding is met by a holding. -/
theorem Held.closed (held : Held known entries) (pinning : Pinning known) {bound : Nat}
    (young : ∀ handle, known handle → handle.entryId < bound)
    (complete : Complete (currentIds entries) bound (holdings entries))
    {handle : CapabilityHandle ν} (isKnown : known handle) (member : handle ∈ holdings entries)
    {dependency : Id} (requires : dependency ∈ handle.definition.dependencies) :
    ∃ other ∈ holdings entries, other.definition.id = dependency := by
  have entry_of {other : CapabilityHandle ν} (known_ : known other)
      (inside : other.entryId ∈ currentIds entries) : other ∈ valuesOf entries := by
    obtain ⟨entry, place, same⟩ := List.mem_map.mp inside
    obtain ⟨id, found⟩ := mem_valuesOf.mp place
    cases pinning.unique entry other (held.known id entry found) known_ same
    exact place
  have pins : ∀ other ∈ pinnedBy (currentIds entries) handle.dependencies,
      other ∈ holdings entries := by
    intro other place
    by_cases current : handle.entryId ∈ currentIds entries
    · exact List.mem_append_right _
        (List.mem_flatMap.mpr ⟨handle, entry_of isKnown current, place⟩)
    · refine complete handle member (young handle isKnown) other ?_
      rw [pinned_eq, if_neg current]
      exact List.mem_cons_of_mem _ place
  rw [← ExtTreeSet.mem_toList, ← pinning.listed handle isKnown] at requires
  obtain ⟨⟨_, pin⟩, inside, rfl⟩ := List.mem_map.mp requires
  have facts := (pinning.older handle isKnown _ inside).1
  refine ⟨pin, ?_, pinning.named handle isKnown _ inside⟩
  by_cases current : pin.entryId ∈ currentIds entries
  · exact List.mem_append_left _ (entry_of facts current)
  · refine pins pin (mem_pinnedBy inside ?_)
    rw [pinned_eq, if_neg current]
    exact List.mem_cons_self

/-- Every holding is a handle of the tree. -/
theorem Held.holdings_known (held : Held known entries) (pinning : Pinning known) :
    ∀ handle ∈ holdings entries, known handle := by
  intro handle member
  have isKnown : ∀ entry ∈ valuesOf entries, known entry := by
    intro entry inside
    obtain ⟨id, found⟩ := mem_valuesOf.mp inside
    exact held.known id entry found
  rcases List.mem_append.mp member with current | further
  · exact isKnown handle current
  · obtain ⟨entry, inside, place⟩ := List.mem_flatMap.mp further
    exact (pinnedBy_below pinning _ (pinning.older entry (isKnown entry inside)) handle place).1

/-- **A scope has a teardown order if and only if it is not tangled.** -/
theorem teardownOrder_iff (pinning : Pinning known) (held : Held known entries) {bound : Nat}
    (young : ∀ handle, known handle → handle.entryId < bound) :
    (∃ order, runtimeTeardownOrder entries = .ok order) ↔ ¬ Tangled entries := by
  obtain ⟨snapshots, graph, collects, complete⟩ := runtimeGraph_collects pinning held young
  have tied : (runtimeGraph entries).Requires = Tied entries := by
    funext capability dependency
    refine propext ⟨?_, ?_⟩
    · rintro ⟨definition, found, member⟩
      rw [← graph, collects.graph] at found
      obtain ⟨handle, first, rfl⟩ := Option.map_eq_some_iff.mp found
      exact ⟨handle, first, member⟩
    · rintro ⟨handle, first, member⟩
      refine ⟨handle.definition, ?_, member⟩
      rw [← graph, collects.graph, first]
      rfl
  have resolved : (∃ order, runtimeTeardownOrder entries = .ok order) ↔
      ∃ order, (runtimeGraph entries).resolve = .ok order := by
    unfold runtimeTeardownOrder
    cases (runtimeGraph entries).resolve with
    | error error =>
      refine ⟨fun ⟨_, same⟩ => ?_, fun ⟨_, same⟩ => ?_⟩
      · cases same
      · cases same
    | ok order => exact ⟨fun _ => ⟨order, rfl⟩, fun _ => ⟨order.reverse, rfl⟩⟩
  rw [resolved, CapabilityGraph.resolve_iff]
  refine ⟨fun valid ⟨capability, cycle⟩ => valid.acyclic capability (tied ▸ cycle),
    fun free => ⟨fun capability dependency requires => ?_, fun capability cycle =>
      free ⟨capability, tied ▸ cycle⟩⟩⟩
  rw [tied] at requires
  obtain ⟨handle, first, member⟩ := requires
  obtain ⟨inside, _⟩ := firstOf_some first
  obtain ⟨other, place, named⟩ := held.closed pinning young complete
    (held.holdings_known pinning handle inside) inside member
  by_contra absent
  have none := lookup_none_of_not_mem absent
  rw [← graph, collects.graph, Option.map_eq_none_iff] at none
  exact firstOf_none.mp none other place named

/-! ### Tearing scopes down -/

namespace Topology

variable {topology : Topology ν}

/-- No scope is half torn down. -/
def Tidy (topology : Topology ν) : Prop :=
  ∀ (scope : Nat) (state : ScopeState ν), topology.scopes[scope]? = some state →
    state.lifecycle ≠ .closing

theorem Tidy.modify (tidy : topology.Tidy) (scope : Nat) {change : ScopeState ν → ScopeState ν}
    (keeps : ∀ state, state.lifecycle ≠ .closing → (change state).lifecycle ≠ .closing) :
    (topology.modify scope change).Tidy := by
  intro other state found
  rw [scopes_modify] at found
  obtain ⟨before, held, rfl⟩ := Option.map_eq_some_iff.mp found
  have sound := tidy other before held
  by_cases same : scope = other
  · rw [if_pos same]
    exact keeps before sound
  · rw [if_neg same]
    exact sound

theorem Tidy.child (tidy : topology.Tidy) (scope : Nat) : (topology.child scope).Tidy := by
  intro other state found
  by_cases fresh : other = topology.scopes.length
  · subst fresh
    rw [scopes_child_self] at found
    cases found
    show (if (topology.level scope).isOpen then Lifecycle.opened else .closed) ≠ .closing
    split
    · exact fun same => by cases same
    · exact fun same => by cases same
  · rw [scopes_child_ne fresh] at found
    exact tidy other state found

theorem Tidy.closed (tidy : topology.Tidy) (scope : Nat) : (topology.empty scope .closed).Tidy := by
  apply tidy.modify
  exact fun _ _ same => by cases same

/-- **A teardown ends if and only if every open scope has an order.** -/
theorem teardownEach_iff {scopes : List Nat} (orders : List (List Id)) :
    (∃ all, (topology.teardownEach orders scopes).1 = some all) ↔
      ∀ scope ∈ scopes, (topology.level scope).isOpen →
        ∃ order, runtimeTeardownOrder (topology.level scope).entries = .ok order := by
  induction scopes generalizing topology orders with
  | nil => exact ⟨fun _ _ member => absurd member List.not_mem_nil, fun _ => ⟨orders, rfl⟩⟩
  | cons scope rest ih =>
    rw [List.forall_mem_cons]
    unfold teardownEach
    by_cases isOpen : (topology.level scope).isOpen
    · rw [if_neg (not_not.mpr isOpen)]
      cases planned : runtimeTeardownOrder (topology.level scope).entries with
      | error error =>
        refine ⟨fun finished => ?_, fun both => ?_⟩
        · obtain ⟨_, same⟩ := finished
          cases same
        · obtain ⟨_, same⟩ := both.1 isOpen
          cases same
      | ok order =>
        refine (ih (orders ++ [order])).trans ⟨fun others => ⟨fun _ => ⟨order, rfl⟩, ?_⟩, ?_⟩
        · intro other member opened
          by_cases same : scope = other
          · subst same
            exact ⟨order, planned⟩
          · have kept := others other member
            unfold empty at kept
            rw [level_modify_ne _ same] at kept
            exact kept opened
        · rintro ⟨_, others⟩ other member opened
          by_cases same : scope = other
          · subst same
            rw [level_empty (fun same => by cases same)] at opened
            cases opened
          · unfold empty at opened ⊢
            rw [level_modify_ne _ same] at opened ⊢
            exact others other member opened
    · rw [if_pos isOpen]
      exact (ih orders).trans ⟨fun others => ⟨fun opened => absurd opened isOpen, others⟩, And.right⟩

/-- What is not open stays so. -/
theorem teardownEach_closed {scopes : List Nat} (orders : List (List Id)) {other : Nat}
    (closed : (topology.level other).isOpen = false) :
    ((topology.teardownEach orders scopes).2.level other).isOpen = false := by
  induction scopes generalizing topology orders with
  | nil => exact closed
  | cons scope rest ih =>
    unfold teardownEach
    split
    · exact ih orders closed
    · split
      · exact closed_empty (fun same => by cases same) closed
      · exact ih _ (closed_empty (fun same => by cases same) closed)

/-- A teardown that ends leaves none of its scopes open, and none half torn down. -/
theorem teardownEach_ends {scopes : List Nat} (orders : List (List Id)) (tidy : topology.Tidy)
    {all : List (List Id)} (ended : (topology.teardownEach orders scopes).1 = some all) :
    (topology.teardownEach orders scopes).2.Tidy ∧
      ∀ scope ∈ scopes, ((topology.teardownEach orders scopes).2.level scope).isOpen = false := by
  induction scopes generalizing topology orders with
  | nil => exact ⟨tidy, fun _ member => by cases member⟩
  | cons scope rest ih =>
    unfold teardownEach at ended ⊢
    by_cases isOpen : (topology.level scope).isOpen
    · rw [if_neg (not_not.mpr isOpen)] at ended ⊢
      cases planned : runtimeTeardownOrder (topology.level scope).entries with
      | error error =>
        rw [planned] at ended
        cases ended
      | ok order =>
        rw [planned] at ended
        obtain ⟨after, others⟩ := ih _ (tidy.closed scope) ended
        refine ⟨after, List.forall_mem_cons.mpr ⟨?_, others⟩⟩
        exact teardownEach_closed _ (level_empty fun same => by cases same)
    · rw [if_pos isOpen] at ended ⊢
      obtain ⟨after, others⟩ := ih orders tidy ended
      exact ⟨after, List.forall_mem_cons.mpr
        ⟨teardownEach_closed _ (Bool.eq_false_iff.mpr isOpen), others⟩⟩

end Topology

namespace ScopeTree

variable {tree next : ScopeTree ν}

/-- The handles that were published in a tree. -/
def Known (tree : ScopeTree ν) (handle : CapabilityHandle ν) : Prop :=
  ∃ scope, (scope, handle) ∈ tree.published

theorem Sound.pinning (sound : Sound tree) : Pinning tree.Known where
  listed := fun _ ⟨_, member⟩ => (sound.built _ member).listed
  named := fun _ ⟨_, member⟩ dependency inside => ((sound.built _ member).known dependency inside).1
  older := fun _ ⟨_, member⟩ dependency inside =>
    ⟨((sound.built _ member).known dependency inside).2, sound.older _ member dependency inside⟩
  unique := fun _ _ ⟨_, member⟩ ⟨_, inside⟩ same => sound.same_entry member inside same

theorem Sound.held (sound : Sound tree) (scope : Nat) :
    Held tree.Known (tree.topology.level scope).entries where
  named id entry found := (sound.recorded scope id entry found).1
  known id entry found := ⟨scope, (sound.recorded scope id entry found).2⟩

/-- **A scope of a reachable tree has a teardown order if and only if it is not tangled.** -/
theorem Sound.teardownOrder_iff (sound : Sound tree) (scope : Nat) :
    (∃ order, runtimeTeardownOrder (tree.topology.level scope).entries = .ok order) ↔
      ¬ Tangled (tree.topology.level scope).entries :=
  Kernis.teardownOrder_iff sound.pinning (sound.held scope) fun _ ⟨_, member⟩ =>
    sound.bounded _ member

/-! ### The lock -/

/-- **What the lock knows**: only a panic leaves a scope half torn down. -/
structure Orderly (tree : ScopeTree ν) : Prop where
  sound : Sound tree
  tidy : tree.poisoned = false → tree.topology.Tidy

theorem orderly_root : Orderly (root : ScopeTree ν) := by
  refine ⟨sound_root, fun _ scope state found => ?_⟩
  cases scope with
  | zero =>
    cases found
    exact fun same => by cases same
  | succ scope => cases found

/-- Under a poisoned lock every call panics. -/
theorem locked_poisoned {scope : Nat} {call : ScopeAnswer ν × ScopeTree ν}
    (poisoned : tree.poisoned = true) : (tree.locked scope call).2 = tree := by
  unfold locked
  rw [if_pos poisoned]
  split <;> rfl

theorem locked_stays {scope : Nat} {call : ScopeAnswer ν × ScopeTree ν}
    (poisoned : tree.poisoned = true) : (tree.locked scope call).2.poisoned = true := by
  rw [locked_poisoned poisoned]
  exact poisoned

/-- A poisoned lock stays poisoned. -/
theorem step_poisoned (call : ScopeCall ν) (poisoned : tree.poisoned = true) :
    (tree.step call).2.poisoned = true := by
  cases call with
  | child scope => exact locked_stays poisoned
  | publish scope definition expectation => exact locked_stays poisoned
  | load scope definition context =>
    simp only [ScopeTree.step]
    split
    · exact poisoned
    · split <;> exact poisoned
  | constructed publication result =>
    simp only [ScopeTree.step]
    split
    · unfold complete
      split
      · exact poisoned
      · split
        · unfold provideValue
          split
          · exact poisoned
          · exact locked_stays poisoned
        · exact locked_stays poisoned
    · exact poisoned
  | withdraw scope capability expected => exact locked_stays poisoned
  | teardown scope => exact locked_stays poisoned
  | release scope =>
    simp only [ScopeTree.step]
    split <;> exact poisoned
  | elsewhere =>
    simp only [ScopeTree.step]
    split <;> exact poisoned

theorem locked_tidy {scope : Nat} {call : ScopeAnswer ν × ScopeTree ν} (tidy : tree.topology.Tidy)
    (after : call.2.poisoned = false → call.2.topology.Tidy)
    (unpoisoned : (tree.locked scope call).2.poisoned = false) :
    (tree.locked scope call).2.topology.Tidy := by
  unfold locked at unpoisoned ⊢
  split
  · exact tidy
  · rename_i live
    rw [if_neg live] at unpoisoned
    split
    · exact tidy
    · rename_i free
      rw [if_neg free] at unpoisoned
      exact after unpoisoned

/-- **Every call keeps the lock's order.** -/
theorem Orderly.step (orderly : Orderly tree) (call : ScopeCall ν) : Orderly (tree.step call).2 := by
  refine ⟨orderly.sound.step call, fun unpoisoned => ?_⟩
  have before : tree.poisoned = false := by
    by_contra poisoned
    rw [step_poisoned call (Bool.of_not_eq_false poisoned)] at unpoisoned
    cases unpoisoned
  have tidy := orderly.tidy before
  cases call with
  | child scope => exact locked_tidy tidy (fun _ => tidy.child scope) unpoisoned
  | publish scope definition expectation =>
    refine locked_tidy tidy (fun _ => ?_) unpoisoned
    split <;> exact tidy
  | load scope definition context =>
    simp only [ScopeTree.step]
    split
    · exact tidy
    · split <;> exact tidy
  | constructed publication result =>
    rcases orderly.sound.constructed_cases publication result with
      ⟨same, _⟩ | ⟨begun, value, generation, rfl, installs⟩
    · rw [same]
      exact tidy
    · rw [installs.result]
      apply tidy.modify
      exact fun _ kept => kept
  | withdraw scope capability expected =>
    refine locked_tidy tidy (fun _ => ?_) unpoisoned
    unfold ScopeTree.withdraw
    split
    · exact tidy
    · apply tidy.modify
      exact fun _ kept => kept
  | teardown scope =>
    refine locked_tidy tidy (fun free => ?_) unpoisoned
    unfold ScopeTree.teardown at free ⊢
    split
    · rename_i orders topology ended
      have whole : (tree.topology.teardown scope).1 = some orders := congrArg Prod.fst ended
      have after : (tree.topology.teardown scope).2.Tidy :=
        (Topology.teardownEach_ends [] tidy whole).1
      rw [ended] at after
      exact after
    · rename_i topology ended
      rw [ended] at free
      cases free
  | release scope =>
    simp only [ScopeTree.step]
    split
    · apply tidy.modify
      exact fun _ kept => kept
    · exact tidy
  | elsewhere =>
    simp only [ScopeTree.step]
    split <;> exact tidy

theorem Orderly.run (orderly : Orderly tree) (calls : List (ScopeCall ν)) :
    Orderly (tree.run calls) := by
  induction calls generalizing tree with
  | nil => exact orderly
  | cons call rest ih => exact ih (orderly.step call)

/-! ### When a teardown finishes -/

/-- A scope that is closed and holds nothing. -/
def Emptied (topology : Topology ν) (scope : Nat) : Prop :=
  ∃ state, topology.scopes[scope]? = some state ∧ state.lifecycle = .closed ∧ state.entries = ∅

/-- **A teardown ends, with its scope and every live descendant closed and empty.** -/
def Finishes (tree : ScopeTree ν) (scope : Nat) : Prop :=
  (∃ orders, (tree.step (.teardown scope)).1 = .tornDown orders) ∧
    ∀ other, other = scope ∨ tree.topology.Below scope other →
      Emptied (tree.step (.teardown scope)).2.topology other

/-- No open scope that a teardown visits is tangled. -/
def Untangled (tree : ScopeTree ν) (scope : Nat) : Prop :=
  ∀ other, other = scope ∨ tree.topology.Below scope other → (tree.topology.level other).isOpen →
    ¬ Tangled (tree.topology.level other).entries

/-- What a call needs for the lock not to be poisoned: a teardown visits no tangled scope, and an
entry identity is left. -/
def Careful (tree : ScopeTree ν) : ScopeCall ν → Prop
  | .teardown scope => Untangled tree scope
  | _ => tree.nextEntryId < u64Max

/-- Every call of a run is careful. -/
def CarefulRun : ScopeTree ν → List (ScopeCall ν) → Prop
  | _, [] => True
  | tree, call :: rest => tree.Careful call ∧ CarefulRun (tree.step call).2 rest

theorem Sound.mem_plan (sound : Sound tree) {scope other : Nat} :
    other ∈ tree.topology.collectDescendantsChildFirst scope ++ [scope] ↔
      other = scope ∨ tree.topology.Below scope other := by
  rw [List.mem_append, List.mem_singleton, or_comm, ← sound.grounded.mem_liveDescendants]
  exact or_congr_right Topology.mem_childFirstWithin

/-- The plan of a teardown ends exactly when it visits no tangled scope. -/
theorem Sound.teardown_iff (sound : Sound tree) (scope : Nat) :
    (∃ orders, (tree.topology.teardown scope).1 = some orders) ↔ Untangled tree scope := by
  unfold Topology.teardown
  rw [Topology.teardownEach_iff]
  refine forall_congr' fun other => ?_
  rw [sound.mem_plan, sound.teardownOrder_iff]

/-- **A teardown finishes if and only if the lock is not poisoned and no scope is tangled.** -/
theorem Orderly.finishes_iff (orderly : Orderly tree) {scope : Nat}
    (live : tree.topology.live scope) :
    Finishes tree scope ↔ tree.poisoned = false ∧ Untangled tree scope := by
  constructor
  · rintro ⟨⟨orders, answered⟩, _⟩
    simp only [ScopeTree.step, locked, live, not_true_eq_false, if_false] at answered
    by_cases poisoned : tree.poisoned = true
    · rw [if_pos poisoned] at answered
      cases answered
    · rw [if_neg poisoned] at answered
      refine ⟨Bool.eq_false_iff.mpr poisoned, (orderly.sound.teardown_iff scope).mp ?_⟩
      unfold ScopeTree.teardown at answered
      split at answered
      · rename_i all topology ended
        exact ⟨all, congrArg Prod.fst ended⟩
      · cases answered
  · rintro ⟨unpoisoned, untangled⟩
    obtain ⟨orders, ended⟩ := (orderly.sound.teardown_iff scope).mpr untangled
    have stepped : tree.step (.teardown scope) =
        (.tornDown orders, { tree with topology := (tree.topology.teardown scope).2 }) := by
      have free : ¬ tree.poisoned = true := Bool.eq_false_iff.mp unpoisoned
      simp only [ScopeTree.step, locked]
      rw [if_neg (not_not.mpr live), if_neg free]
      unfold ScopeTree.teardown
      generalize tree.topology.teardown scope = result at ended ⊢
      obtain ⟨answer, topology⟩ := result
      cases ended
      rfl
    have ends := Topology.teardownEach_ends [] (orderly.tidy unpoisoned) ended
    have vacant := (orderly.sound.step (.teardown scope)).vacant
    have shape : tree.topology.SameShape (tree.topology.teardown scope).2 :=
      Topology.sameShape_teardownEach []
    rw [stepped] at vacant
    refine ⟨⟨orders, by rw [stepped]⟩, fun other below => ?_⟩
    rw [stepped]
    have closed := ends.2 other (orderly.sound.mem_plan.mpr below)
    have nothing := vacant other closed
    have lives : (tree.topology.teardown scope).2.live other := by
      refine (shape.live other).trans ?_
      rcases below with rfl | under
      · exact live
      · exact under.1
    obtain ⟨state, found, _⟩ := Topology.scope_of_live lives
    have closed : ((tree.topology.teardown scope).2.level other).isOpen = false := closed
    have nothing : ((tree.topology.teardown scope).2.level other).entries = ∅ := nothing
    rw [Topology.level_of_scope found] at closed nothing
    refine ⟨state, found, ?_, nothing⟩
    have half := ends.1 other state found
    have opened := of_decide_eq_false closed
    cases kind : state.lifecycle with
    | opened => exact absurd kind opened
    | closing => exact absurd kind half
    | closed => rfl

/-- A careful call does not poison the lock. -/
theorem Sound.careful_step (sound : Sound tree) {call : ScopeCall ν} (careful : tree.Careful call)
    (unpoisoned : tree.poisoned = false) : (tree.step call).2.poisoned = false := by
  have locked {tree : ScopeTree ν} {scope : Nat} {call : ScopeAnswer ν × ScopeTree ν}
      (before : tree.poisoned = false) (after : call.2.poisoned = false) :
      (tree.locked scope call).2.poisoned = false := by
    unfold ScopeTree.locked
    split
    · exact before
    · split
      · exact before
      · exact after
  cases call with
  | child scope => exact locked unpoisoned unpoisoned
  | publish scope definition expectation =>
    refine locked unpoisoned ?_
    split <;> exact unpoisoned
  | load scope definition context =>
    simp only [ScopeTree.step]
    split
    · exact unpoisoned
    · split <;> exact unpoisoned
  | constructed publication result =>
    have room : ∀ (begun : Publication ν) (value : ν) (expectation : PublishExpectation),
        ({ tree with pending := tree.pending.set publication none }.publishPreconstructed
          begun.scope begun.definition expectation begun.dependencies value).2.poisoned = false := by
      intro begun value expectation
      unfold publishPreconstructed
      split
      · exact unpoisoned
      · split
        · rename_i exhausted
          rw [checkedNext_of_lt careful] at exhausted
          cases exhausted
        · exact unpoisoned
    simp only [ScopeTree.step]
    split
    · unfold complete
      split
      · exact unpoisoned
      · split
        · unfold provideValue
          split
          · exact unpoisoned
          · exact locked unpoisoned (room _ _ _)
        · exact locked unpoisoned (room _ _ _)
    · exact unpoisoned
  | withdraw scope capability expected =>
    refine locked unpoisoned ?_
    unfold ScopeTree.withdraw
    split <;> exact unpoisoned
  | teardown scope =>
    refine locked unpoisoned ?_
    obtain ⟨orders, ended⟩ := (sound.teardown_iff scope).mpr careful
    unfold ScopeTree.teardown
    generalize tree.topology.teardown scope = result at ended ⊢
    obtain ⟨answer, topology⟩ := result
    cases ended
    exact unpoisoned
  | release scope =>
    simp only [ScopeTree.step]
    split <;> exact unpoisoned
  | elsewhere =>
    simp only [ScopeTree.step]
    split <;> exact unpoisoned

theorem Sound.careful_run (sound : Sound tree) {calls : List (ScopeCall ν)}
    (careful : tree.CarefulRun calls) (unpoisoned : tree.poisoned = false) :
    (tree.run calls).poisoned = false := by
  induction calls generalizing tree with
  | nil => exact unpoisoned
  | cons call rest ih =>
    exact ih (sound.step call) careful.2 (sound.careful_step careful.1 unpoisoned)

/-- **When a teardown finishes.** In every run, a teardown finishes exactly when the lock is not
poisoned and it visits no tangled scope; a run of careful calls leaves the lock unpoisoned. -/
theorem teardown_finishes (calls : List (ScopeCall ν)) :
    (∀ scope, ((root : ScopeTree ν).run calls).topology.live scope →
      (Finishes ((root : ScopeTree ν).run calls) scope ↔
        ((root : ScopeTree ν).run calls).poisoned = false ∧
          Untangled ((root : ScopeTree ν).run calls) scope)) ∧
    (CarefulRun (root : ScopeTree ν) calls → ((root : ScopeTree ν).run calls).poisoned = false) :=
  ⟨fun _ live => (orderly_root.run calls).finishes_iff live,
    fun careful => sound_root.careful_run careful rfl⟩

/-- Two replacements make `a`, `aa` and the first publication of `b` require each other, through what
the publication in the child scope pins. -/
def entangled : List (ScopeCall Unit) :=
  [.publish 0 (sampleDefinition sampleA []) .new, .constructed 0 (.ok ()),
    .publish 0 (sampleDefinition sampleB [sampleA]) .new, .constructed 1 (.ok ()),
    .publish 0 (sampleDefinition sampleAA [sampleB]) .new, .constructed 2 (.ok ()),
    .publish 0 (sampleDefinition sampleB []) (.replace 1), .constructed 3 (.ok ()),
    .publish 0 (sampleDefinition sampleA [sampleAA]) (.replace 1), .constructed 4 (.ok ()),
    .child 0, .publish 1 (sampleDefinition sampleD [sampleA]) .new, .constructed 5 (.ok ())]

/-- `b` requires `a`, and so does `d` in a child scope. -/
def sampleLayers : List (ScopeCall Unit) :=
  [.publish 0 (sampleDefinition sampleA []) .new, .constructed 0 (.ok ()),
    .publish 0 (sampleDefinition sampleB [sampleA]) .new, .constructed 1 (.ok ()),
    .child 0, .publish 1 (sampleDefinition sampleD [sampleA]) .new, .constructed 2 (.ok ())]

/-- No cycle is there when all that is required requires nothing. -/
theorem not_tangled_of_flat {entries : BTreeMap Id (CapabilityHandle ν)} (bottom : Id)
    (flat : ∀ handle ∈ holdings entries, ∀ dependency ∈ handle.definition.dependencies.toList,
      dependency = bottom ∧ handle.definition.id ≠ bottom) : ¬ Tangled entries := by
  rintro ⟨capability, cycle⟩
  obtain ⟨next, ⟨handle, first, requires⟩, _⟩ := Relation.TransGen.head'_iff.mp cycle
  obtain ⟨previous, _, other, last, closes⟩ := Relation.TransGen.tail'_iff.mp cycle
  unfold firstOf at first last
  have named : handle.definition.id = capability := by simpa using List.find?_some first
  have least := (flat other (List.mem_of_find?_eq_some last) capability
    (ExtTreeSet.mem_toList.mpr closes)).1
  exact (flat handle (List.mem_of_find?_eq_some first) next (ExtTreeSet.mem_toList.mpr requires)).2
    (named.trans least)

theorem untangled_layers : Untangled ((root : ScopeTree Unit).run sampleLayers) 0 := by
  have flat : ∀ other < 2, ∀ handle ∈
      holdings (((root : ScopeTree Unit).run sampleLayers).topology.level other).entries,
      ∀ dependency ∈ handle.definition.dependencies.toList,
        dependency = sampleA ∧ handle.definition.id ≠ sampleA := by decide +kernel
  have two : ((root : ScopeTree Unit).run sampleLayers).topology.scopes.length = 2 := by decide +kernel
  rintro other (rfl | ⟨live, _⟩) _
  · exact not_tangled_of_flat sampleA (flat 0 (by decide))
  · exact not_tangled_of_flat sampleA (flat other (two ▸ Topology.lt_of_live live))

theorem tangled_entangled :
    Tangled (((root : ScopeTree Unit).run entangled).topology.level 1).entries := by
  have tied : ∀ pair ∈ [(sampleA, sampleAA), (sampleAA, sampleB), (sampleB, sampleA)],
      (firstOf (holdings (((root : ScopeTree Unit).run entangled).topology.level 1).entries)
        pair.1).any (fun handle => pair.2 ∈ handle.definition.dependencies) = true := by
    decide +kernel
  have step : ∀ pair ∈ [(sampleA, sampleAA), (sampleAA, sampleB), (sampleB, sampleA)],
      Tied (((root : ScopeTree Unit).run entangled).topology.level 1).entries pair.1 pair.2 := by
    intro pair member
    obtain ⟨handle, first, requires⟩ := (Option.any_eq_true _ _).mp (tied pair member)
    exact ⟨handle, first, of_decide_eq_true requires⟩
  exact ⟨sampleA, .tail (.tail (.single (step (sampleA, sampleAA) (by simp)))
    (step (sampleAA, sampleB) (by simp))) (step (sampleB, sampleA) (by simp))⟩

/-- The teardown of the layered scopes finishes, and that of the entangled child scope does not. -/
theorem teardown_finishes_entangled :
    Finishes ((root : ScopeTree Unit).run sampleLayers) 0 ∧
      ¬ Finishes ((root : ScopeTree Unit).run entangled) 1 := by
  refine ⟨((teardown_finishes sampleLayers).1 0 (by decide +kernel)).mpr
    ⟨by decide +kernel, untangled_layers⟩, fun finishes => ?_⟩
  have untangled := (((teardown_finishes entangled).1 1 (by decide +kernel)).mp finishes).2
  exact untangled 1 (.inl rfl) (by decide +kernel) tangled_entangled

/-- Whether a call panicked. -/
def ScopeAnswer.isPanic : ScopeAnswer ν → Bool
  | .panicked => true
  | _ => false

/-- **The teardown of the child scope panics.** -/
theorem entangled_panics : ¬ ∀ (calls : List (ScopeCall Unit)) (scope : Nat),
    ((root : ScopeTree Unit).run calls).topology.live scope →
      Finishes ((root : ScopeTree Unit).run calls) scope := by
  intro all
  obtain ⟨⟨orders, answered⟩, _⟩ := all entangled 1 (by decide +kernel)
  have panics : ScopeAnswer.isPanic
      (((root : ScopeTree Unit).run entangled).step (.teardown 1)).1 = true := by decide +kernel
  rw [answered] at panics
  cases panics

end ScopeTree

end Kernis
