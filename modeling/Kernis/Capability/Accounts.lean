/-
**Every value lives exactly as long as something holds it.**

* `Lifetimes.roots` — all references that are not a slot's own: those of the entries, the snapshots, the
  clients' handles and the drops under way.
* `Accounted` — the heap counts exactly these, and every handle records what its value was constructed
  with. `Accounted.step`: every step keeps it.
* `Lifetimes.cleanup_exact` — over whole runs.
-/

import Kernis.Capability.Lifetime
import Kernis.Capability.Sound

namespace Kernis

open Std

/-! ### References, as multisets -/

/-- The references of a scope. -/
theorem slotsOf_erase {entries : BTreeMap Id (CapabilityHandle Nat)} {id : Id}
    {entry : CapabilityHandle Nat} (found : entries[id]? = some entry) :
    (slotsOf entries : Multiset Nat) = entry.value ::ₘ slotsOf (entries.erase id) :=
  Multiset.coe_eq_coe.mpr ((valuesOf_perm found).map CapabilityHandle.value)

theorem slotsOf_insert (entries : BTreeMap Id (CapabilityHandle Nat)) (id : Id)
    (entry : CapabilityHandle Nat) :
    ((entries[id]?.toList.map CapabilityHandle.value : List Nat) : Multiset Nat) +
        slotsOf (entries.insert id entry) = entry.value ::ₘ slotsOf entries := by
  rw [slotsOf_erase (lookup_insert_self entries id entry), erase_insert, Multiset.add_cons]
  congr 1
  cases found : entries[id]? with
  | none =>
    rw [erase_of_none found]
    exact zero_add _
  | some old =>
    rw [slotsOf_erase found]
    exact Multiset.singleton_add _ _

namespace Topology

variable {topology : Topology Nat}

/-- The references of all scopes. -/
def references (topology : Topology Nat) : Multiset Nat :=
  (topology.scopes.map fun state => (slotsOf state.entries : Multiset Nat)).sum

/-- Changing one scope. -/
theorem references_modify (scope : Nat) (change : ScopeState Nat → ScopeState Nat)
    {state : ScopeState Nat} (found : topology.scopes[scope]? = some state) :
    (topology.modify scope change).references + slotsOf state.entries =
      topology.references + slotsOf (change state).entries := by
  have modified : topology.scopes.modify scope change = topology.scopes.set scope (change state) := by
    rw [List.modify_eq_set_getElem?, found]
    rfl
  unfold references modify
  rw [modified]
  exact sum_map_set (fun state : ScopeState Nat => (slotsOf state.entries : Multiset Nat)) found _

theorem references_empty (scope : Nat) (lifecycle : Lifecycle) :
    (topology.empty scope lifecycle).references + slotsOf (topology.level scope).entries =
      topology.references := by
  cases found : topology.scopes[scope]? with
  | none =>
    have same : topology.empty scope lifecycle = topology := by
      unfold empty modify
      rw [List.modify_eq_set_getElem?, found]
      rfl
    rw [same]
    unfold level
    rw [found]
    exact add_zero _
  | some state =>
    rw [level_of_scope found]
    exact (references_modify scope _ found).trans (add_zero _)

theorem references_install {scope : Nat} {state : ScopeState Nat}
    (found : topology.scopes[scope]? = some state) (handle : CapabilityHandle Nat) :
    ((((topology.level scope).entries[handle.definition.id]?).toList.map CapabilityHandle.value :
      List Nat) : Multiset Nat) + (topology.install scope handle).references =
        handle.value ::ₘ topology.references := by
  have balance := references_modify scope (fun state => { state with
    entries := state.entries.insert handle.definition.id handle }) found
  have entry := slotsOf_insert state.entries handle.definition.id handle
  rw [level_of_scope found]
  refine add_right_cancel (b := (slotsOf state.entries : Multiset Nat)) ?_
  rw [Multiset.cons_add, add_assoc]
  unfold install
  rw [balance, add_left_comm]
  simp only
  rw [entry, Multiset.add_cons]

theorem references_remove {scope : Nat} {capability : Id} {entry : CapabilityHandle Nat}
    (held : (topology.level scope).entries[capability]? = some entry) :
    topology.references = entry.value ::ₘ (topology.remove scope capability).references := by
  cases found : topology.scopes[scope]? with
  | none =>
    unfold level at held
    rw [found] at held
    exact absurd held (by simp)
  | some state =>
    rw [level_of_scope found] at held
    have balance := references_modify scope (fun state => { state with
      entries := state.entries.erase capability }) found
    rw [slotsOf_erase held, Multiset.add_cons] at balance
    refine add_right_cancel (b := (slotsOf (state.entries.erase capability) : Multiset Nat)) ?_
    rw [Multiset.cons_add]
    exact balance.symm

/-- A plan drops every entry. -/
theorem dropTeardownPlan_all (order : List Id) (entries : BTreeMap Id (CapabilityHandle Nat)) :
    (dropTeardownPlan entries order : Multiset Nat) = slotsOf entries := by
  induction order generalizing entries with
  | nil => rfl
  | cons id order ih =>
    unfold dropTeardownPlan
    split
    · rename_i entry found
      rw [slotsOf_erase found, ← Multiset.cons_coe, ih]
    · exact ih entries

/-- The references of teardown plans. -/
def planned (plans : List TeardownPlan) : Multiset Nat :=
  (plans.map fun plan => (slotsOf plan.entries : Multiset Nat)).sum

theorem planned_flatMap {plans : List TeardownPlan} {drops : TeardownPlan → List Nat}
    (all : ∀ plan, (drops plan : Multiset Nat) = slotsOf plan.entries) :
    ((plans.flatMap drops : List Nat) : Multiset Nat) = planned plans := by
  unfold planned
  induction plans with
  | nil => rfl
  | cons plan plans ih => rw [List.flatMap_cons, ← Multiset.coe_add, ih, all, List.map_cons, List.sum_cons]

/-- **A teardown drops every entry it takes**, also when it panics. -/
theorem teardownDrops_all (scopes : List Nat) (plans : List TeardownPlan) (orders : List (List Id)) :
    (topology.teardownDrops plans scopes : Multiset Nat) +
      (topology.teardownEach orders scopes).2.references = topology.references + planned plans := by
  induction scopes generalizing topology plans orders with
  | nil =>
    unfold teardownDrops teardownEach
    rw [planned_flatMap fun plan => dropTeardownPlan_all plan.order plan.entries, add_comm]
  | cons scope rest ih =>
    unfold teardownDrops teardownEach
    by_cases isOpen : (topology.level scope).isOpen
    · rw [if_neg (not_not.mpr isOpen), if_neg (not_not.mpr isOpen)]
      cases runtimeTeardownOrder (topology.level scope).entries with
      | error error =>
        have taken : (topology.empty scope .closing).references +
          slotsOf (topology.level scope).entries = topology.references := references_empty scope .closing
        simp only
        rw [← Multiset.coe_add, planned_flatMap fun _ => rfl, ← taken]
        ac_rfl
      | ok order =>
        have taken : (topology.empty scope .closed).references +
          slotsOf (topology.level scope).entries = topology.references := references_empty scope .closed
        simp only
        rw [ih, ← taken]
        unfold planned
        rw [List.map_append, List.sum_append, List.map_singleton, List.sum_singleton]
        ac_rfl
    · rw [if_pos isOpen, if_pos isOpen]
      exact ih plans orders

end Topology

/-! ### The tree -/

namespace ScopeTree

variable {tree : ScopeTree Nat}

/-- The references of the running publications. -/
def snapshots (pending : List (Option (Publication Nat))) : Multiset Nat :=
  (pending.map fun publication =>
    (((publication.map fun begun => snapshotSlots begun.dependencies).getD [] : List Nat) : Multiset Nat)).sum

theorem snapshots_push (pending : List (Option (Publication Nat))) (begun : Publication Nat) :
    snapshots (pending ++ [some begun]) = snapshotSlots begun.dependencies + snapshots pending := by
  unfold snapshots
  rw [List.map_append, List.sum_append, List.map_singleton, List.sum_singleton, add_comm]
  rfl

theorem snapshots_take {pending : List (Option (Publication Nat))} {publication : Nat}
    {begun : Publication Nat} (found : pending[publication]? = some (some begun)) :
    snapshots pending = snapshotSlots begun.dependencies + snapshots (pending.set publication none) := by
  have balance := sum_map_set (fun publication : Option (Publication Nat) =>
    (((publication.map fun begun => snapshotSlots begun.dependencies).getD [] : List Nat) : Multiset Nat))
    found none
  rw [add_comm]
  exact (balance.trans (add_zero _)).symm

/-- What a constructor's value comes to: it is published, or the tree's entries stay. -/
theorem complete_cases (tree : ScopeTree Nat) (begun : Publication Nat) (address : Nat) :
    ((tree.complete begun (.ok address)).2.topology = tree.topology ∧
      (tree.complete begun (.ok address)).2.pending = tree.pending ∧
      ∀ handle, (tree.complete begun (.ok address)).1 ≠ .published handle) ∨
    ∃ handle next, tree.complete begun (.ok address) = (.published handle, next) ∧
      tree.topology.live begun.scope ∧ handle.definition = begun.definition ∧
      handle.value = address ∧ handle.dependencies = begun.dependencies ∧
      next.topology = tree.topology.install begun.scope handle ∧ next.pending = tree.pending := by
  have admits (expectation : PublishExpectation) (answer : ScopeAnswer Nat × ScopeTree Nat)
      (same : tree.locked begun.scope (tree.publishPreconstructed begun.scope begun.definition
        expectation begun.dependencies address) = answer) :
      (answer.2.topology = tree.topology ∧ answer.2.pending = tree.pending ∧
        ∀ handle, answer.1 ≠ .published handle) ∨
      ∃ handle next, answer = (.published handle, next) ∧
        tree.topology.live begun.scope ∧ handle.definition = begun.definition ∧
        handle.value = address ∧ handle.dependencies = begun.dependencies ∧
        next.topology = tree.topology.install begun.scope handle ∧ next.pending = tree.pending := by
    subst same
    unfold locked
    split
    · exact .inl ⟨rfl, rfl, fun _ same => by cases same⟩
    · rename_i live
      split
      · exact .inl ⟨rfl, rfl, fun _ same => by cases same⟩
      · unfold publishPreconstructed
        split
        · exact .inl ⟨rfl, rfl, fun _ same => by cases same⟩
        · split
          · exact .inl ⟨rfl, rfl, fun _ same => by cases same⟩
          · exact .inr ⟨_, _, rfl, not_not.mp live, rfl, rfl, rfl, rfl, rfl⟩
  unfold complete
  simp only
  split
  · unfold provideValue
    split
    · exact .inl ⟨rfl, rfl, fun _ same => by cases same⟩
    · exact admits .new _ rfl
  · exact admits begun.expectation _ rfl

/-- What beginning a publication comes to: it waits with a snapshot of entries, or nothing changes. -/
theorem begun_cases (tree : ScopeTree Nat) {call : ScopeCall Nat}
    (begins : (∃ scope definition expectation, call = .publish scope definition expectation) ∨
      ∃ scope definition context, call = .load scope definition context) :
    ((tree.step call).2 = tree ∧ ∀ publication, (tree.step call).1 ≠ .constructs publication) ∨
    ∃ begun, tree.step call = (.constructs tree.pending.length,
        { tree with pending := tree.pending ++ [some begun] }) ∧
      ∀ dependency ∈ begun.dependencies, ∃ scope,
        (tree.topology.level scope).entries[dependency.1]? = some dependency.2 := by
  rcases begins with ⟨scope, definition, expectation, rfl⟩ | ⟨scope, definition, context, rfl⟩
  · simp only [step, locked]
    split
    · exact .inl ⟨rfl, fun _ same => by cases same⟩
    · split
      · exact .inl ⟨rfl, fun _ same => by cases same⟩
      · split
        · exact .inl ⟨rfl, fun _ same => by cases same⟩
        · rename_i dependencies begun
          unfold Topology.beginPublication at begun
          obtain ⟨_, _, rest⟩ := except_bind_ok.mp begun
          obtain ⟨_, _, resolved⟩ := except_bind_ok.mp rest
          exact .inr ⟨_, rfl, (Topology.resolved_of_view resolved).held⟩
  · simp only [step]
    split
    · exact .inl ⟨rfl, fun _ same => by cases same⟩
    · split
      · exact .inl ⟨rfl, fun _ same => by cases same⟩
      · exact .inr ⟨_, rfl, (Topology.resolved_of_context ‹_›).held⟩

end ScopeTree

/-! ### What is owned -/

namespace CapabilityHandle

/-- The heap records what a handle's value was constructed with, and so on for those handles. -/
def Recorded (heap : Heap) (handle : CapabilityHandle Nat) : Prop :=
  ∀ dependency, Relation.ReflTransGen DependsOn handle dependency →
    dependency.value < heap.slots.length ∧
      heap.dependencies dependency.value = snapshotSlots dependency.dependencies

variable {heap next : Heap} {handle : CapabilityHandle Nat}

theorem Recorded.extends (recorded : handle.Recorded heap) (extends_ : heap.Extends next) :
    handle.Recorded next := by
  intro dependency path
  obtain ⟨inside, same⟩ := recorded dependency path
  exact ⟨inside.trans_le extends_.length, (extends_.dependencies _ inside).trans same⟩

theorem Recorded.dependency (recorded : handle.Recorded heap) {id : Id}
    {dependency : CapabilityHandle Nat} (listed : (id, dependency) ∈ handle.dependencies) :
    dependency.Recorded heap :=
  fun _ path => recorded _ (path.head ⟨id, listed⟩)

/-- The handle of a new value. -/
theorem recorded_new (inside : handle.value < heap.slots.length)
    (same : heap.dependencies handle.value = snapshotSlots handle.dependencies)
    (dependencies : ∀ dependency ∈ handle.dependencies, dependency.2.Recorded heap) :
    handle.Recorded heap := by
  intro dependency path
  rcases Relation.ReflTransGen.cases_head path with rfl | ⟨first, ⟨id, listed⟩, rest⟩
  · exact ⟨inside, same⟩
  · exact dependencies (id, first) listed dependency rest

/-- A slot retains what it was constructed with. -/
theorem Recorded.retains (recorded : handle.Recorded heap) {dependency : CapabilityHandle Nat}
    (depends : handle.DependsOn dependency) : heap.Retains handle.value dependency.value := by
  obtain ⟨id, listed⟩ := depends
  unfold Heap.Retains
  rw [(recorded handle .refl).2]
  exact List.mem_map.mpr ⟨(id, dependency), listed, rfl⟩

end CapabilityHandle

namespace Lifetimes

variable {state : Lifetimes}

/-- The references of the clients. -/
def clients (handles : List (Option (CapabilityHandle Nat))) : Multiset Nat :=
  (handles.map fun handle => ((handle.toList.map CapabilityHandle.value : List Nat) : Multiset Nat)).sum

/-- The references that drops under way have still to let go. -/
def leaving (drops : List (List Nat)) : Multiset Nat :=
  (drops.map Multiset.ofList).sum

/-- **All references from outside the heap.** -/
def roots (state : Lifetimes) : Multiset Nat :=
  state.tree.topology.references + ScopeTree.snapshots state.tree.pending + clients state.handles +
    leaving state.drops

theorem clients_push (handles : List (Option (CapabilityHandle Nat))) (handle : CapabilityHandle Nat) :
    clients (handles ++ [some handle]) = handle.value ::ₘ clients handles := by
  unfold clients
  rw [List.map_append, List.sum_append, List.map_singleton, List.sum_singleton, add_comm]
  exact Multiset.singleton_add _ _

theorem clients_take {handles : List (Option (CapabilityHandle Nat))} {client : Nat}
    {handle : CapabilityHandle Nat} (found : handles[client]? = some (some handle)) :
    clients handles = handle.value ::ₘ clients (handles.set client none) := by
  have balance := sum_map_set (fun handle : Option (CapabilityHandle Nat) =>
    ((handle.toList.map CapabilityHandle.value : List Nat) : Multiset Nat)) found none
  rw [← Multiset.singleton_add, add_comm]
  exact (balance.trans (add_zero _)).symm

theorem leaving_push (drops : List (List Nat)) (references : List Nat) :
    leaving (drops ++ [references]) = references + leaving drops := by
  unfold leaving
  rw [List.map_append, List.sum_append, List.map_singleton, List.sum_singleton, add_comm]

theorem leaving_take {drops : List (List Nat)} {thread : Nat} {references : List Nat}
    (found : drops[thread]? = some references) :
    leaving drops = references + leaving (drops.set thread []) := by
  have balance := sum_map_set Multiset.ofList found []
  rw [add_comm]
  exact (balance.trans (add_zero _)).symm

theorem leaving_set {drops : List (List Nat)} {thread : Nat} (inside : thread < drops.length)
    (references : List Nat) :
    leaving (drops.set thread references) = references + leaving (drops.set thread []) := by
  rw [leaving_take (List.getElem?_set_self inside), List.set_set]

/-- **The accounts are kept.** -/
structure Accounted (state : Lifetimes) : Prop where
  sound : state.heap.Sound state.roots
  recorded : ∀ handle, state.Owns handle → handle.Recorded state.heap

variable {next : Lifetimes} {handle : CapabilityHandle Nat} {address : Nat}

theorem root_of_owns (owns : state.Owns handle) : handle.value ∈ state.roots := by
  unfold roots
  simp only [Multiset.mem_add]
  cases owns with
  | @entry scope id _ found =>
    refine .inl (.inl (.inl ?_))
    cases present : state.tree.topology.scopes[scope]? with
    | none =>
      unfold Topology.level at found
      rw [present] at found
      exact absurd found (by simp)
    | some one =>
      rw [Topology.level_of_scope present] at found
      exact mem_sum.mpr ⟨_, List.mem_map.mpr ⟨one, List.mem_of_getElem? present, rfl⟩,
        Multiset.mem_coe.mpr (List.mem_map.mpr ⟨handle, mem_valuesOf.mpr ⟨id, found⟩, rfl⟩)⟩
  | @snapshot begun id _ running listed =>
    exact .inl (.inl (.inr (mem_sum.mpr ⟨_, List.mem_map.mpr ⟨some begun, running, rfl⟩,
      Multiset.mem_coe.mpr (List.mem_map.mpr ⟨(id, handle), listed, rfl⟩)⟩)))
  | client held =>
    exact .inl (.inr (mem_sum.mpr ⟨_, List.mem_map.mpr ⟨some handle, held, rfl⟩,
      Multiset.mem_coe.mpr (List.mem_singleton.mpr rfl)⟩))

/-- A reference from outside the heap is an owner's, or one that is being dropped. -/
theorem owns_of_root (root : address ∈ state.roots) :
    (∃ handle, state.Owns handle ∧ handle.value = address) ∨
      ∃ references ∈ state.drops, address ∈ references := by
  unfold roots at root
  simp only [Multiset.mem_add] at root
  rcases root with ((entry | snapshot) | client) | leaving
  · obtain ⟨_, place, inside⟩ := mem_sum.mp entry
    obtain ⟨one, listed, rfl⟩ := List.mem_map.mp place
    obtain ⟨handle, held, rfl⟩ := List.mem_map.mp (Multiset.mem_coe.mp inside)
    obtain ⟨id, found⟩ := mem_valuesOf.mp held
    obtain ⟨scope, present⟩ := List.mem_iff_getElem?.mp listed
    refine .inl ⟨handle, @Owns.entry _ scope id _ ?_, rfl⟩
    rw [Topology.level_of_scope present]
    exact found
  · obtain ⟨_, place, inside⟩ := mem_sum.mp snapshot
    obtain ⟨publication, running, rfl⟩ := List.mem_map.mp place
    cases publication with
    | none => exact absurd (Multiset.mem_coe.mp inside) List.not_mem_nil
    | some begun =>
      obtain ⟨dependency, listed, rfl⟩ := List.mem_map.mp (Multiset.mem_coe.mp inside)
      exact .inl ⟨dependency.2, .snapshot running listed, rfl⟩
  · obtain ⟨_, place, inside⟩ := mem_sum.mp client
    obtain ⟨held, listed, rfl⟩ := List.mem_map.mp place
    cases held with
    | none => exact absurd (Multiset.mem_coe.mp inside) List.not_mem_nil
    | some handle =>
      rw [List.mem_singleton.mp (Multiset.mem_coe.mp inside)]
      exact .inl ⟨handle, .client listed, rfl⟩
  · obtain ⟨_, place, inside⟩ := mem_sum.mp leaving
    obtain ⟨references, listed, rfl⟩ := List.mem_map.mp place
    exact .inr ⟨references, listed, Multiset.mem_coe.mp inside⟩

theorem Accounted.used (accounted : state.Accounted) (owns : state.Owns handle) :
    state.heap.strong handle.value ≠ 0 :=
  accounted.sound.used_of_root (root_of_owns owns)

/-- What a handle's value reaches in the heap, it reaches through its dependencies. -/
theorem depends_of_retains {heap : Heap} (recorded : handle.Recorded heap)
    (path : Relation.ReflTransGen heap.Retains handle.value address) :
    ∃ dependency, Relation.ReflTransGen CapabilityHandle.DependsOn handle dependency ∧
      dependency.value = address := by
  induction path with
  | refl => exact ⟨handle, .refl, rfl⟩
  | tail _ retains ih =>
    obtain ⟨dependency, inner, rfl⟩ := ih
    unfold Heap.Retains at retains
    rw [(recorded dependency inner).2] at retains
    obtain ⟨⟨id, further⟩, listed, rfl⟩ := List.mem_map.mp retains
    exact ⟨further, inner.tail ⟨id, listed⟩, rfl⟩

theorem retains_of_depends {heap : Heap} (recorded : handle.Recorded heap)
    {dependency : CapabilityHandle Nat}
    (path : Relation.ReflTransGen CapabilityHandle.DependsOn handle dependency) :
    Relation.ReflTransGen heap.Retains handle.value dependency.value := by
  induction path with
  | refl => exact .refl
  | tail inner depends ih =>
    exact ih.tail (CapabilityHandle.Recorded.retains (fun _ path => recorded _ (inner.trans path)) depends)

/-- **What the references reach is what is held or being dropped.** -/
theorem Accounted.reached_iff (accounted : state.Accounted) :
    state.heap.Reached state.roots address ↔ state.Held address ∨ state.Dropping address := by
  constructor
  · rintro ⟨root, member, path⟩
    rcases owns_of_root member with ⟨handle, owns, rfl⟩ | ⟨references, listed, inside⟩
    · exact .inl ⟨handle, owns, depends_of_retains (accounted.recorded handle owns) path⟩
    · exact .inr ⟨references, listed, root, inside, path⟩
  · rintro (⟨handle, owns, dependency, path, rfl⟩ | ⟨references, listed, root, inside, path⟩)
    · exact ⟨handle.value, root_of_owns owns, retains_of_depends (accounted.recorded handle owns) path⟩
    · exact ⟨root, Multiset.mem_add.mpr (.inr (mem_sum.mpr ⟨_, List.mem_map.mpr ⟨references, listed, rfl⟩,
        Multiset.mem_coe.mpr inside⟩)), path⟩

/-! ### Every step keeps the accounts -/

/-- The accounts after a step, from the references and what has come to be owned. -/
theorem Accounted.onward (accounted : state.Accounted) (sound : next.heap.Sound next.roots)
    (extends_ : state.heap.Extends next.heap)
    (owned : ∀ handle, next.Owns handle → state.Owns handle ∨ handle.Recorded next.heap) :
    next.Accounted where
  sound := sound
  recorded := fun handle owns =>
    (owned handle owns).elim (fun before => (accounted.recorded handle before).extends extends_) id

/-- A step that only passes references on. -/
theorem Accounted.passed (accounted : state.Accounted) (heap : next.heap = state.heap)
    (roots : next.roots = state.roots) (owned : ∀ handle, next.Owns handle → state.Owns handle) :
    next.Accounted :=
  accounted.onward (by rw [heap, roots]; exact accounted.sound) (by rw [heap]; exact .refl _)
    fun handle owns => .inl (owned handle owns)

theorem Accounted.handOut (accounted : state.Accounted) {found : Option (CapabilityHandle Nat)}
    (used : ∀ handle, found = some handle →
      handle.Recorded state.heap ∧ state.heap.strong handle.value ≠ 0) :
    (state.handOut found).Accounted := by
  cases found with
  | none => exact accounted
  | some handle =>
    obtain ⟨recorded, alive⟩ := used handle rfl
    have extends_ := Heap.extends_retain state.heap handle.value
    refine accounted.onward ?_ extends_ fun other owns => ?_
    · have roots : (state.handOut (some handle)).roots = handle.value ::ₘ state.roots := by
        unfold Lifetimes.roots Lifetimes.handOut
        simp only [clients_push, Multiset.add_cons, Multiset.cons_add]
      rw [roots]
      exact accounted.sound.retain alive
    · cases owns with
      | entry found => exact .inl (.entry found)
      | snapshot running listed => exact .inl (.snapshot running listed)
      | client held =>
        rcases List.mem_append.mp held with before | new
        · exact .inl (.client before)
        · cases List.mem_singleton.mp new
          exact .inr (recorded.extends extends_)

theorem Accounted.handOut_owned (accounted : state.Accounted) {found : Option (CapabilityHandle Nat)}
    (owned : ∀ handle, found = some handle → state.Owns handle) : (state.handOut found).Accounted :=
  accounted.handOut fun handle same =>
    ⟨accounted.recorded handle (owned handle same), accounted.used (owned handle same)⟩

theorem owns_of_held {client : Nat} (held : state.held client = some handle) :
    state.handles[client]? = some (some handle) ∧ state.Owns handle := by
  have found := Option.join_eq_some_iff.mp held
  exact ⟨found, .client (List.mem_of_getElem? found)⟩

/-- A step of a drop. -/
theorem Accounted.drop (accounted : state.Accounted) (thread : Nat) :
    (state.drop thread).Accounted ∧ ∀ first rest, state.drops[thread]? = some (first :: rest) →
      (state.drop thread).heap.references + 1 = state.heap.references := by
  unfold Lifetimes.drop
  split
  · rename_i first rest found
    have inside := (List.getElem?_eq_some_iff.mp found).1
    have roots : state.roots = first ::ₘ (rest + (state.tree.topology.references +
        ScopeTree.snapshots state.tree.pending + clients state.handles +
        leaving (state.drops.set thread []))) := by
      unfold Lifetimes.roots
      rw [leaving_take found, ← Multiset.cons_coe, Multiset.cons_add, Multiset.add_cons]
      congr 1
      ac_rfl
    have sound := accounted.sound
    rw [roots] at sound
    obtain ⟨kept, fewer⟩ := sound.release
    refine ⟨accounted.onward ?_ (Heap.extends_release _ _) fun handle owns => ?_, fun _ _ same => ?_⟩
    · have later := leaving_set inside ((state.heap.release first).1 ++ rest)
      refine Eq.mp (congrArg _ ?_) kept
      unfold Lifetimes.roots
      simp only [later, ← Multiset.coe_add]
      ac_rfl
    · cases owns with
      | entry found => exact .inl (.entry found)
      | snapshot running listed => exact .inl (.snapshot running listed)
      | client held => exact .inl (.client held)
    · exact fewer
  · rename_i other
    exact ⟨accounted, fun first rest found => absurd found (other first rest)⟩

/-- A publication that begins. -/
theorem Accounted.begin (accounted : state.Accounted) {call : ScopeCall Nat}
    (begins : (∃ scope definition expectation, call = .publish scope definition expectation) ∨
      ∃ scope definition context, call = .load scope definition context) :
    (state.begin (state.tree.step call)).Accounted := by
  rcases state.tree.begun_cases begins with ⟨same, other⟩ | ⟨begun, same, held⟩
  · generalize state.tree.step call = after at same other
    obtain ⟨answer, tree⟩ := after
    simp only at same other
    subst same
    unfold Lifetimes.begin
    split
    · rename_i publication _ equal
      exact absurd (Prod.mk.inj equal).1 (other publication)
    · rename_i equal
      obtain ⟨rfl, rfl⟩ := Prod.mk.inj equal
      exact accounted
  · rw [same]
    have snapshot : ((state.tree.pending ++ [some begun])[state.tree.pending.length]?.join.map
        fun begun => snapshotSlots begun.dependencies).getD [] = snapshotSlots begun.dependencies := by
      rw [List.getElem?_concat_length]
      rfl
    have owned : ∀ dependency ∈ begun.dependencies, state.Owns dependency.2 := by
      intro dependency listed
      obtain ⟨scope, found⟩ := held dependency listed
      exact .entry found
    have used : ∀ address ∈ snapshotSlots begun.dependencies, state.heap.strong address ≠ 0 := by
      intro address member
      obtain ⟨dependency, listed, rfl⟩ := List.mem_map.mp member
      exact accounted.used (owned dependency listed)
    have sound := accounted.sound.retainAll used
    unfold Lifetimes.begin
    simp only [snapshot]
    refine accounted.onward ?_ (Heap.extends_retainAll _ _) fun handle owns => ?_
    · refine Eq.mp (congrArg _ ?_) sound
      unfold Lifetimes.roots
      simp only [ScopeTree.snapshots_push]
      ac_rfl
    · cases owns with
      | entry found => exact .inl (.entry found)
      | snapshot running listed =>
        rcases List.mem_append.mp running with before | new
        · exact .inl (.snapshot before listed)
        · cases List.mem_singleton.mp new
          exact .inl (owned _ listed)
      | client held => exact .inl (.client held)

/-- The slots of a snapshot that a publication holds are in use. -/
theorem Accounted.snapshot (accounted : state.Accounted) {publication : Nat}
    {begun : Publication Nat} (found : state.tree.pending[publication]? = some (some begun)) :
    (∀ address ∈ snapshotSlots begun.dependencies, state.heap.strong address ≠ 0) ∧
      ∀ dependency ∈ begun.dependencies, dependency.2.Recorded state.heap := by
  have owned (dependency : Id × CapabilityHandle Nat) (listed : dependency ∈ begun.dependencies) :
      state.Owns dependency.2 := .snapshot (List.mem_of_getElem? found) listed
  refine ⟨fun address member => ?_, fun dependency listed =>
    accounted.recorded _ (owned dependency listed)⟩
  obtain ⟨dependency, listed, rfl⟩ := List.mem_map.mp member
  exact accounted.used (owned dependency listed)

/-- A publication that ends: its snapshot is dropped. -/
theorem Accounted.ended (accounted : state.Accounted) {publication : Nat} {begun : Publication Nat}
    (found : state.tree.pending[publication]? = some (some begun)) {tree : ScopeTree Nat}
    (topology : tree.topology = state.tree.topology)
    (pending : tree.pending = state.tree.pending.set publication none) :
    ({ state with tree := tree }.dropping (snapshotSlots begun.dependencies)).Accounted := by
  refine accounted.passed rfl ?_ fun handle owns => ?_
  · unfold Lifetimes.roots Lifetimes.dropping
    simp only [topology, pending, leaving_push, ScopeTree.snapshots_take found]
    ac_rfl
  · cases owns with
    | entry held =>
      simp only [Lifetimes.dropping, topology] at held
      exact .entry held
    | snapshot running listed =>
      simp only [Lifetimes.dropping, pending] at running
      exact .snapshot (ScopeTree.mem_of_set_none running) listed
    | client held => exact .client held

/-- **A constructor that returns a value.** -/
theorem Accounted.constructed (accounted : state.Accounted) {publication : Nat}
    {begun : Publication Nat} (found : state.tree.pending[publication]? = some (some begun)) :
    (state.constructed begun state.heap.slots.length (({ state.tree with
      pending := state.tree.pending.set publication none } : ScopeTree Nat).complete begun
        (.ok state.heap.slots.length))).Accounted := by
  obtain ⟨used, recorded⟩ := accounted.snapshot found
  have sound := accounted.sound.alloc used
  have extends_ := Heap.extends_alloc state.heap (snapshotSlots begun.dependencies)
  have snapshots := ScopeTree.snapshots_take found
  rcases ScopeTree.complete_cases { state.tree with
      pending := state.tree.pending.set publication none } begun state.heap.slots.length with
    ⟨topology, pending, other⟩ | ⟨handle, next, same, live, definition, value, dependencies,
      topology, pending⟩
  · generalize ScopeTree.complete _ _ _ = after at topology pending other
    obtain ⟨answer, tree⟩ := after
    simp only at topology pending other
    unfold Lifetimes.constructed
    split
    · rename_i handle _ equal
      exact absurd (Prod.mk.inj equal).1 (other handle)
    · rename_i equal
      obtain ⟨rfl, rfl⟩ := Prod.mk.inj equal
      refine accounted.onward ?_ extends_ fun handle owns => ?_
      · refine Eq.mp (congrArg _ ?_) sound
        unfold Lifetimes.roots Lifetimes.dropping
        simp only [topology, pending, snapshots, leaving_push, ← Multiset.cons_coe, Multiset.cons_add,
          Multiset.add_cons]
        congr 1
        ac_rfl
      · cases owns with
        | entry held =>
          simp only [Lifetimes.dropping, topology] at held
          exact .inl (.entry held)
        | snapshot running listed =>
          simp only [Lifetimes.dropping, pending] at running
          exact .inl (.snapshot (ScopeTree.mem_of_set_none running) listed)
        | client held => exact .inl (.client held)
  · rw [same]
    obtain ⟨scope, present, _⟩ := Topology.scope_of_live live
    have first := sound.retain (sound.used_of_root (Multiset.mem_cons_self _ _))
    have second := first.retain (first.used_of_root (Multiset.mem_cons_self _ _))
    have onward := extends_.trans ((Heap.extends_retain _ state.heap.slots.length).trans
      (Heap.extends_retain _ state.heap.slots.length))
    have published : handle.Recorded (((state.heap.alloc
        (snapshotSlots begun.dependencies)).retain state.heap.slots.length).retain
          state.heap.slots.length) := by
      have new : handle.Recorded (state.heap.alloc (snapshotSlots begun.dependencies)) := by
        apply CapabilityHandle.recorded_new
        · rw [value, Heap.length_alloc]
          exact Nat.lt_succ_self _
        · rw [value, dependencies, Heap.dependencies_alloc, if_pos rfl]
        · rw [dependencies]
          exact fun dependency listed => (recorded dependency listed).extends extends_
      exact new.extends ((Heap.extends_retain _ _).trans (Heap.extends_retain _ _))
    unfold Lifetimes.constructed
    refine accounted.onward ?_ onward fun other owns => ?_
    · have replaced := Topology.references_install present handle
      rw [value, definition] at replaced
      simp only at replaced
      refine Eq.mp (congrArg _ ?_) second
      unfold Lifetimes.roots Lifetimes.dropping
      simp only [topology, pending, snapshots, leaving_push, clients_push, value]
      rw [← Multiset.coe_add, ← Multiset.cons_coe]
      simp only [Multiset.cons_add, Multiset.add_cons]
      congr 2
      simp only [← Multiset.cons_add]
      rw [← replaced]
      ac_rfl
    · cases owns with
      | entry held =>
        simp only [Lifetimes.dropping, topology] at held
        rcases Topology.entries_install held with ⟨_, _, rfl⟩ | before
        · exact .inr published
        · exact .inl (.entry before)
      | snapshot running listed =>
        simp only [Lifetimes.dropping, pending] at running
        exact .inl (.snapshot (ScopeTree.mem_of_set_none running) listed)
      | client held =>
        rcases List.mem_append.mp held with before | new
        · exact .inl (.client before)
        · cases List.mem_singleton.mp new
          exact .inr published

theorem entries_empty {topology : Topology Nat} {emptied scope : Nat} {lifecycle : Lifecycle} {id : Id}
    (found : ((topology.empty emptied lifecycle).level scope).entries[id]? = some handle) :
    (topology.level scope).entries[id]? = some handle := by
  rcases Topology.level_empty_or emptied scope lifecycle with same | ⟨_, none_⟩
  · rw [← same]
    exact found
  · rw [none_] at found
    exact absurd found (by simp)

/-- A teardown leaves entries of the scopes, and no new ones. -/
theorem entries_teardownEach {topology : Topology Nat} {scopes : List Nat} {orders : List (List Id)}
    {scope : Nat} {id : Id} (found : ((topology.teardownEach orders scopes).2.level scope).entries[id]? =
      some handle) : (topology.level scope).entries[id]? = some handle := by
  induction scopes generalizing topology orders with
  | nil => exact found
  | cons first rest ih =>
    unfold Topology.teardownEach at found
    split at found
    · exact ih found
    · split at found
      · exact entries_empty found
      · exact entries_empty (ih found)

/-- **A teardown.** -/
theorem Accounted.teardown (accounted : state.Accounted) (scope : Nat) {tree : ScopeTree Nat}
    (topology : tree.topology = (state.tree.topology.teardown scope).2)
    (pending : tree.pending = state.tree.pending) :
    ({ state with tree := tree }.dropping (state.tree.topology.teardownDrops []
      (state.tree.topology.collectDescendantsChildFirst scope ++ [scope]))).Accounted := by
  have balance : (state.tree.topology.teardownDrops []
      (state.tree.topology.collectDescendantsChildFirst scope ++ [scope]) : Multiset Nat) +
        (state.tree.topology.teardown scope).2.references = state.tree.topology.references :=
    (Topology.teardownDrops_all _ [] []).trans (add_zero _)
  refine accounted.passed rfl ?_ fun handle owns => ?_
  · unfold Lifetimes.roots Lifetimes.dropping
    simp only [topology, pending, leaving_push]
    rw [← balance]
    ac_rfl
  · cases owns with
    | entry found =>
      simp only [Lifetimes.dropping, topology] at found
      exact .entry (entries_teardownEach found)
    | snapshot running listed =>
      simp only [Lifetimes.dropping, pending] at running
      exact .snapshot running listed
    | client held => exact .client held

/-- A step that changes neither the entries nor the snapshots. -/
theorem Accounted.noted (accounted : state.Accounted) {tree : ScopeTree Nat}
    (topology : tree.topology.references = state.tree.topology.references)
    (entries : ∀ (scope : Nat) (id : Id) (handle : CapabilityHandle Nat),
      (tree.topology.level scope).entries[id]? = some handle →
        (state.tree.topology.level scope).entries[id]? = some handle)
    (pending : tree.pending = state.tree.pending) : ({ state with tree := tree } : Lifetimes).Accounted := by
  refine accounted.passed rfl ?_ fun handle owns => ?_
  · unfold Lifetimes.roots
    simp only [topology, pending]
  · cases owns with
    | entry found => exact .entry (entries _ _ _ found)
    | snapshot running listed =>
      simp only [pending] at running
      exact .snapshot running listed
    | client held => exact .client held

theorem references_child (topology : Topology Nat) (scope : Nat) :
    (topology.child scope).references = topology.references := by
  unfold Topology.references Topology.child
  rw [List.map_append, List.sum_append, List.map_singleton, List.sum_singleton]
  have none_ : slotsOf (∅ : BTreeMap Id (CapabilityHandle Nat)) = [] := rfl
  simp only [none_]
  exact add_zero _

theorem references_release (topology : Topology Nat) (scope : Nat) :
    (topology.release scope).references = topology.references := by
  cases found : topology.scopes[scope]? with
  | none =>
    unfold Topology.release Topology.modify
    rw [List.modify_eq_set_getElem?, found]
    rfl
  | some state => exact add_right_cancel (Topology.references_modify scope _ found)

/-- A withdrawal hands the entry's reference to the caller. -/
theorem Accounted.withdrawn (accounted : state.Accounted) {scope expected : Nat} {capability : Id}
    {entry : CapabilityHandle Nat}
    (found : state.tree.topology.withdrawable scope capability expected = .ok entry) :
    ({ state with
      tree := { state.tree with topology := state.tree.topology.remove scope capability }
      handles := state.handles ++ [some entry] } : Lifetimes).Accounted := by
  have held : (state.tree.topology.level scope).entries[capability]? = some entry := by
    unfold Topology.withdrawable at found
    split at found
    · cases found
    · split at found
      · cases found
      · split at found
        · cases found
        · rename_i here _
          rw [here, ← Except.ok.inj found]
  refine accounted.passed rfl ?_ fun handle owns => ?_
  · unfold Lifetimes.roots
    simp only [clients_push, Topology.references_remove held, Multiset.cons_add, Multiset.add_cons]
  · cases owns with
    | entry found => exact .entry (Topology.entries_remove found)
    | snapshot running listed => exact .snapshot running listed
    | client inside =>
      rcases List.mem_append.mp inside with before | new
      · exact .client before
      · cases List.mem_singleton.mp new
        exact .entry held

/-- The last handle of a scope drops its entries. -/
theorem Accounted.released (accounted : state.Accounted) (scope : Nat) :
    ({ state with tree := { state.tree with
        topology := (state.tree.topology.release scope).empty scope .closed } }.dropping
      (slotsOf (state.tree.topology.level scope).entries)).Accounted := by
  have balance : ((state.tree.topology.release scope).empty scope .closed).references +
      slotsOf ((state.tree.topology.release scope).level scope).entries =
        (state.tree.topology.release scope).references := Topology.references_empty scope .closed
  rw [Topology.level_release, references_release] at balance
  refine accounted.passed rfl ?_ fun handle owns => ?_
  · unfold Lifetimes.roots Lifetimes.dropping
    simp only [leaving_push]
    rw [← balance]
    ac_rfl
  · cases owns with
    | entry found =>
      have before := entries_empty found
      rw [Topology.level_release] at before
      exact .entry before
    | snapshot running listed => exact .snapshot running listed
    | client held => exact .client held

/-- **Every call keeps the accounts.** -/
theorem Accounted.call (accounted : state.Accounted) (call : ScopeCall Unit) :
    (state.call call).Accounted := by
  cases call with
  | child scope =>
    simp only [Lifetimes.call, ScopeCall.allocated, ScopeTree.step]
    unfold ScopeTree.locked
    split
    · exact accounted
    · split
      · exact accounted
      · refine accounted.noted (references_child _ scope) (fun other id handle found => ?_) rfl
        by_cases new : other = state.tree.topology.scopes.length
        · rw [new] at found
          simp only [Topology.level_child_self] at found
          exact absurd found (by simp)
        · simp only [Topology.level_child_ne new] at found
          exact found
  | publish scope definition expectation =>
    exact accounted.begin (.inl ⟨scope, definition, expectation, rfl⟩)
  | load scope definition context => exact accounted.begin (.inr ⟨scope, definition, context, rfl⟩)
  | constructed publication result =>
    simp only [Lifetimes.call]
    cases running : state.tree.pending[publication]?.join with
    | none => exact accounted
    | some begun =>
      have found := Option.join_eq_some_iff.mp running
      cases result with
      | error reason =>
        simp only [ScopeCall.allocated, Except.map, ScopeTree.step, found]
        exact accounted.ended found rfl rfl
      | ok _ =>
        simp only [ScopeCall.allocated, Except.map, ScopeTree.step, found]
        exact accounted.constructed found
  | withdraw scope capability expected =>
    simp only [Lifetimes.call, ScopeCall.allocated, ScopeTree.step]
    by_cases live : state.tree.topology.live scope
    · by_cases poisoned : state.tree.poisoned
      · rw [ScopeTree.locked, if_neg (not_not.mpr live), if_pos poisoned]
        exact accounted
      · rw [ScopeTree.locked, if_neg (not_not.mpr live), if_neg poisoned]
        unfold ScopeTree.withdraw
        cases found : state.tree.topology.withdrawable scope capability expected with
        | error error => exact accounted
        | ok entry => exact accounted.withdrawn found
    · rw [ScopeTree.locked, if_pos live]
      exact accounted
  | teardown scope =>
    simp only [Lifetimes.call, ScopeCall.allocated, ScopeTree.step]
    by_cases runs : state.tree.topology.live scope = true ∧ ¬ state.tree.poisoned = true
    · rw [if_pos runs, ScopeTree.locked, if_neg (not_not.mpr runs.1), if_neg runs.2]
      unfold ScopeTree.teardown
      have torn : ∀ orders topology, state.tree.topology.teardown scope = (orders, topology) →
          topology = (state.tree.topology.teardown scope).2 := by
        intro orders topology same
        rw [same]
      split
      · exact accounted.teardown scope (torn _ _ ‹_›) rfl
      · exact accounted.teardown scope (torn _ _ ‹_›) rfl
    · rw [if_neg runs]
      unfold ScopeTree.locked
      split
      · exact accounted
      · rename_i live
        split
        · exact accounted
        · rename_i unpoisoned
          exact absurd ⟨not_not.mp live, unpoisoned⟩ runs
  | release scope =>
    simp only [Lifetimes.call, ScopeCall.allocated, ScopeTree.step]
    by_cases last : state.tree.topology.live scope = true ∧ state.tree.releasable scope = true
    · rw [if_pos last]
      exact accounted.released scope
    · rw [if_neg last]
      exact accounted
  | elsewhere =>
    simp only [Lifetimes.call, ScopeCall.allocated, ScopeTree.step]
    split
    · exact accounted
    · exact accounted.noted rfl (fun _ _ _ found => found) rfl

/-- **Every step keeps the accounts.** -/
theorem Accounted.step (accounted : state.Accounted) (call : LifetimeCall) :
    (state.step call).Accounted := by
  cases call with
  | call call => exact accounted.call call
  | abandon publication =>
    simp only [Lifetimes.step]
    cases running : state.tree.pending[publication]?.join with
    | none => exact accounted
    | some begun => exact accounted.ended (Option.join_eq_some_iff.mp running) rfl rfl
  | get scope id =>
    refine accounted.handOut_owned fun handle found => ?_
    obtain ⟨holder, _, held⟩ := Topology.get_held found
    exact .entry held
  | resolve context id =>
    refine accounted.handOut_owned fun handle found => ?_
    obtain ⟨holder, held⟩ := Topology.contextGet_held found
    exact .entry held
  | clone client => exact accounted.handOut_owned fun handle held => (owns_of_held held).2
  | dependency client id =>
    refine accounted.handOut fun handle found => ?_
    obtain ⟨held, client, listed⟩ := Option.bind_eq_some_iff.mp found
    have owns := (owns_of_held client).2
    have recorded := accounted.recorded held owns
    obtain ⟨before, after, split, _⟩ := List.lookup_eq_some_iff.mp listed
    have inside : (id, handle) ∈ held.dependencies := by
      rw [split]
      exact List.mem_append_right before List.mem_cons_self
    exact ⟨recorded.dependency inside,
      accounted.sound.used_of_used (accounted.used owns) (recorded.retains ⟨id, inside⟩)⟩
  | discard client =>
    simp only [Lifetimes.step]
    cases held : state.held client with
    | none => exact accounted
    | some handle =>
      obtain ⟨found, _⟩ := owns_of_held held
      refine accounted.passed rfl ?_ fun other owns => ?_
      · unfold Lifetimes.roots Lifetimes.dropping
        simp only [leaving_push, clients_take found, Multiset.coe_singleton, ← Multiset.singleton_add]
        ac_rfl
      · cases owns with
        | entry found => exact .entry found
        | snapshot running listed => exact .snapshot running listed
        | client inside =>
          rcases List.mem_or_eq_of_mem_set inside with before | none_
          · exact .client before
          · cases none_
  | drop thread => exact (accounted.drop thread).1

theorem accounted_root : root.Accounted where
  sound := Heap.sound_empty
  recorded := by
    intro handle owns
    cases owns with
    | @entry scope id _ found =>
      exfalso
      cases scope with
      | zero => exact absurd found (by simp [root, ScopeTree.root, Topology.level])
      | succ scope => exact absurd found (by simp [root, ScopeTree.root, Topology.level])
    | snapshot running _ => cases running
    | client held => cases held

theorem Accounted.run (accounted : state.Accounted) (calls : List LifetimeCall) :
    (state.run calls).Accounted := by
  induction calls generalizing state with
  | nil => exact accounted
  | cons call calls ih => exact ih (accounted.step call)

/-- **Every value is cleaned exactly once, as soon as nothing holds it any more, and after everything
that was constructed from it.** In every run of calls and clients, with the drops under way at any point
of their course: a value is cleaned exactly when neither an owner nor a drop under way leads to it, and
every step of a drop lets one of the references go, so the drops end. -/
theorem cleanup_exact (calls : List LifetimeCall) :
    (root.run calls).heap.cleaned.Nodup ∧
    (∀ address, address ∈ (root.run calls).heap.cleaned ↔
      address < (root.run calls).heap.slots.length ∧
        ¬ (root.run calls).Held address ∧ ¬ (root.run calls).Dropping address) ∧
    (∀ front address back, (root.run calls).heap.cleaned = front ++ address :: back →
      ∀ dependent, (root.run calls).heap.Retains dependent address → dependent ∈ front) ∧
    ∀ thread first rest, (root.run calls).drops[thread]? = some (first :: rest) →
      ((root.run calls).drop thread).heap.references + 1 = (root.run calls).heap.references := by
  have accounted := accounted_root.run calls
  refine ⟨accounted.sound.once, fun address => ?_, accounted.sound.ordered,
    fun thread => (accounted.drop thread).2⟩
  rw [accounted.sound.cleaned_iff_unreached, accounted.reached_iff, not_or]

/-- A replaced value stays until its last client drops it. -/
example : (root.run [.call (.publish 0 (sampleDefinition sampleA []) .new),
    .call (.constructed 0 (.ok ())), .drop 0,
    .call (.publish 0 (sampleDefinition sampleA []) (.replace 1)),
    .call (.constructed 1 (.ok ())), .drop 1, .drop 1, .discard 0, .drop 2]).heap =
      ⟨[⟨[], 0⟩, ⟨[], 2⟩], [0]⟩ := by decide

end Lifetimes

end Kernis
