/-
**Topological orders by counting.**

Every node waits for a number of dependencies. A node that waits for none is ready; the smallest ready
node is placed next, and every node that depends on it waits for one less.

* `Counting.Counts` — the counters are those of the dependencies that are not placed yet, and a node is
  ready as soon as all of them are.
* `Counting.order` — the whole order, in as many rounds as there are nodes. `order_ordered`: a placed
  node comes after its dependencies. `mem_order`: along a well-founded relation every node is placed.
* `stuck` — a node that is not placed waits for one that is not placed either, so a cycle can be
  reached from it (`cycle`, `cycle_closed`).
-/

import Mathlib.Data.List.Chain
import Mathlib.Data.List.Nodup
import Mathlib.Data.List.Perm.Subperm
import Kernis.Lib.DepthFirst

set_option linter.unusedSectionVars false

namespace Kernis

open Std

/-- How many dependencies each node waits for, the ready nodes, and the placed ones. -/
structure Counting (α : Type) [Ord α] where
  indegree : BTreeMap α Nat
  ready : BTreeSet α
  placed : List α

namespace Counting

variable {α : Type} [Ord α] [TransOrd α] [LawfulEqOrd α] [DecidableEq α]

/-- The dependencies of a node, in order. -/
def needs (dependencies : BTreeMap α (BTreeSet α)) (node : α) : List α :=
  match dependencies[node]? with
  | none => []
  | some needed => needed.toList

/-- The nodes that depend on a node, in order. -/
def dependents (dependencies : BTreeMap α (BTreeSet α)) (node : α) : List α :=
  dependencies.keys.filter fun other => node ∈ needs dependencies other

/-- Nothing is placed, and every node waits for all its dependencies. -/
def start (dependencies : BTreeMap α (BTreeSet α)) : Counting α where
  indegree := dependencies.map fun _ needed => needed.toList.length
  ready := .ofList (dependencies.keys.filter fun node => (needs dependencies node).length = 0)
  placed := []

/-- A node waits for one dependency less. -/
def lower (counting : Counting α) (dependent : α) : Counting α :=
  match counting.indegree[dependent]? with
  | none => counting
  | some counter =>
    { counting with
      indegree := counting.indegree.insert dependent (counter - 1)
      ready := if counter - 1 = 0 then counting.ready.insert dependent else counting.ready }

/-- Places a ready node. -/
def place (dependencies : BTreeMap α (BTreeSet α)) (counting : Counting α) (node : α) : Counting α :=
  (dependents dependencies node).foldl lower
    { counting with ready := counting.ready.erase node, placed := counting.placed ++ [node] }

/-- Places the smallest ready node, for a number of rounds or until none is ready. -/
def run (dependencies : BTreeMap α (BTreeSet α)) : Nat → Counting α → Counting α
  | 0, counting => counting
  | rounds + 1, counting =>
    match counting.ready.toList.head? with
    | none => counting
    | some node => run dependencies rounds (place dependencies counting node)

/-- The nodes in topological order, without those that wait forever. -/
def order (dependencies : BTreeMap α (BTreeSet α)) : List α :=
  (run dependencies dependencies.size (start dependencies)).placed

/-- Walks from a node to its first remaining dependency, up to a node that was passed before. -/
def chase (dependencies : BTreeMap α (BTreeSet α)) (remaining : List α) : Nat → List α → α → List α
  | 0, path, _ => path
  | steps + 1, path, cursor =>
    if cursor ∈ path then path.drop (path.idxOf cursor) ++ [cursor]
    else
      match (needs dependencies cursor).find? (· ∈ remaining) with
      | none => path
      | some next => chase dependencies remaining steps (path ++ [cursor]) next

/-- A cycle of the nodes that wait forever, from the smallest of them on. -/
def cycle (dependencies : BTreeMap α (BTreeSet α)) : List α :=
  let remaining := dependencies.keys.filter (· ∉ order dependencies)
  match remaining with
  | [] => []
  | first :: _ => chase dependencies remaining (remaining.length + 1) [] first

variable {dependencies : BTreeMap α (BTreeSet α)} {counting : Counting α}

theorem needs_nodup (dependencies : BTreeMap α (BTreeSet α)) (node : α) :
    (needs dependencies node).Nodup := by
  unfold needs
  split
  · exact List.nodup_nil
  · exact nodup_toList _

theorem mem_of_needs {node needed : α} (member : needed ∈ needs dependencies node) :
    node ∈ dependencies := by
  unfold needs at member
  split at member
  · cases member
  · exact mem_of_lookup ‹_›

theorem mem_dependents {node other : α} :
    other ∈ dependents dependencies node ↔ node ∈ needs dependencies other := by
  unfold dependents
  rw [List.mem_filter, decide_eq_true_iff, ExtTreeMap.mem_keys]
  exact ⟨And.right, fun member => ⟨mem_of_needs member, member⟩⟩

theorem dependents_nodup (node : α) : (dependents dependencies node).Nodup :=
  ExtTreeMap.nodup_keys.filter _

/-! ### Lowering the counters -/

theorem lower_placed (dependent : α) : (lower counting dependent).placed = counting.placed := by
  unfold lower
  split
  · rfl
  · rfl

theorem lower_indegree (dependent node : α) :
    (lower counting dependent).indegree[node]? =
      if dependent = node then counting.indegree[node]?.map (· - 1) else counting.indegree[node]? := by
  unfold lower
  split
  · rename_i absent
    split
    · rename_i same
      rw [← same, absent]
      rfl
    · rfl
  · rename_i counter found
    rw [lookup_insert]
    split
    · rename_i same
      rw [← same, found]
      rfl
    · rfl

theorem mem_lower_ready (dependent node : α) : node ∈ (lower counting dependent).ready ↔
    node ∈ counting.ready ∨
      dependent = node ∧ counting.indegree[node]?.map (· - 1) = some 0 := by
  unfold lower
  split
  · rename_i absent
    refine ⟨.inl, fun either => either.resolve_right ?_⟩
    rintro ⟨rfl, zero⟩
    rw [absent] at zero
    cases zero
  · rename_i counter found
    by_cases zero : counter - 1 = 0
    · rw [if_pos zero, ExtTreeSet.mem_insert, Std.compare_eq_iff_eq, or_comm]
      refine or_congr_right ⟨fun same => ⟨same, ?_⟩, And.left⟩
      rw [← same, found, Option.map_some, zero]
    · rw [if_neg zero]
      refine ⟨.inl, fun either => either.resolve_right ?_⟩
      rintro ⟨rfl, lowered⟩
      rw [found, Option.map_some, Option.some.injEq] at lowered
      exact zero lowered

theorem foldl_lower_placed (nodes : List α) : (nodes.foldl lower counting).placed = counting.placed := by
  induction nodes generalizing counting with
  | nil => rfl
  | cons node rest ih => rw [List.foldl_cons, ih, lower_placed]

theorem foldl_lower_indegree {nodes : List α} (distinct : nodes.Nodup) (node : α) :
    (nodes.foldl lower counting).indegree[node]? =
      if node ∈ nodes then counting.indegree[node]?.map (· - 1) else counting.indegree[node]? := by
  induction nodes generalizing counting with
  | nil => simp
  | cons first rest ih =>
    obtain ⟨once, distinct⟩ := List.nodup_cons.mp distinct
    rw [List.foldl_cons, ih distinct, lower_indegree]
    by_cases same : first = node
    · rw [if_neg (same ▸ once), if_pos same, if_pos (List.mem_cons.mpr (.inl same.symm))]
    · have others : node ∈ first :: rest ↔ node ∈ rest :=
        ⟨fun member => (List.mem_cons.mp member).resolve_left fun equal => same equal.symm,
          List.mem_cons_of_mem _⟩
      simp only [if_neg same, others]

theorem mem_foldl_lower_ready {nodes : List α} (distinct : nodes.Nodup) (node : α) :
    node ∈ (nodes.foldl lower counting).ready ↔ node ∈ counting.ready ∨
      node ∈ nodes ∧ counting.indegree[node]?.map (· - 1) = some 0 := by
  induction nodes generalizing counting with
  | nil => simp
  | cons first rest ih =>
    obtain ⟨once, distinct⟩ := List.nodup_cons.mp distinct
    rw [List.foldl_cons, ih distinct, mem_lower_ready, lower_indegree, or_assoc, List.mem_cons]
    refine or_congr_right ?_
    by_cases same : first = node
    · have absent : node ∉ rest := same ▸ once
      simp [same, absent]
    · have apart : node ≠ first := fun equal => same equal.symm
      simp [same, apart]

/-! ### What the counters say -/

/-- **The counters are those of the dependencies that are not placed yet**, a node is ready when it has
none left, and a placed node comes after its dependencies. -/
structure Counts (dependencies : BTreeMap α (BTreeSet α)) (counting : Counting α) : Prop where
  waiting : ∀ node ∈ dependencies, counting.indegree[node]? =
    some ((needs dependencies node).filter (· ∉ counting.placed)).length
  ready : ∀ node, node ∈ counting.ready ↔ node ∈ dependencies ∧ node ∉ counting.placed ∧
    ∀ needed ∈ needs dependencies node, needed ∈ counting.placed
  ordered : Exploration.Ordered (needs dependencies) counting.placed
  distinct : counting.placed.Nodup
  known : ∀ node ∈ counting.placed, node ∈ dependencies

theorem counts_start : Counts dependencies (start dependencies) where
  waiting := by
    intro node member
    obtain ⟨needed, found⟩ := exists_lookup_of_mem member
    simp only [start, ExtTreeMap.getElem?_map, found, Option.map_some, needs]
    simp
  ready := by
    intro node
    simp only [start, ExtTreeSet.mem_ofList, List.contains_iff_mem, List.mem_filter, decide_eq_true_iff,
      ExtTreeMap.mem_keys, List.length_eq_zero_iff]
    simp [List.eq_nil_iff_forall_not_mem]
  ordered := by
    intro front node back same
    simp [start] at same
  distinct := List.nodup_nil
  known := by simp [start]

/-- One placement takes one dependency from those that were waited for. -/
theorem waiting_append {needed order : List α} (distinct : needed.Nodup) {node : α}
    (fresh : node ∉ order) :
    (needed.filter (· ∉ order ++ [node])).length =
      if node ∈ needed then (needed.filter (· ∉ order)).length - 1
      else (needed.filter (· ∉ order)).length := by
  have split : needed.filter (· ∉ order ++ [node]) =
      (needed.filter (· ∉ order)).filter (· ≠ node) := by
    rw [List.filter_filter]
    refine List.filter_congr fun other _ => ?_
    simp [not_or, and_comm]
  rw [split]
  have erased : (needed.filter (· ∉ order)).filter (· ≠ node) =
      (needed.filter (· ∉ order)).erase node := by
    rw [(distinct.filter _).erase_eq_filter]
    refine List.filter_congr fun other _ => ?_
    rw [Bool.eq_iff_iff]
    simp
  rw [erased, List.length_erase]
  have inside : node ∈ needed.filter (· ∉ order) ↔ node ∈ needed := by simp [fresh]
  simp only [inside]

/-- **Placing a ready node keeps the counters right.** -/
theorem Counts.place (counts : Counts dependencies counting) {node : α}
    (ready : node ∈ counting.ready) : Counts dependencies (place dependencies counting node) := by
  obtain ⟨known, fresh, met⟩ := (counts.ready node).mp ready
  have placed : (Counting.place dependencies counting node).placed = counting.placed ++ [node] := by
    unfold Counting.place
    rw [foldl_lower_placed]
  have indegree : ∀ other ∈ dependencies, (Counting.place dependencies counting node).indegree[other]? =
      some ((needs dependencies other).filter (· ∉ counting.placed ++ [node])).length := by
    intro other member
    unfold Counting.place
    rw [foldl_lower_indegree (dependents_nodup node),
      waiting_append (needs_nodup dependencies other) fresh]
    simp only [mem_dependents, counts.waiting other member, Option.map_some]
    split
    · rfl
    · rfl
  refine ⟨fun other member => by rw [placed]; exact indegree other member, fun other => ?_,
    placed ▸ counts.ordered.push met, ?_, ?_⟩
  · have lowered : other ∈ (Counting.place dependencies counting node).ready ↔
        (other ∈ counting.ready ∧ other ≠ node) ∨ other ∈ dependents dependencies node ∧
          counting.indegree[other]?.map (· - 1) = some 0 := by
      unfold Counting.place
      rw [mem_foldl_lower_ready (dependents_nodup node), ExtTreeSet.mem_erase, ne_eq,
        Std.compare_eq_iff_eq]
      exact or_congr_left ⟨fun ⟨apart, inside⟩ => ⟨inside, fun same => apart same.symm⟩,
        fun ⟨inside, apart⟩ => ⟨fun same => apart same.symm, inside⟩⟩
    rw [lowered, placed, mem_dependents, counts.ready]
    simp only [List.mem_append, List.mem_singleton, not_or]
    constructor
    · rintro (⟨⟨member, unplaced, all⟩, apart⟩ | ⟨needed, zero⟩)
      · exact ⟨member, ⟨unplaced, apart⟩, fun one inside => .inl (all one inside)⟩
      · have member := mem_of_needs needed
        rw [counts.waiting other member, Option.map_some, Option.some.injEq] at zero
        have left := waiting_append (needs_nodup dependencies other) fresh
        rw [if_pos needed, zero, List.length_eq_zero_iff, List.filter_eq_nil_iff] at left
        refine ⟨member, ⟨fun placed => ?_, ?_⟩, fun one inside => ?_⟩
        · -- A placed node came after its dependencies, but this one was not placed.
          obtain ⟨front, back, same⟩ := List.append_of_mem placed
          have early := counts.ordered front other back same node needed
          exact fresh (same ▸ List.mem_append_left _ early)
        · rintro rfl
          exact fresh (met other needed)
        · have early := left one inside
          rw [decide_eq_true_iff, not_not, List.mem_append, List.mem_singleton] at early
          exact early
    · rintro ⟨member, ⟨unplaced, apart⟩, all⟩
      by_cases needed : node ∈ needs dependencies other
      · refine .inr ⟨needed, ?_⟩
        rw [counts.waiting other member, Option.map_some]
        have left := waiting_append (needs_nodup dependencies other) fresh
        rw [if_pos needed] at left
        rw [← left]
        simp only [Option.some.injEq, List.length_eq_zero_iff, List.filter_eq_nil_iff]
        intro one inside
        rw [decide_eq_true_iff, not_not, List.mem_append, List.mem_singleton]
        exact all one inside
      · refine .inl ⟨⟨member, unplaced, fun one inside => (all one inside).resolve_right ?_⟩, apart⟩
        rintro rfl
        exact needed inside
  · rw [placed, List.nodup_append]
    refine ⟨counts.distinct, List.nodup_singleton _, ?_⟩
    rintro one placed _ new rfl
    exact fresh (List.mem_singleton.mp new ▸ placed)
  · rw [placed]
    intro one member
    rcases List.mem_append.mp member with placed | new
    · exact counts.known one placed
    · exact List.mem_singleton.mp new ▸ known

theorem Counts.run (counts : Counts dependencies counting) (rounds : Nat) :
    Counts dependencies (run dependencies rounds counting) := by
  induction rounds generalizing counting with
  | zero => exact counts
  | succ rounds ih =>
    unfold Counting.run
    split
    · exact counts
    · rename_i node first
      exact ih (counts.place (ExtTreeSet.mem_toList.mp (List.mem_of_mem_head? first)))

/-- A run stops when no node is ready, or it has placed one node a round. -/
theorem run_stops (counting : Counting α) (rounds : Nat) :
    (run dependencies rounds counting).ready.toList.head? = none ∨
      (run dependencies rounds counting).placed.length = counting.placed.length + rounds := by
  induction rounds generalizing counting with
  | zero => exact .inr rfl
  | succ rounds ih =>
    unfold Counting.run
    split
    · exact .inl ‹_›
    · rename_i node first
      refine (ih _).imp_right fun length => ?_
      have placed : (place dependencies counting node).placed = counting.placed ++ [node] := by
        unfold place
        rw [foldl_lower_placed]
      rw [length, placed, List.length_append, List.length_singleton]
      omega

/-! ### The order -/

theorem counts_order : Counts dependencies
    (run dependencies dependencies.size (start dependencies)) :=
  counts_start.run _

theorem order_nodup : (order dependencies).Nodup := counts_order.distinct

theorem mem_of_order {node : α} (member : node ∈ order dependencies) : node ∈ dependencies :=
  counts_order.known node member

/-- **A placed node comes after its dependencies.** -/
theorem order_ordered : Exploration.Ordered (needs dependencies) (order dependencies) :=
  counts_order.ordered

/-- **A node that is not placed waits for one that is not placed either.** -/
theorem stuck {node : α} (member : node ∈ dependencies) (waits : node ∉ order dependencies) :
    ∃ needed ∈ needs dependencies node, needed ∉ order dependencies := by
  by_contra met
  push Not at met
  have ready := (counts_order.ready node).mpr ⟨member, waits, met⟩
  rcases run_stops (start dependencies) dependencies.size with none_ | length
  · rw [List.head?_eq_none_iff] at none_
    have inside := ExtTreeSet.mem_toList.mpr ready
    rw [none_] at inside
    cases inside
  · -- As many nodes are placed as there are, so this one is among them.
    have all : dependencies.keys ⊆ order dependencies := by
      refine (List.subperm_of_subset order_nodup fun one placed =>
        ExtTreeMap.mem_keys.mpr (mem_of_order placed)).perm_of_length_le ?_ |>.symm.subset
      rw [ExtTreeMap.length_keys]
      exact Nat.le_of_eq (length.trans (Nat.zero_add _)).symm
    exact waits (all (ExtTreeMap.mem_keys.mpr member))

/-- **Every node is placed along a well-founded relation**, when all dependencies are nodes. -/
theorem mem_order (closed : ∀ node, ∀ needed ∈ needs dependencies node, needed ∈ dependencies)
    (founded : WellFounded fun needed node => needed ∈ needs dependencies node) {node : α}
    (member : node ∈ dependencies) : node ∈ order dependencies := by
  induction node using founded.induction with
  | _ node ih =>
    by_contra waits
    obtain ⟨needed, inside, missing⟩ := stuck member waits
    exact missing (ih needed inside (closed node needed inside))

/-- All nodes are placed exactly when the order is as long as there are nodes. -/
theorem length_order_iff : (order dependencies).length = dependencies.size ↔
    ∀ node ∈ dependencies, node ∈ order dependencies := by
  have inside : List.Subperm (order dependencies) dependencies.keys :=
    List.subperm_of_subset order_nodup fun one placed => ExtTreeMap.mem_keys.mpr (mem_of_order placed)
  constructor
  · intro length node member
    refine (inside.perm_of_length_le ?_).symm.subset (ExtTreeMap.mem_keys.mpr member)
    exact Nat.le_of_eq (ExtTreeMap.length_keys.trans length.symm)
  · intro all
    have same : (order dependencies).Perm dependencies.keys :=
      (List.perm_ext_iff_of_nodup order_nodup ExtTreeMap.nodup_keys).mpr fun node =>
        ⟨fun placed => ExtTreeMap.mem_keys.mpr (mem_of_order placed),
          fun member => all node (ExtTreeMap.mem_keys.mp member)⟩
    rw [same.length_eq, ExtTreeMap.length_keys]

/-! ### The cycle -/

/-- **A walk among nodes that all wait for one of them comes back to a node it passed.** -/
theorem chase_closed {remaining : List α}
    (waits : ∀ node ∈ remaining, ∃ needed ∈ needs dependencies node, needed ∈ remaining)
    {steps : Nat} {path : List α} {cursor : α} (distinct : path.Nodup) (inside : path ⊆ remaining)
    (member : cursor ∈ remaining) (enough : remaining.length < path.length + steps)
    (chained : (path ++ [cursor]).IsChain fun node needed => needed ∈ needs dependencies node) :
    ∃ node middle, chase dependencies remaining steps path cursor = node :: middle ++ [node] ∧
      (node :: middle ++ [node]).IsChain fun node needed => needed ∈ needs dependencies node := by
  induction steps generalizing path cursor with
  | zero =>
    have shorter := (List.subperm_of_subset distinct inside).length_le
    omega
  | succ steps ih =>
    unfold chase
    by_cases passed : cursor ∈ path
    · rw [if_pos passed]
      obtain ⟨front, back, rfl, first⟩ := List.eq_append_cons_of_mem passed
      refine ⟨cursor, back, ?_, ?_⟩
      · rw [List.idxOf_append_of_notMem first, List.idxOf_cons_self, Nat.add_zero,
          List.drop_left]
      · rw [List.append_assoc] at chained
        exact chained.right_of_append
    · rw [if_neg passed]
      obtain ⟨needed, edge, there⟩ := waits cursor member
      cases found : (needs dependencies cursor).find? (· ∈ remaining) with
      | none =>
        have absent := List.find?_eq_none.mp found needed edge
        exact absurd (decide_eq_true there) absent
      | some next =>
        have stays := List.find?_some found
        rw [decide_eq_true_iff] at stays
        refine ih ?_ ?_ stays ?_ ?_
        · exact List.nodup_append.mpr ⟨distinct, List.nodup_singleton _, by
            rintro one before _ new rfl
            exact passed (List.mem_singleton.mp new ▸ before)⟩
        · intro one before
          rcases List.mem_append.mp before with before | new
          · exact inside before
          · exact List.mem_singleton.mp new ▸ member
        · rw [List.length_append, List.length_singleton]
          omega
        · refine chained.append (List.isChain_singleton _) ?_
          intro last final one first
          rw [List.getLast?_concat, Option.mem_some_iff] at final
          rw [List.head?_cons, Option.mem_some_iff] at first
          subst final first
          exact List.mem_of_find?_eq_some found

/-- **The nodes that wait forever contain a cycle**, which is found. -/
theorem cycle_closed (closed : ∀ node, ∀ needed ∈ needs dependencies node, needed ∈ dependencies)
    {node : α} (member : node ∈ dependencies) (unplaced : node ∉ order dependencies) :
    ∃ first middle, cycle dependencies = first :: middle ++ [first] ∧
      (first :: middle ++ [first]).IsChain fun node needed => needed ∈ needs dependencies node := by
  have remains : ∀ one, one ∈ dependencies.keys.filter (· ∉ order dependencies) ↔
      one ∈ dependencies ∧ one ∉ order dependencies := by
    intro one
    rw [List.mem_filter, ExtTreeMap.mem_keys, decide_eq_true_iff]
  have waits : ∀ one ∈ dependencies.keys.filter (· ∉ order dependencies),
      ∃ needed ∈ needs dependencies one, needed ∈ dependencies.keys.filter
        (· ∉ order dependencies) := by
    intro one inside
    obtain ⟨known, waiting⟩ := (remains one).mp inside
    obtain ⟨needed, edge, missing⟩ := stuck known waiting
    exact ⟨needed, edge, (remains needed).mpr ⟨closed one needed edge, missing⟩⟩
  unfold cycle
  cases listed : dependencies.keys.filter (· ∉ order dependencies) with
  | nil =>
    have inside := (remains node).mpr ⟨member, unplaced⟩
    rw [listed] at inside
    cases inside
  | cons first rest =>
    rw [listed] at waits
    exact chase_closed waits List.nodup_nil (List.nil_subset _) List.mem_cons_self
      (by rw [List.length_nil]; omega) (List.isChain_singleton _)

end Counting

end Kernis
