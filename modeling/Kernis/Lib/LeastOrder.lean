/-
**The order by counting is the least one.**

* `order_least` — no list of all nodes in which each comes after its dependencies is smaller than the
  order that always places the smallest ready node.
* `mem_order_iff`: every node is placed exactly when there is no cycle.
* `runSafely`, `chaseSafely` — the counting and the walk with everything that could go wrong: a counter
  that is missing or already zero, a walk that leaves the nodes. `runSafely_eq`, `chaseSafely_eq`:
  nothing does, and both end.
-/

import Kernis.Lib.ActivePath
import Kernis.Lib.Topological

set_option linter.unusedSectionVars false

namespace Kernis

open Std

namespace Counting

variable {α : Type} [Ord α] [TransOrd α] [LawfulEqOrd α] [DecidableEq α]
  {dependencies : BTreeMap α (BTreeSet α)} {counting : Counting α}

/-- A node needs another one. -/
def Needs (dependencies : BTreeMap α (BTreeSet α)) (node needed : α) : Prop :=
  needed ∈ needs dependencies node

/-! ### The least order -/

/-- One list comes before another one in the dictionary. -/
abbrev Before : List α → List α → Prop := List.Lex fun one other => compare one other = .lt

/-- The node that is placed is the smallest ready one. -/
theorem first_ready {node other : α} (first : counting.ready.toList.head? = some node)
    (ready : other ∈ counting.ready) : node = other ∨ compare node other = .lt := by
  have sorted := ExtTreeSet.ordered_toList (t := counting.ready)
  rw [← ExtTreeSet.mem_toList] at ready
  cases listed : counting.ready.toList with
  | nil =>
    rw [listed] at first
    cases first
  | cons one rest =>
    rw [listed] at first sorted ready
    cases first
    rcases List.mem_cons.mp ready with same | later
    · exact .inl same.symm
    · exact .inr ((List.pairwise_cons.mp sorted).1 other later)

theorem place_placed (node : α) :
    (place dependencies counting node).placed = counting.placed ++ [node] := by
  unfold place
  rw [foldl_lower_placed]

/-- A run only appends. -/
theorem run_appends (rounds : Nat) (counting : Counting α) :
    ∃ more, (run dependencies rounds counting).placed = counting.placed ++ more := by
  induction rounds generalizing counting with
  | zero => exact ⟨[], (List.append_nil _).symm⟩
  | succ rounds ih =>
    unfold run
    split
    · exact ⟨[], (List.append_nil _).symm⟩
    · rename_i node first
      obtain ⟨more, later⟩ := ih (place dependencies counting node)
      rw [place_placed, List.append_assoc] at later
      exact ⟨node :: more, later⟩

/-- **A list of all nodes in which each comes after its dependencies.** -/
structure Topological (dependencies : BTreeMap α (BTreeSet α)) (nodes : List α) : Prop where
  all : nodes.Perm dependencies.keys
  ordered : Exploration.Ordered (needs dependencies) nodes

/-- The next node of a topological order that starts with the placed nodes is ready. -/
theorem Counts.next_ready (counts : Counts dependencies counting) {next : α} {rest : List α}
    (other : Topological dependencies (counting.placed ++ next :: rest)) : next ∈ counting.ready := by
  have distinct := other.all.nodup_iff.mpr ExtTreeMap.nodup_keys
  refine (counts.ready next).mpr ⟨?_, fun placed => ?_, ?_⟩
  · exact ExtTreeMap.mem_keys.mp (other.all.subset (List.mem_append_right _ List.mem_cons_self))
  · exact (List.nodup_append.mp distinct).2.2 next placed next List.mem_cons_self rfl
  · exact other.ordered counting.placed next rest rfl

/-- **A run that places every node is at most as large as any topological order** that starts with the
nodes that are placed: the two part where the run places a smaller ready node. -/
theorem run_least (counts : Counts dependencies counting) {rounds : Nat} {rest : List α}
    (other : Topological dependencies (counting.placed ++ rest))
    (whole : (run dependencies rounds counting).placed.length = dependencies.size) :
    (run dependencies rounds counting).placed = counting.placed ++ rest ∨
      Before (run dependencies rounds counting).placed (counting.placed ++ rest) := by
  have length : (counting.placed ++ rest).length = dependencies.size := by
    rw [other.all.length_eq, ExtTreeMap.length_keys]
  -- A run that stops here has nothing left to place.
  have stops : counting.placed.length = dependencies.size →
      counting.placed = counting.placed ++ rest := by
    intro all
    rw [List.length_append, all] at length
    rw [List.length_eq_zero_iff.mp (by omega : rest.length = 0), List.append_nil]
  induction rounds generalizing counting rest with
  | zero => exact .inl (stops whole)
  | succ rounds ih =>
    unfold run at whole ⊢
    split at whole
    · exact .inl (stops whole)
    · rename_i node first
      have ready : node ∈ counting.ready :=
        ExtTreeSet.mem_toList.mp (List.mem_of_mem_head? first)
      cases rest with
      | nil =>
        have placed : node ∈ counting.placed := by
          have member := ExtTreeMap.mem_keys.mpr ((counts.ready node).mp ready).1
          have inside := other.all.symm.subset member
          rwa [List.append_nil] at inside
        exact absurd placed ((counts.ready node).mp ready).2.1
      | cons next rest =>
        rcases first_ready first (counts.next_ready other) with rfl | smaller
        · have split : counting.placed ++ node :: rest =
              (place dependencies counting node).placed ++ rest := by
            rw [place_placed, List.append_assoc]
            rfl
          rw [split] at other length ⊢
          refine ih (counts.place ready) other whole length fun all => ?_
          rw [List.length_append, all] at length
          rw [List.length_eq_zero_iff.mp (by omega : rest.length = 0), List.append_nil]
        · obtain ⟨more, later⟩ :
              ∃ more, (run dependencies rounds (place dependencies counting node)).placed =
                (place dependencies counting node).placed ++ more := run_appends rounds _
          rw [place_placed, List.append_assoc] at later
          have parts : Before (node :: more) (next :: rest) := .rel smaller
          rw [later]
          exact .inr (List.Lex.append_left _ parts counting.placed)

/-- **The order is the least topological one.** -/
theorem order_least (whole : (order dependencies).length = dependencies.size) {other : List α}
    (topological : Topological dependencies other) :
    order dependencies = other ∨ Before (order dependencies) other := by
  have begun : Topological dependencies ((start dependencies).placed ++ other) := topological
  exact run_least counts_start begun whole

/-- A whole order is a topological one. -/
theorem order_topological (whole : (order dependencies).length = dependencies.size) :
    Topological dependencies (order dependencies) where
  all := (List.perm_ext_iff_of_nodup order_nodup ExtTreeMap.nodup_keys).mpr fun node => by
    rw [ExtTreeMap.mem_keys]
    exact ⟨mem_of_order, length_order_iff.mp whole node⟩
  ordered := order_ordered

/-- **Every node is placed exactly when no node needs itself**, not even indirectly. -/
theorem mem_order_iff (closed : ∀ node, ∀ needed ∈ needs dependencies node, needed ∈ dependencies) :
    (∀ node ∈ dependencies, node ∈ order dependencies) ↔
      ∀ node, ¬ Relation.TransGen (Needs dependencies) node node := by
  constructor
  · intro all node cycle
    obtain ⟨next, first, _⟩ := Relation.TransGen.head'_iff.mp cycle
    exact order_ordered.acyclic (all node (mem_of_needs first)) cycle
  · intro acyclic node member
    by_contra waits
    obtain ⟨first, middle, _, chained⟩ := cycle_closed closed member waits
    exact acyclic first (transGen_of_isChain chained)

/-! ### Nothing goes wrong -/

/-- What could go wrong in counting and walking. -/
inductive Fault
  | missingCounter
  | underflow
  | emptyCycleSet
  | missingMember
  | noRemainingDependency
deriving DecidableEq

/-- Takes one from a counter, which must be there and not zero. -/
def lowerSafely (counting : Counting α) (dependent : α) : Except Fault (Counting α) :=
  match counting.indegree[dependent]? with
  | none => .error .missingCounter
  | some 0 => .error .underflow
  | some (counter + 1) => .ok
    { counting with
      indegree := counting.indegree.insert dependent counter
      ready := if counter = 0 then counting.ready.insert dependent else counting.ready }

/-- Takes one from the counter of each dependent. -/
def lowerAll (counting : Counting α) : List α → Except Fault (Counting α)
  | [] => .ok counting
  | dependent :: rest =>
    match lowerSafely counting dependent with
    | .error fault => .error fault
    | .ok next => lowerAll next rest

/-- Places the smallest ready node until none is ready; `none` is an exhausted bound. -/
def runSafely (dependencies : BTreeMap α (BTreeSet α)) :
    Nat → Counting α → Option (Except Fault (Counting α))
  | 0, _ => none
  | bound + 1, counting =>
    match counting.ready.toList.head? with
    | none => some (.ok counting)
    | some node =>
      match lowerAll { counting with
          ready := counting.ready.erase node
          placed := counting.placed ++ [node] } (dependents dependencies node) with
      | .error fault => some (.error fault)
      | .ok next => runSafely dependencies bound next

/-- Walks from a node to its first remaining dependency, which must be there. -/
def chaseSafely (dependencies : BTreeMap α (BTreeSet α)) (remaining : List α) :
    Nat → List α → α → Option (Except Fault (List α))
  | 0, _, _ => none
  | bound + 1, path, cursor =>
    if cursor ∈ path then some (.ok (path.drop (path.idxOf cursor) ++ [cursor]))
    else
      match dependencies[cursor]? with
      | none => some (.error .missingMember)
      | some needed =>
        match needed.toList.find? (· ∈ remaining) with
        | none => some (.error .noRemainingDependency)
        | some next => chaseSafely dependencies remaining bound (path ++ [cursor]) next

/-- A positive counter is lowered. -/
theorem lowerSafely_eq {dependent : α} {counter : Nat}
    (found : counting.indegree[dependent]? = some (counter + 1)) :
    lowerSafely counting dependent = .ok (lower counting dependent) := by
  unfold lowerSafely lower
  rw [found]
  rfl

theorem lowerAll_eq {nodes : List α} (distinct : nodes.Nodup)
    (positive : ∀ node ∈ nodes, ∃ counter, counting.indegree[node]? = some (counter + 1)) :
    lowerAll counting nodes = .ok (nodes.foldl lower counting) := by
  induction nodes generalizing counting with
  | nil => rfl
  | cons node rest ih =>
    obtain ⟨once, others⟩ := List.nodup_cons.mp distinct
    obtain ⟨⟨counter, found⟩, positives⟩ := List.forall_mem_cons.mp positive
    unfold lowerAll
    rw [lowerSafely_eq found]
    refine ih others fun other member => ?_
    have apart : node ≠ other := by
      rintro rfl
      exact once member
    rw [lower_indegree, if_neg apart]
    exact positives other member

/-- **A dependent of a ready node waits for it**, so its counter is not zero. -/
theorem Counts.positive (counts : Counts dependencies counting) {node : α}
    (ready : node ∈ counting.ready) {dependent : α} (member : dependent ∈ dependents dependencies node) :
    ∃ counter, counting.indegree[dependent]? = some (counter + 1) := by
  have needed := mem_dependents.mp member
  obtain ⟨_, fresh, _⟩ := (counts.ready node).mp ready
  rw [counts.waiting dependent (mem_of_needs needed)]
  have waits : 0 < ((needs dependencies dependent).filter (· ∉ counting.placed)).length :=
    List.length_pos_of_mem (List.mem_filter.mpr ⟨needed, decide_eq_true fresh⟩)
  exact ⟨_, congrArg some (Nat.sub_add_cancel waits).symm⟩

/-- The placed nodes are at most all nodes. -/
theorem Counts.length_le (counts : Counts dependencies counting) :
    counting.placed.length ≤ dependencies.size := by
  rw [← ExtTreeMap.length_keys]
  exact (List.subperm_of_subset counts.distinct fun node placed =>
    ExtTreeMap.mem_keys.mpr (counts.known node placed)).length_le

/-- **The counting ends and no counter is missing or runs below zero.** -/
theorem runSafely_eq (counts : Counts dependencies counting) {bound rounds : Nat}
    (enough : dependencies.size < counting.placed.length + bound)
    (all : dependencies.size ≤ counting.placed.length + rounds) :
    runSafely dependencies bound counting = some (.ok (run dependencies rounds counting)) := by
  induction bound generalizing counting rounds with
  | zero =>
    have most := counts.length_le
    omega
  | succ bound ih =>
    unfold runSafely
    cases first : counting.ready.toList.head? with
    | none =>
      cases rounds with
      | zero => rfl
      | succ rounds =>
        unfold run
        rw [first]
    | some node =>
      have ready : node ∈ counting.ready :=
        ExtTreeSet.mem_toList.mp (List.mem_of_mem_head? first)
      have later := counts.place ready
      have most := later.length_le
      rw [place_placed, List.length_append, List.length_singleton] at most
      cases rounds with
      | zero => omega
      | succ rounds =>
        have lowered : lowerAll { counting with
            ready := counting.ready.erase node
            placed := counting.placed ++ [node] } (dependents dependencies node) =
              .ok (place dependencies counting node) :=
          lowerAll_eq (dependents_nodup node) fun dependent member => counts.positive ready member
        simp only [lowered]
        unfold run
        rw [first]
        refine ih later ?_ ?_
        · rw [place_placed, List.length_append, List.length_singleton]
          omega
        · rw [place_placed, List.length_append, List.length_singleton]
          omega

/-- **The walk ends and never leaves the remaining nodes.** -/
theorem chaseSafely_eq {remaining : List α}
    (waits : ∀ node ∈ remaining, ∃ needed ∈ needs dependencies node, needed ∈ remaining)
    {bound steps : Nat} {path : List α} {cursor : α} (distinct : path.Nodup) (inside : path ⊆ remaining)
    (member : cursor ∈ remaining) (enough : remaining.length < path.length + bound)
    (all : remaining.length < path.length + steps) :
    chaseSafely dependencies remaining bound path cursor =
      some (.ok (chase dependencies remaining steps path cursor)) := by
  have most := (List.subperm_of_subset distinct inside).length_le
  induction bound generalizing steps path cursor with
  | zero => omega
  | succ bound ih =>
    cases steps with
    | zero => omega
    | succ steps =>
      unfold chaseSafely chase
      by_cases passed : cursor ∈ path
      · rw [if_pos passed, if_pos passed]
      · rw [if_neg passed, if_neg passed]
        obtain ⟨needed, edge, there⟩ := waits cursor member
        obtain ⟨set, found⟩ := exists_lookup_of_mem (mem_of_needs edge)
        have listed : needs dependencies cursor = set.toList := by
          unfold needs
          rw [found]
        rw [listed] at edge ⊢
        simp only [found]
        cases next : set.toList.find? (· ∈ remaining) with
        | none => exact absurd (decide_eq_true there) (List.find?_eq_none.mp next needed edge)
        | some next_ =>
          have stays := List.find?_some next
          rw [decide_eq_true_iff] at stays
          have longer : (path ++ [cursor]).Nodup := List.nodup_append.mpr
            ⟨distinct, List.nodup_singleton _, by
              rintro one before _ new rfl
              exact passed (List.mem_singleton.mp new ▸ before)⟩
          have within : path ++ [cursor] ⊆ remaining := by
            intro one before
            rcases List.mem_append.mp before with before | new
            · exact inside before
            · exact List.mem_singleton.mp new ▸ member
          have length : (path ++ [cursor]).length = path.length + 1 := by
            rw [List.length_append, List.length_singleton]
          exact ih longer within stays (by omega) (by omega)
            (List.subperm_of_subset longer within).length_le

end Counting

end Kernis
