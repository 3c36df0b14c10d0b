/-
**The dependents of a set, and the order in which to drain them.**

A graph gives the nodes that each node depends on.

* `untilStable` — a pass is repeated until it changes nothing; `untilStable_last`.
* `Dependent` — the least set over a start that holds whatever depends on a member. `grow` computes it
  in passes; `mem_grow`.
* `depth` — the length of the longest path from a node, which stops at a node of the path;
  `depth_fuel`, `depth_lt`.
* `drainOrder` — the deepest first; `drainOrder_before`.
-/

import Kernis.Lib.Index
import Mathlib.Data.List.Nodup

namespace Kernis

set_option linter.unusedSectionVars false

open Std

/-- A filter that lets an element less pass is shorter. -/
theorem length_filter_lt {α : Type} {keeps fewer : α → Bool} (less : ∀ value, fewer value → keeps value)
    {values : List α} {value : α} (member : value ∈ values) (kept : keeps value = true)
    (gone : fewer value = false) : (values.filter fewer).length < (values.filter keeps).length := by
  have nested : values.filter fewer = (values.filter keeps).filter fewer := by
    rw [List.filter_filter]
    refine List.filter_congr fun other _ => ?_
    cases same : fewer other with
    | false => rfl
    | true => exact (less other same).symm
  rw [nested, List.length_filter_lt_length_iff_exists]
  refine ⟨value, List.mem_filter.mpr ⟨member, kept⟩, ?_⟩
  rw [gone]
  exact Bool.false_ne_true

/-! ### Until nothing changes -/

section Stable

variable {σ : Type}

/-- Repeats a pass until it says that it changed nothing. -/
def untilStable (pass : σ → σ × Bool) : Nat → σ → σ
  | 0, state => state
  | fuel + 1, state =>
    if (pass state).2 then untilStable pass fuel (pass state).1 else (pass state).1

variable {pass : σ → σ × Bool} {Inv : σ → Prop}

/-- **A measure that falls with every change bounds the passes**: the last one changes nothing. -/
theorem untilStable_last (keeps : ∀ state, Inv state → Inv (pass state).1) (measure : σ → Nat)
    (falls : ∀ state, Inv state → (pass state).2 = true → measure (pass state).1 < measure state)
    {state : σ} (start : Inv state) {fuel : Nat} (enough : measure state < fuel) :
    ∃ last, Inv last ∧ pass last = (untilStable pass fuel state, false) := by
  induction fuel generalizing state with
  | zero => exact absurd enough (Nat.not_lt_zero _)
  | succ fuel ih =>
    unfold untilStable
    by_cases changed : (pass state).2 = true
    · rw [if_pos changed]
      have fewer := falls state start changed
      exact ih (keeps state start) (by omega)
    · rw [if_neg changed]
      exact ⟨state, start, Prod.ext rfl (Bool.eq_false_iff.mpr changed)⟩

end Stable

/-! ### Dependents -/

section Dependents

variable {α : Type} [Ord α] [TransOrd α] [LawfulEqOrd α] {next : α → List α} {nodes : List α}

/-- **The least set over a start that holds whatever depends on a member.** -/
inductive Dependent {α : Type} (start : α → Prop) (link : α → α → Prop) : α → Prop
  | start {node : α} (member : start node) : Dependent start link node
  | follows {node other : α} (linked : link node other) (member : Dependent start link other) :
      Dependent start link node

/-- One node in a pass: it joins when it depends on a member. -/
def joinNode (next : α → List α) (state : BTreeSet α × Bool) (node : α) : BTreeSet α × Bool :=
  if node ∈ state.1 then state
  else if (next node).any fun other => other ∈ state.1 then (state.1.insert node, true)
  else state

/-- One pass over the nodes. -/
def growPass (next : α → List α) (nodes : List α) (set : BTreeSet α) : BTreeSet α × Bool :=
  nodes.foldl (joinNode next) (set, false)

/-- Adds the dependents of a set. -/
def grow (next : α → List α) (nodes : List α) (set : BTreeSet α) : BTreeSet α :=
  untilStable (growPass next nodes) (nodes.length + 1) set

/-- What a node does in a pass: nothing, or it joins, which it may. -/
theorem joinNode_cases (next : α → List α) (state : BTreeSet α × Bool) (node : α) :
    (joinNode next state node = state ∧
        (node ∈ state.1 ∨ ∀ other ∈ next node, other ∉ state.1)) ∨
      (joinNode next state node = (state.1.insert node, true) ∧ node ∉ state.1 ∧
        ∃ other ∈ next node, other ∈ state.1) := by
  unfold joinNode
  by_cases member : node ∈ state.1
  · rw [if_pos member]
    exact .inl ⟨rfl, .inl member⟩
  · rw [if_neg member]
    by_cases linked : ((next node).any fun other => other ∈ state.1) = true
    · rw [if_pos linked]
      obtain ⟨other, link, inside⟩ := List.any_eq_true.mp linked
      exact .inr ⟨rfl, member, other, link, of_decide_eq_true inside⟩
    · rw [if_neg linked]
      refine .inl ⟨rfl, .inr fun other link inside => linked ?_⟩
      exact List.any_eq_true.mpr ⟨other, link, decide_eq_true inside⟩

/-- What every joining node keeps, a pass keeps. -/
theorem growFold_keeps {Inv : BTreeSet α → Prop} (joins : ∀ (set : BTreeSet α), Inv set →
      ∀ node ∈ nodes, (∃ other ∈ next node, other ∈ set) → Inv (set.insert node))
    {state : BTreeSet α × Bool} (start : Inv state.1) :
    Inv (nodes.foldl (joinNode next) state).1 := by
  induction nodes generalizing state with
  | nil => exact start
  | cons node rest ih =>
    refine ih (fun set inv other member => joins set inv other (List.mem_cons_of_mem node member)) ?_
    rcases joinNode_cases next state node with ⟨same, _⟩ | ⟨joined, _, linked⟩
    · rw [same]
      exact start
    · rw [joined]
      exact joins _ start node List.mem_cons_self linked

/-- How many nodes are not in a set. -/
def outside (nodes : List α) (set : BTreeSet α) : Nat := (nodes.filter fun node => node ∉ set).length

theorem outside_insert_lt {set : BTreeSet α} {node : α} (member : node ∈ nodes)
    (away : node ∉ set) : outside nodes (set.insert node) < outside nodes set := by
  refine length_filter_lt (fun other absent => ?_) member (decide_eq_true away) ?_
  · exact decide_eq_true fun inside =>
      of_decide_eq_true absent (ExtTreeSet.mem_insert.mpr (.inr inside))
  · rw [decide_eq_false_iff_not, not_not]
    exact ExtTreeSet.mem_insert.mpr (.inl compare_self)

/-- A pass that changes the set leaves fewer nodes outside. One that does not has found no dependent. -/
theorem growFold_cases (rest : List α) (within : ∀ node ∈ rest, node ∈ nodes)
    (state : BTreeSet α × Bool) :
    ((rest.foldl (joinNode next) state).2 = true ∧ (state.2 = true ∨
        outside nodes (rest.foldl (joinNode next) state).1 < outside nodes state.1) ∧
        outside nodes (rest.foldl (joinNode next) state).1 ≤ outside nodes state.1) ∨
      (rest.foldl (joinNode next) state = state ∧ state.2 = false ∧
        ∀ node ∈ rest, node ∈ state.1 ∨ ∀ other ∈ next node, other ∉ state.1) := by
  induction rest generalizing state with
  | nil =>
    cases changed : state.2 with
    | false => exact .inr ⟨rfl, rfl, fun node member => absurd member List.not_mem_nil⟩
    | true => exact .inl ⟨changed, .inl rfl, Nat.le_refl _⟩
  | cons node rest ih =>
    obtain ⟨first, others⟩ := List.forall_mem_cons.mp within
    rw [List.foldl_cons]
    rcases joinNode_cases next state node with ⟨same, closed⟩ | ⟨joined, away, linked⟩
    · rw [same]
      rcases ih others state with changed | ⟨still, unchanged, rest⟩
      · exact .inl changed
      · exact .inr ⟨still, unchanged, List.forall_mem_cons.mpr ⟨closed, rest⟩⟩
    · rw [joined]
      have fewer := outside_insert_lt first away
      rcases ih others (state.1.insert node, true) with ⟨changed, _, less⟩ | ⟨_, unchanged, _⟩
      · exact .inl ⟨changed, .inr (Nat.lt_of_le_of_lt less fewer),
          Nat.le_of_lt (Nat.lt_of_le_of_lt less fewer)⟩
      · cases unchanged

/-- **The passes compute the dependents of the set.** -/
theorem mem_grow {set : BTreeSet α} {node : α} : node ∈ grow next nodes set ↔
    Dependent (· ∈ set) (fun node other => node ∈ nodes ∧ other ∈ next node) node := by
  let Inv (state : BTreeSet α) : Prop := (∀ node ∈ set, node ∈ state) ∧ ∀ node ∈ state,
    Dependent (· ∈ set) (fun node other => node ∈ nodes ∧ other ∈ next node) node
  have keeps (state : BTreeSet α) (inv : Inv state) : Inv (growPass next nodes state).1 := by
    refine growFold_keeps (fun state inv node known linked =>
      ⟨fun one member => ?_, fun one member => ?_⟩) inv
    · exact ExtTreeSet.mem_insert.mpr (.inr (inv.1 one member))
    · rcases ExtTreeSet.mem_insert.mp member with same | inside
      · obtain ⟨other, link, inside⟩ := linked
        cases LawfulEqOrd.eq_of_compare same
        exact .follows ⟨known, link⟩ (inv.2 other inside)
      · exact inv.2 one inside
  have falls (state : BTreeSet α) (_ : Inv state) (changed : (growPass next nodes state).2 = true) :
      outside nodes (growPass next nodes state).1 < outside nodes state := by
    rcases growFold_cases nodes (fun _ => id) (state, false) with ⟨_, fewer, _⟩ | ⟨still, _, _⟩
    · exact fewer.resolve_left Bool.false_ne_true
    · exact absurd ((congrArg Prod.snd still).symm.trans changed) Bool.false_ne_true
  obtain ⟨last, inv, stable⟩ := untilStable_last keeps (outside nodes) falls
    (⟨fun _ => id, fun _ => .start⟩ : Inv set)
    (Nat.lt_succ_of_le (List.length_filter_le _ nodes))
  have result : last = grow next nodes set ∧
      ∀ node ∈ nodes, node ∈ last ∨ ∀ other ∈ next node, other ∉ last := by
    rcases growFold_cases nodes (fun _ => id) (last, false) with ⟨changed, _, _⟩ | ⟨still, _, closed⟩
    · exact absurd ((congrArg Prod.snd stable).symm.trans changed) Bool.false_ne_true
    · exact ⟨congrArg Prod.fst (still.symm.trans stable), closed⟩
  rw [← result.1]
  refine ⟨inv.2 node, fun dependent => ?_⟩
  induction dependent with
  | start member => exact inv.1 _ member
  | @follows node other linked _ inside =>
    exact (result.2 node linked.1).resolve_right fun apart => apart other linked.2 inside

end Dependents

/-! ### Depth -/

section Depth

variable {α : Type} [DecidableEq α] {next : α → List α} {nodes visiting : List α}

/-- The length of the longest path from a node, up to a node that the path has passed. -/
def depth (next : α → List α) : Nat → α → List α → Nat
  | 0, _, _ => 0
  | fuel + 1, node, visiting =>
    if node ∈ visiting then 0
    else ((next node).map fun other => 1 + depth next fuel other (node :: visiting)).max?.getD 0

/-- How many nodes the path has not passed. -/
def ahead (nodes visiting : List α) : Nat := (nodes.filter fun node => node ∉ visiting).length

theorem ahead_cons_lt {node : α} (member : node ∈ nodes) (fresh : node ∉ visiting) :
    ahead nodes (node :: visiting) < ahead nodes visiting := by
  refine length_filter_lt (fun other absent => ?_) member (decide_eq_true fresh) ?_
  · exact decide_eq_true fun inside => of_decide_eq_true absent (List.mem_cons_of_mem node inside)
  · rw [decide_eq_false_iff_not, not_not]
    exact List.mem_cons_self

/-- **The fuel does not matter** once it exceeds the nodes that the path has not passed. -/
theorem depth_fuel (closed : ∀ node ∈ nodes, ∀ other ∈ next node, other ∈ nodes) {fuel more : Nat}
    {node : α} (member : node ∈ nodes) (enough : ahead nodes visiting < fuel)
    (also : ahead nodes visiting < more) :
    depth next fuel node visiting = depth next more node visiting := by
  induction fuel generalizing node visiting more with
  | zero => exact absurd enough (Nat.not_lt_zero _)
  | succ fuel ih =>
    obtain ⟨more, rfl⟩ := Nat.exists_eq_succ_of_ne_zero (Nat.ne_zero_of_lt also)
    unfold depth
    by_cases passed : node ∈ visiting
    · rw [if_pos passed, if_pos passed]
    · have fewer := ahead_cons_lt member passed
      rw [if_neg passed, if_neg passed]
      congr 2
      refine List.map_congr_left fun other link => ?_
      exact congrArg (1 + ·) (ih (closed node member other link) (by omega) (by omega))

variable {rank : α → Nat}

/-- Along a falling rank no path meets a node again. -/
theorem depth_visiting (falls : ∀ node, ∀ other ∈ next node, rank other < rank node) {fuel : Nat}
    {node : α} (above : ∀ passed ∈ visiting, rank node < rank passed) :
    depth next fuel node visiting = depth next fuel node [] := by
  induction fuel generalizing node visiting with
  | zero => rfl
  | succ fuel ih =>
    unfold depth
    rw [if_neg fun passed => Nat.lt_irrefl _ (above node passed), if_neg List.not_mem_nil]
    congr 2
    refine List.map_congr_left fun other link => ?_
    have lower := falls node other link
    have one : depth next fuel other (node :: visiting) = depth next fuel other [] :=
      ih (List.forall_mem_cons.mpr
        ⟨lower, fun passed inside => Nat.lt_trans lower (above passed inside)⟩)
    have two : depth next fuel other [node] = depth next fuel other [] :=
      ih (List.forall_mem_cons.mpr ⟨lower, fun passed inside => absurd inside List.not_mem_nil⟩)
    rw [one, two]

/-- **What a node depends on is less deep.** -/
theorem depth_lt (closed : ∀ node ∈ nodes, ∀ other ∈ next node, other ∈ nodes)
    (falls : ∀ node, ∀ other ∈ next node, rank other < rank node) {node other : α}
    (member : node ∈ nodes) (link : other ∈ next node) :
    depth next (nodes.length + 1) other [] < depth next (nodes.length + 1) node [] := by
  have lower := falls node other link
  have fewer : ahead nodes [node] < nodes.length :=
    Nat.lt_of_lt_of_le (ahead_cons_lt member List.not_mem_nil) (List.length_filter_le _ nodes)
  have below : depth next nodes.length other [node] = depth next (nodes.length + 1) other [] := by
    rw [depth_fuel closed (closed node member other link) fewer (Nat.lt_succ_of_lt fewer)]
    exact depth_visiting falls (List.forall_mem_cons.mpr
      ⟨lower, fun passed inside => absurd inside List.not_mem_nil⟩)
  have longest : 1 + depth next nodes.length other [node] ≤ depth next (nodes.length + 1) node [] := by
    conv_rhs => unfold depth
    rw [if_neg List.not_mem_nil]
    exact List.le_max?_getD_of_mem (List.mem_map_of_mem link)
  omega

end Depth

/-! ### The order -/

section Order

variable {α : Type} [Ord α] [TransOrd α] [LawfulEqOrd α] [DecidableEq α] {depth : α → Nat}
  {set : BTreeSet α}

/-- Compares two nodes: the deeper one first, then by the nodes. -/
def deeper : Nat × α → Nat × α → Ordering :=
  compareLex (fun left right => compare right.1 left.1) fun left right => compare left.2 right.2

instance : TransCmp (deeper : Nat × α → Nat × α → Ordering) :=
  have _first : TransCmp fun left right : Nat × α => compare right.1 left.1 :=
    @TransCmp.opposite _ (compareOn Prod.fst) inferInstance
  have _second : TransCmp fun left right : Nat × α => compare left.2 right.2 :=
    inferInstanceAs (TransCmp (compareOn Prod.snd))
  inferInstanceAs (TransCmp (compareLex _ _))

/-- The nodes of a set, the deepest first. -/
def drainOrder (depth : α → Nat) (set : BTreeSet α) : List α :=
  ((set.toList.map fun node => (depth node, node)).mergeSort fun left right =>
    (deeper left right).isLE).map Prod.snd

theorem perm_drainOrder (depth : α → Nat) (set : BTreeSet α) :
    (drainOrder depth set).Perm set.toList := by
  have sorted := (List.mergeSort_perm (set.toList.map fun node => (depth node, node)) fun left right =>
    (deeper left right).isLE).map Prod.snd
  rw [List.map_map] at sorted
  exact sorted.trans (.of_eq (List.map_id _))

theorem mem_drainOrder {node : α} : node ∈ drainOrder depth set ↔ node ∈ set := by
  rw [(perm_drainOrder depth set).mem_iff, ExtTreeSet.mem_toList]

theorem nodup_drainOrder (depth : α → Nat) (set : BTreeSet α) : (drainOrder depth set).Nodup :=
  (perm_drainOrder depth set).nodup_iff.mpr (nodup_toList set)

/-- No node comes before a deeper one. -/
theorem pairwise_drainOrder (depth : α → Nat) (set : BTreeSet α) :
    (drainOrder depth set).Pairwise fun left right => depth right ≤ depth left := by
  have total (left right : Nat × α) :
      ((deeper left right).isLE || (deeper right left).isLE) = true := by
    rw [@OrientedCmp.eq_swap _ deeper _ right left]
    cases deeper left right <;> rfl
  have sorted := List.pairwise_mergeSort
    (fun (left middle right : Nat × α) (one : (deeper left middle).isLE = true) two =>
      TransCmp.isLE_trans one two) total (set.toList.map fun node => (depth node, node))
  refine List.pairwise_map.mpr (sorted.imp_of_mem fun {left right} one two ordered => ?_)
  obtain ⟨node, _, rfl⟩ := List.mem_map.mp ((List.mergeSort_perm _ _).mem_iff.mp one)
  obtain ⟨other, _, rfl⟩ := List.mem_map.mp ((List.mergeSort_perm _ _).mem_iff.mp two)
  by_contra above
  have first : deeper (depth node, node) (depth other, other) = .gt := by
    have lower : compare (depth other) (depth node) = .gt :=
      Nat.compare_eq_gt.mpr (Nat.lt_of_not_le above)
    show (compare (depth other) (depth node)).then (compare node other) = .gt
    rw [lower]
    rfl
  rw [first] at ordered
  cases ordered

/-- **The deeper of two nodes comes first.** -/
theorem drainOrder_before {node other : α} (member : node ∈ set) (inside : other ∈ set)
    (lower : depth other < depth node) :
    (drainOrder depth set).idxOf node < (drainOrder depth set).idxOf other := by
  have one : node ∈ drainOrder depth set := mem_drainOrder.mpr member
  have two : other ∈ drainOrder depth set := mem_drainOrder.mpr inside
  have first := List.idxOf_lt_length_iff.mpr one
  have second := List.idxOf_lt_length_iff.mpr two
  by_contra before
  rcases Nat.lt_or_eq_of_le (Nat.le_of_not_lt before) with earlier | same
  · have ordered := List.pairwise_iff_getElem.mp (pairwise_drainOrder depth set) _ _ second first
      earlier
    rw [List.getElem_idxOf, List.getElem_idxOf] at ordered
    omega
  · have equal := (List.idxOf_inj two).mp same
    rw [equal] at lower
    exact Nat.lt_irrefl _ lower

end Order

end Kernis
