/-
**The cycle that the loader reports.**

* `closedCycle_closed` — turning a closed walk to its smallest reference leaves a closed walk, which
  starts at the smallest reference.
* `cycle_of_detectCycles` — the search for a cycle fails with such a walk along declared dependencies.
-/

import Mathlib.Data.List.Rotate
import Kernis.Lib.ActivePath
import Kernis.Loader.Resolve

namespace Kernis

open Std

/-! ### The smallest reference -/

section Smallest

variable {α : Type} [Ord α] [TransOrd α] [LawfulEqOrd α]

/-- The smaller of two values, the first one if they are equal. -/
def pick (smallest value : α) : α := if compare value smallest = .lt then value else smallest

theorem pick_le (smallest value : α) :
    (compare (pick smallest value) smallest).isLE ∧ (compare (pick smallest value) value).isLE := by
  unfold pick
  split
  · rename_i less
    exact ⟨by rw [less]; rfl, by rw [compare_self]; rfl⟩
  · rename_i least
    refine ⟨by rw [compare_self]; rfl, ?_⟩
    rw [OrientedOrd.eq_swap]
    cases same : compare value smallest with
    | lt => exact absurd same least
    | eq => rfl
    | gt => rfl

/-- **The smallest of a list is picked.** -/
theorem foldl_pick (values : List α) (first : α) :
    values.foldl pick first ∈ first :: values ∧
      ∀ value ∈ first :: values, (compare (values.foldl pick first) value).isLE := by
  induction values generalizing first with
  | nil =>
    refine ⟨List.mem_singleton.mpr rfl, fun value member => ?_⟩
    rw [List.mem_singleton.mp member, List.foldl_nil, compare_self]
    rfl
  | cons second rest ih =>
    obtain ⟨member, least⟩ := ih (pick first second)
    obtain ⟨atFirst, atSecond⟩ := pick_le first second
    have bound := least (pick first second) List.mem_cons_self
    rw [List.foldl_cons]
    refine ⟨?_, fun value inside => ?_⟩
    · rcases List.mem_cons.mp member with same | later
      · rw [same]
        unfold pick
        split
        · exact List.mem_cons_of_mem _ List.mem_cons_self
        · exact List.mem_cons_self
      · exact List.mem_cons_of_mem _ (List.mem_cons_of_mem _ later)
    · rcases List.mem_cons.mp inside with rfl | inside
      · exact TransCmp.isLE_trans bound atFirst
      · rcases List.mem_cons.mp inside with rfl | later
        · exact TransCmp.isLE_trans bound atSecond
        · exact least value (List.mem_cons_of_mem _ later)

end Smallest

/-! ### Turning a closed walk -/

/-- A closed walk may start anywhere. -/
theorem ClosedWalk.turn {α : Type} {step : α → α → Prop} {front back : List α} {start first : α}
    (walk : (front ++ start :: back ++ [first]).IsChain step)
    (closed : (front ++ start :: back).head? = some first) :
    ClosedWalk step (start :: back ++ front ++ [start]) := by
  refine ⟨?_, start, back ++ front, by simp⟩
  cases front with
  | nil =>
    cases closed
    simpa using walk
  | cons one rest =>
    cases closed
    have ending : (start :: back ++ [first]).IsChain step := by
      rw [List.append_assoc] at walk
      exact walk.right_of_append
    have opening : ([first] ++ (rest ++ [start])).IsChain step := by
      have parts : first :: rest ++ start :: back ++ [first] =
          ([first] ++ (rest ++ [start])) ++ (back ++ [first]) := by simp
      rw [parts] at walk
      exact walk.left_of_append
    have joined := ending.append_overlap opening (List.cons_ne_nil first [])
    simpa using joined

/-- **The reported cycle is a closed walk from its smallest reference.** -/
theorem closedCycle_closed {step : ModuleReference → ModuleReference → Prop}
    {path : List ModuleReference} (walk : ClosedWalk step path) :
    ClosedWalk step (closedCycle path) ∧
      ∀ first ∈ (closedCycle path).head?, ∀ reference ∈ closedCycle path,
        (compare first reference).isLE := by
  obtain ⟨steps, first, middle, rfl⟩ := walk
  obtain ⟨member, least⟩ := foldl_pick middle first
  have turned : rotateToSmallest (first :: middle) =
      (first :: middle).rotate ((first :: middle).idxOf (middle.foldl pick first)) := rfl
  generalize middle.foldl pick first = smallest at member least turned
  obtain ⟨front, back, split, fresh⟩ := List.eq_append_cons_of_mem member
  have cycle : closedCycle (first :: middle ++ [first]) = smallest :: back ++ front ++ [smallest] := by
    have rotated : rotateToSmallest (first :: middle) = smallest :: back ++ front := by
      rw [turned, split, List.idxOf_append_of_notMem fresh, List.idxOf_cons_self, Nat.add_zero,
        List.rotate_append_length_eq]
    unfold closedCycle
    rw [List.dropLast_concat, rotated]
    rfl
  rw [cycle]
  refine ⟨.turn (split ▸ steps) (split ▸ rfl), fun start first_ reference inside => ?_⟩
  cases first_
  refine least reference ?_
  rw [split]
  simp only [List.mem_append, List.mem_cons, List.not_mem_nil, or_false]
    at inside ⊢
  grind

/-! ### The search for a cycle -/

variable {ν : Type} {catalog : ModuleCatalog ν} {roots : BTreeSet ModuleReference}
  {resolved : BTreeMap ModuleReference Discovered}

/-- The edges of the search are declared dependencies, among the resolved references. -/
theorem declares_of_edge {source target : ModuleReference}
    (edge : Exploration.Edge (cycleSearch catalog resolved) source target) :
    catalog.Declares source target ∧ target ∈ resolved := by
  unfold Exploration.Edge cycleSearch at edge
  cases found : catalog.get source with
  | none =>
    simp only [found] at edge
    cases edge
  | some entry =>
    simp only [found] at edge
    obtain ⟨member, inside⟩ := List.mem_filter.mp edge
    exact ⟨⟨entry, found, mem_sortedDependencies.mp member⟩, of_decide_eq_true inside⟩

/-- **A cycle that is found is reported from its smallest reference.** -/
theorem cycle_of_detectCycles {error : LoaderError}
    (failed : detectCycles catalog roots resolved = .error error) :
    ∃ path, error = .dependencyCycle path ∧ ClosedWalk catalog.Declares path ∧
      (∀ reference ∈ path, reference ∈ resolved) ∧
      ∀ first ∈ path.head?, ∀ reference ∈ path, (compare first reference).isLE := by
  unfold detectCycles at failed
  cases searched : Exploration.search (cycleSearch catalog resolved) resolved.keys roots.toList with
  | ok order =>
    rw [searched] at failed
    cases failed
  | error reported =>
    rw [searched] at failed
    cases failed
    cases Exploration.reports_of_search searched with
    | refused _ refused => cases refused
    | @cycle path walk =>
      obtain ⟨closed, least⟩ := closedCycle_closed (walk.imp fun _ _ => declares_of_edge)
      refine ⟨closedCycle path, rfl, closed.imp fun _ _ => And.left, fun reference member => ?_, least⟩
      obtain ⟨_, _, inside⟩ := closed.entered reference member
      exact inside

end Kernis
