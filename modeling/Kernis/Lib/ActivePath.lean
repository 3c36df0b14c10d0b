/-
**What a failed depth-first search reports.**

The active path is the stack of the recursion: its nodes are those marked active, and each has an edge
to the next. So a node that is found active is on the path, and the part of the path from there is
closed by the edge that was followed.

* `ClosedWalk` — steps from node to node and back to the first.
* `Stacked` — the active path is what the marks say. `visit_stacked`: a visit that returns leaves the
  path as it was.
* `reports_of_search` — a search fails on an edge that it refuses, or on a closed walk along edges.
* `visitAll_of_depth` — a greater depth does not change the answer.
-/

import Mathlib.Data.List.Chain
import Kernis.Lib.DepthFirst

set_option linter.unusedSectionVars false

namespace Kernis

open Std

/-- **A closed walk**: a step from each node to the next, back to the first. -/
structure ClosedWalk {α : Type} (step : α → α → Prop) (path : List α) : Prop where
  steps : path.IsChain step
  closed : ∃ first middle, path = first :: middle ++ [first]

/-- A closed walk along other steps. -/
theorem ClosedWalk.imp {α : Type} {step other : α → α → Prop} {path : List α}
    (walk : ClosedWalk step path) (implies : ∀ source target, step source target → other source target) :
    ClosedWalk other path :=
  ⟨walk.steps.imp implies, walk.closed⟩

/-- The end of a walk that starts with a step is reached from its start. -/
theorem transGen_of_isChain {α : Type} {step : α → α → Prop} {first last : α} {middle : List α}
    (steps : (first :: middle ++ [last]).IsChain step) : Relation.TransGen step first last := by
  induction middle generalizing first with
  | nil => exact .single ((List.isChain_cons_cons.mp steps).1)
  | cons next rest ih =>
    obtain ⟨one, others⟩ := List.isChain_cons_cons.mp steps
    exact .head one (ih others)

/-- A closed walk returns to its first node. -/
theorem ClosedWalk.cycle {α : Type} {step : α → α → Prop} {path : List α}
    (walk : ClosedWalk step path) : ∃ node ∈ path, Relation.TransGen step node node := by
  obtain ⟨first, middle, rfl⟩ := walk.closed
  exact ⟨first, List.mem_cons_self, transGen_of_isChain walk.steps⟩

/-- Every node of a walk after the first is stepped to. -/
theorem entered_of_isChain {α : Type} {step : α → α → Prop} {first : α} {rest : List α}
    (steps : (first :: rest).IsChain step) : ∀ node ∈ rest, ∃ source, step source node := by
  induction rest generalizing first with
  | nil => exact fun _ member => absurd member List.not_mem_nil
  | cons next rest ih =>
    obtain ⟨one, others⟩ := List.isChain_cons_cons.mp steps
    exact List.forall_mem_cons.mpr ⟨⟨first, one⟩, ih others⟩

/-- Every node of a closed walk is stepped to. -/
theorem ClosedWalk.entered {α : Type} {step : α → α → Prop} {path : List α}
    (walk : ClosedWalk step path) : ∀ node ∈ path, ∃ source, step source node := by
  obtain ⟨steps, first, middle, rfl⟩ := walk
  have inner := entered_of_isChain steps
  refine List.forall_mem_cons.mpr ⟨inner first ?_, inner⟩
  exact List.mem_append_right _ (List.mem_singleton.mpr rfl)

namespace Exploration

variable {α ε : Type} [Ord α] [TransOrd α] [LawfulEqOrd α] [DecidableEq α]
  {plan : Plan α ε} {depth : Nat} {node : α} {before after : Exploration α} {path : List α}

/-- An edge of a plan. -/
def Edge (plan : Plan α ε) (source target : α) : Prop := target ∈ plan.edges source

/-- **The active path holds the active nodes**, with an edge from each to the next. -/
structure Stacked (plan : Plan α ε) (exploration : Exploration α) : Prop where
  active : ∀ node : α, exploration.marks[node]? = some .active ↔ node ∈ exploration.activePath
  chained : exploration.activePath.IsChain (Edge plan)

/-- A node is visited along an edge from the top of the active path. -/
def Enters (plan : Plan α ε) (exploration : Exploration α) (node : α) : Prop :=
  ∀ last ∈ exploration.activePath.getLast?, Edge plan last node

theorem stacked_start : Stacked plan (start : Exploration α) :=
  ⟨fun node => by simp [start], List.isChain_nil⟩

/-- An active path that can be extended by a node. -/
theorem chained_append (chained : path.IsChain (Edge plan))
    (enters : ∀ last ∈ path.getLast?, Edge plan last node) :
    (path ++ [node]).IsChain (Edge plan) := by
  refine chained.append (List.isChain_singleton _) fun last final first one => ?_
  rw [List.head?_cons, Option.mem_some_iff] at one
  exact one ▸ enters last final

/-- Entering a node pushes it. -/
theorem Stacked.enter (stacked : Stacked plan before) (enters : Enters plan before node) :
    Stacked plan (before.enter node) where
  active other := by
    change (before.marks.insert node .active)[other]? = some .active ↔
      other ∈ before.activePath ++ [node]
    rw [lookup_insert, List.mem_append, List.mem_singleton, ← stacked.active]
    by_cases same : node = other
    · simp [same]
    · simp [same, Ne.symm same]
  chained := chained_append stacked.chained enters

/-- Leaving the top node pops it. -/
theorem Stacked.leave (stacked : Stacked plan after) (top : after.activePath = path ++ [node])
    (fresh : node ∉ path) : Stacked plan (after.leave node) where
  active other := by
    change (after.marks.insert node .done)[other]? = some .active ↔ other ∈ after.activePath.dropLast
    rw [lookup_insert, top, List.dropLast_concat]
    have inside := stacked.active other
    rw [top, List.mem_append, List.mem_singleton] at inside
    by_cases same : node = other
    · subst same
      simp [fresh]
    · rw [if_neg same, inside]
      exact ⟨fun either => either.resolve_right (Ne.symm same), .inl⟩
  chained := stacked.chained.dropLast

/-- The part of the path from an active node on is closed by the edge that is followed. -/
theorem Stacked.closedWalk (stacked : Stacked plan before) (enters : Enters plan before node)
    (active : before.marks[node]? = some .active) : ClosedWalk (Edge plan) (before.cycleFrom node) := by
  obtain ⟨front, back, split, first⟩ := List.eq_append_cons_of_mem ((stacked.active node).mp active)
  have part : before.activePath.drop (before.activePath.idxOf node) = node :: back := by
    rw [split, List.idxOf_append_of_notMem first, List.idxOf_cons_self, Nat.add_zero, List.drop_left]
  unfold cycleFrom
  rw [part]
  have whole := chained_append stacked.chained enters
  rw [split, List.append_assoc] at whole
  exact ⟨whole.right_of_append, node, back, rfl⟩

/-- Following the edges of the top node keeps the stack. -/
theorem follow_stacked {visit : α → Exploration α → Option (Except ε (Exploration α))}
    (visits : ∀ next one two, visit next one = some (.ok two) → Stacked plan one →
      Enters plan one next → Stacked plan two ∧ two.activePath = one.activePath)
    {edges : List α} (inside : ∀ next ∈ edges, next ∈ plan.edges node)
    (followed : follow plan visit node edges before = some (.ok after)) (stacked : Stacked plan before)
    (top : before.activePath = path ++ [node]) :
    Stacked plan after ∧ after.activePath = path ++ [node] := by
  refine follow_through
    (fun exploration => Stacked plan exploration ∧ exploration.activePath = path ++ [node])
    (fun next member _ one two seen ⟨kept, same⟩ => ?_) followed ⟨stacked, top⟩
  have enters : Enters plan one next := by
    intro last final
    rw [same, List.getLast?_concat, Option.mem_some_iff] at final
    exact final ▸ inside next member
  obtain ⟨later, unchanged⟩ := visits next one two seen kept enters
  exact ⟨later, unchanged.trans same⟩

/-- **A visit that returns leaves the active path as it was.** -/
theorem visit_stacked (visited : visit plan depth node before = some (.ok after))
    (stacked : Stacked plan before) (enters : Enters plan before node) :
    Stacked plan after ∧ after.activePath = before.activePath := by
  induction depth generalizing node before after with
  | zero => cases visited
  | succ depth ih =>
    unfold visit at visited
    split at visited
    · cases visited
      exact ⟨stacked, rfl⟩
    · cases visited
    · rename_i unmarked
      have fresh : node ∉ before.activePath := by
        rw [← stacked.active, unmarked]
        rintro ⟨⟩
      split at visited
      · cases visited
      · cases visited
      · rename_i reached followed
        cases visited
        obtain ⟨kept, top⟩ := follow_stacked (fun _ _ _ seen => ih seen) (fun _ => id) followed
          (stacked.enter enters) rfl
        refine ⟨kept.leave top fresh, ?_⟩
        rw [Exploration.leave, top, List.dropLast_concat]

/-- **What a failed search reports**: an edge that is refused, or a closed walk. -/
inductive Reports (plan : Plan α ε) : ε → Prop
  | refused {source target : α} {error : ε} (edge : Edge plan source target)
      (refused : plan.refuse source target = some error) : Reports plan error
  | cycle {path : List α} (walk : ClosedWalk (Edge plan) path) : Reports plan (plan.cycle path)

/-- Following the edges of the top node fails with a report. -/
theorem follow_reports {visit : α → Exploration α → Option (Except ε (Exploration α))}
    (visits : ∀ next one two, visit next one = some (.ok two) → Stacked plan one →
      Enters plan one next → Stacked plan two ∧ two.activePath = one.activePath)
    {error : ε} (reports : ∀ next one, visit next one = some (.error error) → Stacked plan one →
      Enters plan one next → Reports plan error)
    {edges : List α} (inside : ∀ next ∈ edges, next ∈ plan.edges node)
    (failed : follow plan visit node edges before = some (.error error)) (stacked : Stacked plan before)
    (top : before.activePath = path ++ [node]) : Reports plan error := by
  induction edges generalizing before with
  | nil => cases failed
  | cons next rest ih =>
    obtain ⟨edge, others⟩ := List.forall_mem_cons.mp inside
    have enters : Enters plan before next := by
      intro last final
      rw [top, List.getLast?_concat, Option.mem_some_iff] at final
      exact final ▸ edge
    unfold follow at failed
    split at failed
    · cases failed
      exact .refused edge ‹_›
    · split at failed
      · cases failed
      · cases failed
        exact reports next before ‹_› stacked enters
      · rename_i reached visited
        obtain ⟨kept, same⟩ := visits next before reached visited stacked enters
        exact ih others failed kept (same.trans top)

/-- **A visit fails with a report.** -/
theorem visit_reports {error : ε} (failed : visit plan depth node before = some (.error error))
    (stacked : Stacked plan before) (enters : Enters plan before node) : Reports plan error := by
  induction depth generalizing node before with
  | zero => cases failed
  | succ depth ih =>
    unfold visit at failed
    split at failed
    · cases failed
    · cases failed
      exact .cycle (stacked.closedWalk enters ‹_›)
    · split at failed
      · cases failed
      · cases failed
        exact follow_reports (fun _ _ _ => visit_stacked) (fun _ _ => ih) (fun _ => id) ‹_›
          (stacked.enter enters) rfl
      · cases failed

/-- A node is visited from an empty path. -/
theorem enters_of_empty (bare : before.activePath = []) : Enters plan before node := by
  intro last final
  rw [bare] at final
  cases final

/-- The nodes that are visited one after the other fail with a report. -/
theorem visitAll_reports {nodes : List α} {error : ε}
    (failed : visitAll plan depth nodes before = some (.error error)) (stacked : Stacked plan before)
    (bare : before.activePath = []) : Reports plan error := by
  induction nodes generalizing before with
  | nil => cases failed
  | cons node rest ih =>
    unfold visitAll at failed
    split at failed
    · cases failed
    · cases failed
      exact visit_reports ‹_› stacked (enters_of_empty bare)
    · rename_i reached visited
      obtain ⟨kept, same⟩ := visit_stacked visited stacked (enters_of_empty bare)
      exact ih failed kept (same.trans bare)

/-- **A search fails on a refused edge or on a closed walk.** -/
theorem reports_of_search {territory nodes : List α} {error : ε}
    (failed : search plan territory nodes = .error error) : Reports plan error := by
  unfold search at failed
  split at failed
  · cases failed
  · cases failed
    exact visitAll_reports ‹_› stacked_start rfl
  · cases failed

/-! ### A greater depth -/

/-- Following edges answers the same with visits that answer the same. -/
theorem follow_of_visits {visit deeper : α → Exploration α → Option (Except ε (Exploration α))}
    (same : ∀ next one answer, visit next one = some answer → deeper next one = some answer)
    {edges : List α} {answer : Except ε (Exploration α)}
    (followed : follow plan visit node edges before = some answer) :
    follow plan deeper node edges before = some answer := by
  induction edges generalizing before with
  | nil => exact followed
  | cons next rest ih =>
    unfold follow at followed ⊢
    split
    · rename_i error refused
      rw [refused] at followed
      exact followed
    · rename_i allowed
      simp only [allowed] at followed
      cases visited : visit next before with
      | none =>
        rw [visited] at followed
        cases followed
      | some one =>
        rw [visited] at followed
        rw [same next before one visited]
        cases one with
        | error error => exact followed
        | ok reached => exact ih followed

/-- **A greater depth answers the same.** -/
theorem visit_of_depth {more : Nat} (deeper : depth ≤ more) {answer : Except ε (Exploration α)}
    (visited : visit plan depth node before = some answer) :
    visit plan more node before = some answer := by
  induction depth generalizing node before answer more with
  | zero => cases visited
  | succ depth ih =>
    cases more with
    | zero => omega
    | succ more =>
      have within : depth ≤ more := Nat.le_of_succ_le_succ deeper
      unfold visit at visited ⊢
      split
      · rename_i done
        rw [done] at visited
        exact visited
      · rename_i active
        rw [active] at visited
        exact visited
      · rename_i unmarked
        simp only [unmarked] at visited
        cases followed : follow plan (visit plan depth) node (plan.edges node) (before.enter node) with
        | none =>
          rw [followed] at visited
          cases visited
        | some one =>
          rw [followed] at visited
          rw [follow_of_visits (fun _ _ _ seen => ih within seen) followed]
          exact visited

theorem visitAll_of_depth {more : Nat} (deeper : depth ≤ more) {nodes : List α}
    {answer : Except ε (Exploration α)} (visited : visitAll plan depth nodes before = some answer) :
    visitAll plan more nodes before = some answer := by
  induction nodes generalizing before with
  | nil => exact visited
  | cons node rest ih =>
    unfold visitAll at visited ⊢
    cases first : visit plan depth node before with
    | none =>
      rw [first] at visited
      cases visited
    | some one =>
      rw [first] at visited
      rw [visit_of_depth deeper first]
      cases one with
      | error error => exact visited
      | ok reached => exact ih visited

end Exploration

end Kernis
