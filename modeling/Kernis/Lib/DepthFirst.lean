/-
**Depth-first search with cycle reports.**

The search marks a node active when it enters it and done when it leaves it, keeps the path of
active nodes, and lists the nodes it finished. An edge into an active node closes a cycle, which is
reported as the part of the path from that node on; an edge may also be refused before it is
followed.

The recursion is bounded by a depth. `visit_ne_none`: a depth above the number of unmarked nodes is
never exhausted. `Grown` and `visit_done`: marks only grow, and a visit that returns leaves its node
done and listed. `Ordered`: finished nodes come after the nodes they point to, so there is no way back
(`Ordered.acyclic`). `search` is the whole search, with a depth that suffices; `mem_search` says that
it finishes every node it was given, `search_acyclic` that it saw no cycle through them, and
`cycle_of_search` that a search that refuses no edge fails only on a cycle.
-/

import Mathlib.Data.List.Basic
import Mathlib.Logic.Relation
import Kernis.Lib.Index

set_option linter.unusedSectionVars false

namespace Kernis

open Std

/-- The mark of a visited node. -/
inductive VisitState
  | active
  | done
deriving DecidableEq

/-- What the search carries: the marks, the active path, and the finished nodes in order. -/
structure Exploration (α : Type) [Ord α] where
  marks : BTreeMap α VisitState
  activePath : List α
  finished : List α

namespace Exploration

variable {α ε : Type} [Ord α] [TransOrd α] [LawfulEqOrd α] [DecidableEq α]

/-- Nothing visited yet. -/
def start : Exploration α := ⟨∅, [], []⟩

/-- Enters a node. -/
def enter (exploration : Exploration α) (node : α) : Exploration α :=
  ⟨exploration.marks.insert node .active, exploration.activePath ++ [node], exploration.finished⟩

/-- Leaves the last entered node. -/
def leave (exploration : Exploration α) (node : α) : Exploration α :=
  ⟨exploration.marks.insert node .done, exploration.activePath.dropLast,
    exploration.finished ++ [node]⟩

/-- The part of the active path from a node on, closed by the node. -/
def cycleFrom (exploration : Exploration α) (node : α) : List α :=
  exploration.activePath.drop (exploration.activePath.idxOf node) ++ [node]

/-- A graph to search: the edges of a node in order, the edges that are refused, and the report of
a cycle. -/
structure Plan (α ε : Type) where
  edges : α → List α
  refuse : α → α → Option ε
  cycle : List α → ε

/-- Follows the edges of a node in order; `none` is an exhausted depth. -/
def follow (plan : Plan α ε) (visit : α → Exploration α → Option (Except ε (Exploration α)))
    (node : α) : List α → Exploration α → Option (Except ε (Exploration α))
  | [], exploration => some (.ok exploration)
  | next :: rest, exploration =>
    match plan.refuse node next with
    | some error => some (.error error)
    | none =>
      match visit next exploration with
      | none => none
      | some (.error error) => some (.error error)
      | some (.ok reached) => follow plan visit node rest reached

/-- Visits one node within a depth. -/
def visit (plan : Plan α ε) : Nat → α → Exploration α → Option (Except ε (Exploration α))
  | 0, _, _ => none
  | depth + 1, node, exploration =>
    match exploration.marks[node]? with
    | some .done => some (.ok exploration)
    | some .active => some (.error (plan.cycle (exploration.cycleFrom node)))
    | none =>
      match follow plan (visit plan depth) node (plan.edges node) (exploration.enter node) with
      | none => none
      | some (.error error) => some (.error error)
      | some (.ok reached) => some (.ok (reached.leave node))

/-- Visits the given nodes in order. -/
def visitAll (plan : Plan α ε) (depth : Nat) : List α → Exploration α →
    Option (Except ε (Exploration α))
  | [], exploration => some (.ok exploration)
  | node :: rest, exploration =>
    match visit plan depth node exploration with
    | none => none
    | some (.error error) => some (.error error)
    | some (.ok reached) => visitAll plan depth rest reached

variable {plan : Plan α ε}

/-! ### What a visit leaves -/

/-- Done nodes are listed among the finished. -/
def Listed (exploration : Exploration α) : Prop :=
  ∀ node : α, exploration.marks[node]? = some .done → node ∈ exploration.finished

/-- **Marks only grow, done stays done, and done nodes stay listed.** -/
structure Grown (before after : Exploration α) : Prop where
  marked : ∀ node : α, node ∈ before.marks → node ∈ after.marks
  done : ∀ node : α, before.marks[node]? = some .done → after.marks[node]? = some .done
  listed : before.Listed → after.Listed

theorem Grown.refl (exploration : Exploration α) : Grown exploration exploration :=
  ⟨fun _ => id, fun _ => id, id⟩

theorem Grown.trans {first second third : Exploration α} (left : Grown first second)
    (right : Grown second third) : Grown first third :=
  ⟨fun node member => right.marked node (left.marked node member),
    fun node done => right.done node (left.done node done), right.listed ∘ left.listed⟩

theorem Grown.enter {exploration : Exploration α} {node : α}
    (unmarked : exploration.marks[node]? = none) : Grown exploration (exploration.enter node) where
  marked other member := (mem_insert_iff _ _ _ _).mpr (.inr member)
  done := by
    intro other done
    have different : node ≠ other := by
      rintro rfl
      rw [unmarked] at done
      cases done
    exact (lookup_insert_ne _ _ different).trans done
  listed := by
    intro listed other done
    refine listed other ?_
    have inserted := lookup_insert exploration.marks node other VisitState.active
    change (exploration.marks.insert node .active)[other]? = some .done at done
    rw [done] at inserted
    split at inserted
    · cases inserted
    · exact inserted.symm

theorem Grown.leave (exploration : Exploration α) (node : α) :
    Grown exploration (exploration.leave node) where
  marked other member := (mem_insert_iff _ _ _ _).mpr (.inr member)
  done := by
    intro other done
    have inserted := lookup_insert exploration.marks node other VisitState.done
    change (exploration.marks.insert node .done)[other]? = _
    rw [inserted]
    split
    · rfl
    · exact done
  listed := by
    intro listed other done
    have inserted := lookup_insert exploration.marks node other VisitState.done
    change (exploration.marks.insert node .done)[other]? = some .done at done
    rw [done] at inserted
    split at inserted
    · rename_i same
      exact same ▸ List.mem_append_right _ (List.mem_singleton.mpr rfl)
    · exact List.mem_append_left _ (listed other inserted.symm)

/-- Following edges grows whatever every visit grows. -/
theorem follow_grown {visit : α → Exploration α → Option (Except ε (Exploration α))} {node : α}
    (grows : ∀ next before after, visit next before = some (.ok after) → Grown before after)
    {edges : List α} {before after : Exploration α}
    (followed : follow plan visit node edges before = some (.ok after)) : Grown before after := by
  induction edges generalizing before with
  | nil =>
    cases followed
    exact .refl _
  | cons next rest ih =>
    unfold follow at followed
    split at followed
    · cases followed
    · split at followed
      · cases followed
      · cases followed
      · exact (grows _ _ _ ‹_›).trans (ih followed)

/-- **A visit that returns leaves its node done**, and everything else only grown. -/
theorem visit_done {depth : Nat} {node : α} {before after : Exploration α}
    (visited : visit plan depth node before = some (.ok after)) :
    Grown before after ∧ after.marks[node]? = some .done := by
  induction depth generalizing node before after with
  | zero => cases visited
  | succ depth ih =>
    unfold visit at visited
    split at visited
    · cases visited
      exact ⟨.refl _, ‹_›⟩
    · cases visited
    · rename_i unmarked
      split at visited
      · cases visited
      · cases visited
      · rename_i reached followed
        cases visited
        have inside := follow_grown (fun next one two seen => (ih seen).1) followed
        refine ⟨((Grown.enter unmarked).trans inside).trans (.leave reached node), ?_⟩
        exact (lookup_insert _ _ _ _).trans (if_pos rfl)

/-- **A search that returns has finished every node it was given.** -/
theorem visitAll_finished {depth : Nat} {nodes : List α} {before after : Exploration α}
    (visited : visitAll plan depth nodes before = some (.ok after)) :
    Grown before after ∧ ∀ node ∈ nodes, after.marks[node]? = some .done := by
  induction nodes generalizing before with
  | nil =>
    cases visited
    exact ⟨.refl _, by simp⟩
  | cons node rest ih =>
    unfold visitAll at visited
    split at visited
    · cases visited
    · cases visited
    · rename_i reached first
      obtain ⟨grown, done⟩ := visit_done first
      obtain ⟨grown', done'⟩ := ih visited
      exact ⟨grown.trans grown', List.forall_mem_cons.mpr ⟨grown'.done node done, done'⟩⟩

/-! ### The finished nodes are in dependency order -/

/-- **Every finished node comes after the nodes it points to.** -/
def Ordered (edges : α → List α) (finished : List α) : Prop :=
  ∀ front node back, finished = front ++ node :: back → ∀ next ∈ edges node, next ∈ front

theorem Ordered.push {edges : α → List α} {finished : List α} {node : α}
    (ordered : Ordered edges finished) (known : ∀ next ∈ edges node, next ∈ finished) :
    Ordered edges (finished ++ [node]) := by
  intro front other back same next member
  rcases List.eq_nil_or_concat back with rfl | ⟨early, last, rfl⟩
  · obtain ⟨rfl, final⟩ := List.append_inj' same rfl
    cases final
    exact known next member
  · rw [List.concat_eq_append, ← List.cons_append, ← List.append_assoc] at same
    obtain ⟨inner, _⟩ := List.append_inj' same rfl
    exact ordered front other early inner next member

/-- Following edges leaves every target done. -/
theorem follow_done {visit : α → Exploration α → Option (Except ε (Exploration α))} {node : α}
    (visits : ∀ next before after, visit next before = some (.ok after) →
      Grown before after ∧ after.marks[next]? = some .done)
    {edges : List α} {before after : Exploration α}
    (followed : follow plan visit node edges before = some (.ok after)) :
    ∀ next ∈ edges, after.marks[next]? = some .done := by
  induction edges generalizing before with
  | nil => exact fun _ member => absurd member List.not_mem_nil
  | cons next rest ih =>
    unfold follow at followed
    split at followed
    · cases followed
    · split at followed
      · cases followed
      · cases followed
      · have grown := follow_grown (fun _ _ _ seen => (visits _ _ _ seen).1) followed
        refine List.forall_mem_cons.mpr ⟨?_, ih followed⟩
        exact grown.done next (visits _ _ _ ‹_›).2

/-- Following edges keeps what a visit along each of them keeps. -/
theorem follow_through {visit : α → Exploration α → Option (Except ε (Exploration α))} {node : α}
    (Inv : Exploration α → Prop) {edges : List α}
    (keeps : ∀ next ∈ edges, plan.refuse node next = none → ∀ before after,
      visit next before = some (.ok after) → Inv before → Inv after)
    {before after : Exploration α}
    (followed : follow plan visit node edges before = some (.ok after)) (start : Inv before) :
    Inv after := by
  induction edges generalizing before with
  | nil =>
    cases followed
    exact start
  | cons next rest ih =>
    unfold follow at followed
    split at followed
    · cases followed
    · rename_i allowed
      split at followed
      · cases followed
      · cases followed
      · exact ih (fun other member => keeps other (List.mem_cons_of_mem _ member)) followed
          (keeps next List.mem_cons_self allowed _ _ ‹_› start)

/-- Following edges keeps what every visit keeps. -/
theorem follow_keeps {visit : α → Exploration α → Option (Except ε (Exploration α))} {node : α}
    (Inv : Exploration α → Prop)
    (keeps : ∀ next before after, visit next before = some (.ok after) → Inv before → Inv after)
    {edges : List α} {before after : Exploration α}
    (followed : follow plan visit node edges before = some (.ok after)) (start : Inv before) :
    Inv after :=
  follow_through Inv (fun next _ _ => keeps next) followed start

/-- A visit keeps the order. -/
theorem visit_ordered {depth : Nat} {node : α} {before after : Exploration α}
    (visited : visit plan depth node before = some (.ok after))
    (start : before.Listed ∧ Ordered plan.edges before.finished) :
    after.Listed ∧ Ordered plan.edges after.finished := by
  induction depth generalizing node before after with
  | zero => cases visited
  | succ depth ih =>
    have whole := (visit_done visited).1.listed start.1
    unfold visit at visited
    split at visited
    · cases visited
      exact start
    · cases visited
    · rename_i unmarked
      split at visited
      · cases visited
      · cases visited
      · rename_i reached followed
        cases visited
        have entered : (before.enter node).Listed ∧
            Ordered plan.edges (before.enter node).finished :=
          ⟨(Grown.enter unmarked).listed start.1, start.2⟩
        obtain ⟨listed, ordered⟩ := follow_keeps _
          (fun _ _ _ seen kept => ih seen kept) followed entered
        have done := follow_done (fun _ _ _ seen => visit_done seen) followed
        exact ⟨whole, ordered.push fun next member => listed next (done next member)⟩

theorem visitAll_ordered {depth : Nat} {nodes : List α} {before after : Exploration α}
    (visited : visitAll plan depth nodes before = some (.ok after))
    (start : before.Listed ∧ Ordered plan.edges before.finished) :
    after.Listed ∧ Ordered plan.edges after.finished := by
  induction nodes generalizing before with
  | nil =>
    cases visited
    exact start
  | cons node rest ih =>
    unfold visitAll at visited
    split at visited
    · cases visited
    · cases visited
    · exact ih visited (visit_ordered ‹_› start)

/-- In an ordered list every step along an edge moves to the front. -/
theorem Ordered.moves {edges : α → List α} {finished : List α} (ordered : Ordered edges finished)
    {source target : α} (inside : source ∈ finished) (edge : target ∈ edges source) :
    target ∈ finished ∧ finished.idxOf target < finished.idxOf source := by
  obtain ⟨front, back, rfl, first⟩ := List.eq_append_cons_of_mem inside
  have early := ordered front source back rfl target edge
  refine ⟨List.mem_append_left _ early, ?_⟩
  rw [List.idxOf_append_of_mem early, List.idxOf_append_of_notMem first, List.idxOf_cons_self,
    Nat.add_zero]
  exact List.idxOf_lt_length_of_mem early

/-- There is no way back in an ordered list. -/
theorem Ordered.acyclic {edges : α → List α} {finished : List α} (ordered : Ordered edges finished)
    {node : α} (member : node ∈ finished) :
    ¬ Relation.TransGen (fun source target => target ∈ edges source) node node := by
  have descends : ∀ {source target : α}, source ∈ finished →
      Relation.TransGen (fun source target => target ∈ edges source) source target →
      target ∈ finished ∧ finished.idxOf target < finished.idxOf source := by
    intro source target inside path
    induction path with
    | single edge => exact ordered.moves inside edge
    | tail _ edge ih =>
      obtain ⟨there, before⟩ := ordered.moves ih.1 edge
      exact ⟨there, Nat.lt_trans before ih.2⟩
  intro cycle
  exact absurd (descends member cycle).2 (Nat.lt_irrefl _)

/-! ### The depth suffices -/

/-- The nodes of a list that are not marked yet. -/
def unmarked (nodes : List α) (exploration : Exploration α) : Nat :=
  (nodes.filter fun node => node ∉ exploration.marks).length

theorem unmarked_of_grown (nodes : List α) {before after : Exploration α}
    (grown : Grown before after) : unmarked nodes after ≤ unmarked nodes before := by
  unfold unmarked
  refine (List.Sublist.length_le ?_)
  refine List.monotone_filter_right nodes fun node new => ?_
  rw [decide_eq_true_iff] at new ⊢
  exact fun member => new (grown.marked node member)

theorem unmarked_enter {nodes : List α} {exploration : Exploration α} {node : α}
    (member : node ∈ nodes) (fresh : exploration.marks[node]? = none) :
    unmarked nodes (exploration.enter node) < unmarked nodes exploration := by
  unfold unmarked
  have nested : (nodes.filter fun other => other ∉ (exploration.enter node).marks) =
      (nodes.filter fun other => other ∉ exploration.marks).filter
        fun other => other ∉ (exploration.enter node).marks := by
    rw [List.filter_filter]
    refine List.filter_congr fun other _ => ?_
    rw [Bool.eq_iff_iff, Bool.and_eq_true, decide_eq_true_iff, decide_eq_true_iff]
    refine ⟨fun new => ⟨new, fun old => new ((Grown.enter fresh).marked other old)⟩, And.left⟩
  rw [nested, List.length_filter_lt_length_iff_exists]
  refine ⟨node, List.mem_filter.mpr ⟨member, decide_eq_true (not_mem_of_lookup_none fresh)⟩, ?_⟩
  rw [decide_eq_true_iff, not_not]
  exact (mem_insert_iff _ _ _ _).mpr (.inl rfl)

/-- **A depth above the number of unmarked nodes is never exhausted**, in a list of nodes closed
under the edges that are not refused. -/
theorem visit_ne_none {nodes : List α}
    (closed : ∀ node ∈ nodes, ∀ next ∈ plan.edges node, plan.refuse node next = none → next ∈ nodes)
    {depth : Nat} {node : α} (member : node ∈ nodes) {exploration : Exploration α}
    (enough : unmarked nodes exploration < depth) :
    visit plan depth node exploration ≠ none := by
  induction depth generalizing node exploration with
  | zero => omega
  | succ depth ih =>
    unfold visit
    split
    · simp
    · simp
    · rename_i fresh
      have fewer := unmarked_enter member fresh
      -- The edges are followed with one level less, over explorations that only grow.
      have followed : ∀ edges : List α, (∀ next ∈ edges, next ∈ plan.edges node) →
          ∀ reached : Exploration α, unmarked nodes reached < depth →
          follow plan (visit plan depth) node edges reached ≠ none := by
        intro edges
        induction edges with
        | nil => simp [follow]
        | cons next rest ihEdges =>
          intro inside reached room
          obtain ⟨insideFirst, insideRest⟩ := List.forall_mem_cons.mp inside
          unfold follow
          split
          · simp
          · rename_i allowed
            split
            · rename_i exhausted
              exact absurd exhausted (ih (closed node member next insideFirst allowed) room)
            · simp
            · rename_i after visited
              have smaller := unmarked_of_grown nodes (visit_done visited).1
              exact ihEdges insideRest after (by omega)
      have whole := followed (plan.edges node) (fun _ => id) (exploration.enter node) (by omega)
      split
      · exact absurd ‹_› whole
      · simp
      · simp

theorem visitAll_ne_none {territory : List α}
    (closed : ∀ node ∈ territory, ∀ next ∈ plan.edges node,
      plan.refuse node next = none → next ∈ territory)
    {nodes : List α} (inside : ∀ node ∈ nodes, node ∈ territory) {exploration : Exploration α} :
    visitAll plan (territory.length + 1) nodes exploration ≠ none := by
  have enough : ∀ exploration : Exploration α,
      unmarked territory exploration < territory.length + 1 := fun exploration =>
    Nat.lt_succ_of_le (List.length_filter_le _ _)
  induction nodes generalizing exploration with
  | nil => simp [visitAll]
  | cons node rest ih =>
    obtain ⟨insideFirst, insideRest⟩ := List.forall_mem_cons.mp inside
    unfold visitAll
    split
    · rename_i exhausted
      exact absurd exhausted (visit_ne_none closed insideFirst (enough exploration))
    · simp
    · exact ih insideRest

/-- Searches from the given nodes inside a territory of nodes: the finished nodes in order. -/
def search (plan : Plan α ε) (territory nodes : List α) : Except ε (List α) :=
  match visitAll plan (territory.length + 1) nodes start with
  | some (.ok explored) => .ok explored.finished
  | some (.error error) => .error error
  | none => .ok []

theorem mem_search {territory nodes order : List α} (searched : search plan territory nodes = .ok order)
    (closed : ∀ node ∈ territory, ∀ next ∈ plan.edges node,
      plan.refuse node next = none → next ∈ territory)
    (inside : ∀ node ∈ nodes, node ∈ territory) {node : α} (member : node ∈ nodes) :
    node ∈ order := by
  unfold search at searched
  split at searched
  · rename_i explored visited
    cases searched
    obtain ⟨grown, done⟩ := visitAll_finished visited
    have nothing : (start : Exploration α).Listed := by
      intro other done
      simp [start] at done
    exact grown.listed nothing node (done node member)
  · cases searched
  · exact absurd ‹_› (visitAll_ne_none closed inside)

/-- **A search lists the finished nodes in dependency order.** -/
theorem search_ordered {territory nodes order : List α}
    (searched : search plan territory nodes = .ok order) : Ordered plan.edges order := by
  unfold search at searched
  split at searched
  · rename_i explored visited
    cases searched
    have nothing : (start : Exploration α).Listed ∧
        Ordered plan.edges (start : Exploration α).finished :=
      ⟨fun other done => by simp [start] at done, fun front _ _ same => by simp [start] at same⟩
    exact (visitAll_ordered visited nothing).2
  · cases searched
  · cases searched
    intro front node back same
    simp at same

/-- **A search that returns saw no cycle** through a node it was given. -/
theorem search_acyclic {territory nodes order : List α}
    (searched : search plan territory nodes = .ok order)
    (closed : ∀ node ∈ territory, ∀ next ∈ plan.edges node,
      plan.refuse node next = none → next ∈ territory)
    (inside : ∀ node ∈ nodes, node ∈ territory) {node : α} (member : node ∈ nodes) :
    ¬ Relation.TransGen (fun source target => target ∈ plan.edges source) node node :=
  (search_ordered searched).acyclic (mem_search searched closed inside member)

/-! ### Every node once -/

/-- An active node stays active. -/
theorem visit_stays {depth : Nat} {node : α} {before after : Exploration α}
    (visited : visit plan depth node before = some (.ok after)) (other : α)
    (active : before.marks[other]? = some .active) : after.marks[other]? = some .active := by
  induction depth generalizing node before after with
  | zero => cases visited
  | succ depth ih =>
    unfold visit at visited
    split at visited
    · cases visited
      exact active
    · cases visited
    · rename_i unmarked
      have different : node ≠ other := by
        rintro rfl
        rw [unmarked] at active
        cases active
      split at visited
      · cases visited
      · cases visited
      · rename_i reached followed
        cases visited
        have inside := follow_keeps (fun exploration => exploration.marks[other]? = some .active)
          (fun _ _ _ seen still => ih seen still) followed
          ((lookup_insert_ne _ _ different).trans active)
        exact (lookup_insert_ne _ _ different).trans inside

/-- **The finished nodes are done, each is listed once, and all are of the territory.** -/
structure Once (territory : List α) (exploration : Exploration α) : Prop where
  done : ∀ node ∈ exploration.finished, exploration.marks[node]? = some .done
  nodup : exploration.finished.Nodup
  within : ∀ node ∈ exploration.finished, node ∈ territory

theorem visit_once {territory : List α} (closed : ∀ node ∈ territory, ∀ next ∈ plan.edges node,
      plan.refuse node next = none → next ∈ territory)
    {depth : Nat} {node : α} (inside : node ∈ territory) {before after : Exploration α}
    (visited : visit plan depth node before = some (.ok after)) (once : Once territory before) :
    Once territory after := by
  induction depth generalizing node before after with
  | zero => cases visited
  | succ depth ih =>
    unfold visit at visited
    split at visited
    · cases visited
      exact once
    · cases visited
    · rename_i unmarked
      split at visited
      · cases visited
      · cases visited
      · rename_i reached followed
        cases visited
        have apart {exploration : Exploration α} {other : α} (once : Once territory exploration)
            (undone : exploration.marks[node]? ≠ some .done)
            (member : other ∈ exploration.finished) : node ≠ other := by
          rintro rfl
          exact undone (once.done node member)
        have entered : Once territory (before.enter node) :=
          ⟨fun other member => (lookup_insert_ne _ _ (apart once (by rw [unmarked]; exact nofun)
            member)).trans (once.done other member), once.nodup, once.within⟩
        obtain ⟨done, nodup, within⟩ := follow_through (Once territory)
          (fun next member allowed _ _ seen kept =>
            ih (closed node inside next member allowed) seen kept) followed entered
        have active : reached.marks[node]? = some .active := follow_keeps
          (fun exploration => exploration.marks[node]? = some .active)
          (fun _ _ _ seen still => visit_stays seen node still) followed (lookup_insert_self _ _ _)
        have fresh {other : α} (member : other ∈ reached.finished) : node ≠ other :=
          apart ⟨done, nodup, within⟩ (by rw [active]; exact nofun) member
        refine ⟨fun other member => ?_, ?_, fun other member => ?_⟩
        · rcases List.mem_append.mp member with before | now
          · exact (lookup_insert_ne _ _ (fresh before)).trans (done other before)
          · rw [List.mem_singleton.mp now]
            exact lookup_insert_self _ _ _
        · rw [leave, List.nodup_append]
          refine ⟨nodup, List.nodup_singleton _, fun one first other second => ?_⟩
          rw [List.mem_singleton.mp second]
          exact (fresh first).symm
        · rcases List.mem_append.mp member with before | now
          · exact within other before
          · rw [List.mem_singleton.mp now]
            exact inside

/-- **A search lists nodes of its territory, each once.** -/
theorem search_once {territory nodes order : List α}
    (searched : search plan territory nodes = .ok order)
    (closed : ∀ node ∈ territory, ∀ next ∈ plan.edges node,
      plan.refuse node next = none → next ∈ territory)
    (inside : ∀ node ∈ nodes, node ∈ territory) :
    order.Nodup ∧ ∀ node ∈ order, node ∈ territory := by
  have all : ∀ (nodes : List α) (before after : Exploration α),
      (∀ node ∈ nodes, node ∈ territory) → Once territory before →
      visitAll plan (territory.length + 1) nodes before = some (.ok after) →
      Once territory after := by
    intro nodes
    induction nodes with
    | nil =>
      intro before after _ once visited
      cases visited
      exact once
    | cons node rest ih =>
      intro before after inside once visited
      obtain ⟨first, others⟩ := List.forall_mem_cons.mp inside
      unfold visitAll at visited
      split at visited
      · cases visited
      · cases visited
      · exact ih _ _ others (visit_once closed first ‹_› once) visited
  unfold search at searched
  split at searched
  · rename_i explored visited
    cases searched
    have nothing : Once territory (start : Exploration α) :=
      ⟨List.forall_mem_nil _, List.nodup_nil, List.forall_mem_nil _⟩
    obtain ⟨_, nodup, within⟩ := all nodes start explored inside nothing visited
    exact ⟨nodup, within⟩
  · cases searched
  · cases searched
    exact ⟨List.nodup_nil, List.forall_mem_nil _⟩

/-! ### No refused edge was followed -/

/-- The edges of a node that is done were not refused. -/
def Followed (plan : Plan α ε) (exploration : Exploration α) : Prop :=
  ∀ node : α, exploration.marks[node]? = some .done →
    ∀ next ∈ plan.edges node, plan.refuse node next = none

/-- Following edges meets no refused one. -/
theorem follow_allowed {visit : α → Exploration α → Option (Except ε (Exploration α))} {node : α}
    {edges : List α} {before after : Exploration α}
    (followed : follow plan visit node edges before = some (.ok after)) :
    ∀ next ∈ edges, plan.refuse node next = none := by
  induction edges generalizing before with
  | nil => exact fun _ member => absurd member List.not_mem_nil
  | cons next rest ih =>
    unfold follow at followed
    split at followed
    · cases followed
    · split at followed
      · cases followed
      · cases followed
      · exact List.forall_mem_cons.mpr ⟨‹_›, ih followed⟩

theorem visit_followed {depth : Nat} {node : α} {before after : Exploration α}
    (visited : visit plan depth node before = some (.ok after)) (start : Followed plan before) :
    Followed plan after := by
  induction depth generalizing node before after with
  | zero => cases visited
  | succ depth ih =>
    unfold visit at visited
    split at visited
    · cases visited
      exact start
    · cases visited
    · split at visited
      · cases visited
      · cases visited
      · rename_i reached followed
        cases visited
        have entered : Followed plan (before.enter node) := by
          intro other done
          have inserted := lookup_insert before.marks node other VisitState.active
          change (before.marks.insert node .active)[other]? = some .done at done
          rw [done] at inserted
          split at inserted
          · cases inserted
          · exact start other inserted.symm
        have inside := follow_keeps (Followed plan) (fun _ _ _ seen kept => ih seen kept) followed
          entered
        intro other done
        have left := lookup_insert reached.marks node other VisitState.done
        change (reached.marks.insert node .done)[other]? = some .done at done
        rw [done] at left
        split at left
        · rename_i same
          subst same
          exact follow_allowed followed
        · exact inside other left.symm

/-- **A search that returns met no refused edge** at a node it was given. -/
theorem search_allowed {territory nodes order : List α}
    (searched : search plan territory nodes = .ok order)
    (closed : ∀ node ∈ territory, ∀ next ∈ plan.edges node,
      plan.refuse node next = none → next ∈ territory)
    (inside : ∀ node ∈ nodes, node ∈ territory) {node : α} (member : node ∈ nodes) :
    ∀ next ∈ plan.edges node, plan.refuse node next = none := by
  have all : ∀ (nodes : List α) (before after : Exploration α), Followed plan before →
      visitAll plan (territory.length + 1) nodes before = some (.ok after) →
      Followed plan after := by
    intro nodes
    induction nodes with
    | nil =>
      intro before after start visited
      cases visited
      exact start
    | cons first rest ih =>
      intro before after start visited
      unfold visitAll at visited
      split at visited
      · cases visited
      · cases visited
      · exact ih _ _ (visit_followed ‹_› start) visited
  unfold search at searched
  split at searched
  · rename_i explored visited
    have nothing : Followed plan (start : Exploration α) := by
      intro other done
      simp [start] at done
    exact all nodes start explored nothing visited node ((visitAll_finished visited).2 node member)
  · cases searched
  · exact absurd ‹_› (visitAll_ne_none closed inside)

/-! ### A failure is a cycle -/

/-- A visit that returns leaves no node active that was not. -/
theorem visit_active {depth : Nat} {node : α} {before after : Exploration α}
    (visited : visit plan depth node before = some (.ok after)) (other : α)
    (active : after.marks[other]? = some .active) : before.marks[other]? = some .active := by
  induction depth generalizing node before after with
  | zero => cases visited
  | succ depth ih =>
    unfold visit at visited
    split at visited
    · cases visited
      exact active
    · cases visited
    · split at visited
      · cases visited
      · cases visited
      · rename_i reached followed
        cases visited
        have left := lookup_insert reached.marks node other VisitState.done
        change (reached.marks.insert node .done)[other]? = some .active at active
        rw [active] at left
        split at left
        · cases left
        · rename_i different
          have inside := follow_keeps
            (fun exploration => exploration.marks[other]? = some .active →
              (before.enter node).marks[other]? = some .active)
            (fun _ _ _ seen kept still => kept (ih seen still)) followed id left.symm
          exact (lookup_insert_ne _ _ different).symm.trans inside

/-- **A visit that fails closes a cycle**, when every active node leads to the visited one and no edge
is refused. -/
theorem cycle_of_visit (refuses : ∀ node, ∀ next ∈ plan.edges node, plan.refuse node next = none)
    {depth : Nat} {node : α}
    {before : Exploration α} {error : ε}
    (leads : ∀ other : α, before.marks[other]? = some .active →
      Relation.TransGen (fun source target => target ∈ plan.edges source) other node)
    (failed : visit plan depth node before = some (.error error)) :
    ∃ other, Relation.TransGen (fun source target => target ∈ plan.edges source) other other := by
  induction depth generalizing node before with
  | zero => cases failed
  | succ depth ih =>
    -- Every edge of an entered node is followed from a state in which all active nodes lead to it.
    have follows : ∀ (edges : List α) (reached : Exploration α),
        (∀ next ∈ edges, next ∈ plan.edges node) →
        (∀ other : α, reached.marks[other]? = some .active → other = node ∨
          Relation.TransGen (fun source target => target ∈ plan.edges source) other node) →
        follow plan (visit plan depth) node edges reached = some (.error error) →
        ∃ other, Relation.TransGen (fun source target => target ∈ plan.edges source)
          other other := by
      intro edges
      induction edges with
      | nil =>
        intro _ _ _ failed
        cases failed
      | cons next rest ihEdges =>
        intro reached inside leads failed
        obtain ⟨edge, others⟩ := List.forall_mem_cons.mp inside
        unfold follow at failed
        rw [refuses node next edge] at failed
        simp only at failed
        split at failed
        · cases failed
        · cases failed
          refine ih (fun other active => ?_) ‹_›
          rcases leads other active with rfl | path
          · exact .single edge
          · exact path.tail edge
        · rename_i after visited
          exact ihEdges after others (fun other active => leads other
            (visit_active visited other active)) failed
    unfold visit at failed
    split at failed
    · cases failed
    · exact ⟨node, leads node ‹_›⟩
    · split at failed
      · cases failed
      · cases failed
        refine follows _ _ (fun _ => id) (fun other active => ?_) ‹_›
        have entered := lookup_insert before.marks node other VisitState.active
        change (before.marks.insert node .active)[other]? = some .active at active
        rw [active] at entered
        split at entered
        · exact .inl (Eq.symm ‹_›)
        · exact .inr (leads other entered.symm)
      · cases failed

/-- **A search that fails found a cycle**, when it refuses no edge. -/
theorem cycle_of_search (refuses : ∀ node, ∀ next ∈ plan.edges node, plan.refuse node next = none)
    {territory nodes : List α} {error : ε} (failed : search plan territory nodes = .error error) :
    ∃ node, Relation.TransGen (fun source target => target ∈ plan.edges source) node node := by
  have quiet : ∀ (nodes : List α) (before : Exploration α),
      (∀ other : α, before.marks[other]? ≠ some .active) →
      visitAll plan (territory.length + 1) nodes before = some (.error error) →
      ∃ node, Relation.TransGen (fun source target => target ∈ plan.edges source) node node := by
    intro nodes
    induction nodes with
    | nil =>
      intro _ _ failed
      cases failed
    | cons node rest ih =>
      intro before inactive failed
      unfold visitAll at failed
      split at failed
      · cases failed
      · cases failed
        exact cycle_of_visit refuses (fun other active => absurd active (inactive other)) ‹_›
      · rename_i reached visited
        exact ih reached (fun other active => inactive other (visit_active visited other active))
          failed
  unfold search at failed
  split at failed
  · cases failed
  · cases failed
    exact quiet nodes start (fun other active => by simp [start] at active) ‹_›
  · cases failed

end Exploration

end Kernis
