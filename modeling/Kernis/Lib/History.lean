/-
**Machines that log their events.**

* `EventSourced` — every step appends its event to the log, and the event determines the state after it.
* `Leads` — what steps lead to. A log says how its state was reached (`unique`), and a later state is one
  whose log goes on (`leads_iff`).
* `exists_at` — every earlier part of a log is the log of a state on the way.
* `exists_fork` — two histories part at one state, the last one on the way to both.
-/

import Mathlib.Data.List.Infix
import Mathlib.Logic.Relation

namespace Kernis

/-- The longest common prefix of two lists. -/
def commonPrefix {α : Type} [DecidableEq α] : List α → List α → List α
  | first :: rest, other :: others =>
    if first = other then first :: commonPrefix rest others else []
  | _, _ => []

/-- The common prefixes of two lists are the prefixes of the longest one. -/
theorem prefix_commonPrefix_iff {α : Type} [DecidableEq α] {part first second : List α} :
    part <+: commonPrefix first second ↔ part <+: first ∧ part <+: second := by
  induction first generalizing part second with
  | nil =>
    rw [commonPrefix]
    · constructor
      · intro within
        obtain rfl := List.prefix_nil.mp within
        exact ⟨List.nil_prefix, List.nil_prefix⟩
      · exact And.left
    · rintro _ _ _ _ ⟨⟩
  | cons head rest ih =>
    cases second with
    | nil =>
      rw [commonPrefix]
      · exact ⟨fun within => by
          obtain rfl := List.prefix_nil.mp within
          exact ⟨List.nil_prefix, List.nil_prefix⟩, And.right⟩
      · rintro _ _ _ _ _ ⟨⟩
    | cons other others =>
      unfold commonPrefix
      cases part with
      | nil => simp
      | cons one more =>
        by_cases same : head = other
        · subst same
          simp only [if_true, List.cons_prefix_cons, ih]
          tauto
        · simp only [same, if_false, List.cons_prefix_cons, List.prefix_nil, reduceCtorEq, false_iff]
          rintro ⟨⟨rfl, _⟩, again, _⟩
          exact same again

/-- A machine that logs the events that it takes. -/
structure EventSourced (State Event : Type) where
  root : State
  Step : State → Event → State → Prop
  log : State → List Event
  log_root : log root = []
  log_step : ∀ {state event next}, Step state event next → log next = log state ++ [event]
  determined : ∀ {state event first second}, Step state event first → Step state event second →
    first = second

namespace EventSourced

variable {State Event : Type} (machine : EventSourced State Event)

/-- Steps lead from a state to a later one. -/
def Leads : State → State → Prop :=
  Relation.ReflTransGen fun state next => ∃ event, machine.Step state event next

variable {machine} {state first second : State}

/-- A log only goes on. -/
theorem Leads.prefix_log (leads : machine.Leads first second) :
    machine.log first <+: machine.log second := by
  induction leads with
  | refl => exact List.prefix_rfl
  | tail _ step ih =>
    obtain ⟨event, taken⟩ := step
    rw [machine.log_step taken]
    exact ih.trans (List.prefix_append _ _)

/-- **Every earlier part of a log is the log of a state on the way.** -/
theorem exists_at (leads : machine.Leads machine.root state) {part : List Event}
    (earlier : part <+: machine.log state) :
    ∃ past, machine.Leads machine.root past ∧ machine.log past = part ∧ machine.Leads past state := by
  induction leads generalizing part with
  | refl =>
    rw [machine.log_root] at earlier
    exact ⟨machine.root, .refl, machine.log_root.trans (List.prefix_nil.mp earlier).symm, .refl⟩
  | @tail middle next before step ih =>
    obtain ⟨event, taken⟩ := step
    rw [machine.log_step taken, List.prefix_concat_iff] at earlier
    rcases earlier with rfl | earlier
    · exact ⟨next, before.tail ⟨event, taken⟩, machine.log_step taken, .refl⟩
    · obtain ⟨past, reached, same, onward⟩ := ih earlier
      exact ⟨past, reached, same, onward.tail ⟨event, taken⟩⟩

/-- **A log says which state was reached.** -/
theorem unique (one : machine.Leads machine.root first) (two : machine.Leads machine.root second)
    (same : machine.log first = machine.log second) : first = second := by
  induction one generalizing second with
  | refl =>
    rcases two.cases_tail with rfl | ⟨middle, _, event, taken⟩
    · rfl
    · rw [machine.log_root, machine.log_step taken] at same
      exact absurd same.symm (List.append_ne_nil_of_right_ne_nil _ (List.cons_ne_nil _ _))
  | @tail middle next _ step ih =>
    obtain ⟨event, taken⟩ := step
    rcases two.cases_tail with rfl | ⟨other, reached, another, again⟩
    · rw [machine.log_root, machine.log_step taken] at same
      exact absurd same (List.append_ne_nil_of_right_ne_nil _ (List.cons_ne_nil _ _))
    · rw [machine.log_step taken, machine.log_step again] at same
      obtain ⟨before, last⟩ := List.append_inj' same rfl
      obtain rfl := ih reached before
      obtain rfl : event = another := List.cons.inj last |>.1
      exact machine.determined taken again

/-- **A later state is one whose log goes on.** -/
theorem leads_iff (one : machine.Leads machine.root first) (two : machine.Leads machine.root second) :
    machine.Leads first second ↔ machine.log first <+: machine.log second := by
  refine ⟨Leads.prefix_log, fun earlier => ?_⟩
  obtain ⟨past, reached, same, onward⟩ := exists_at two earlier
  exact unique reached one same ▸ onward

/-- **Two histories part at one state**, the last one on the way to both. -/
theorem exists_fork [DecidableEq Event] (one : machine.Leads machine.root first)
    (two : machine.Leads machine.root second) :
    ∃ fork, machine.Leads machine.root fork ∧
      machine.log fork = commonPrefix (machine.log first) (machine.log second) ∧
      machine.Leads fork first ∧ machine.Leads fork second ∧
      ∀ other, machine.Leads machine.root other → machine.Leads other first →
        machine.Leads other second → machine.Leads other fork := by
  have shared := prefix_commonPrefix_iff.mp
    (List.prefix_rfl (l := commonPrefix (machine.log first) (machine.log second)))
  obtain ⟨fork, reached, logged, left⟩ := exists_at one shared.1
  refine ⟨fork, reached, logged, left, (leads_iff reached two).mpr (logged ▸ shared.2), ?_⟩
  intro other began toFirst toSecond
  refine (leads_iff began reached).mpr ?_
  rw [logged]
  exact prefix_commonPrefix_iff.mpr ⟨toFirst.prefix_log, toSecond.prefix_log⟩

end EventSourced

end Kernis
