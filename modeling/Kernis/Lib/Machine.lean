/-
**Machines that answer events.**

* `Machine` — a step from an event and a state to an answer and a state; `trace`, `after` — of a run.
* `Follows` — a machine that follows another one as long as that one is not exempt (`trace_eq`).
* `Separates` — events that do not touch what others look at. What is heard of a run by one side is the
  run of that side's events alone (`filter_trace`).
-/

import Kernis.Lib.Lockstep

namespace Kernis

/-- A deterministic machine. -/
structure Machine (State Event Answer : Type) where
  step : Event → State → Answer × State

namespace Machine

variable {State Other Event Answer : Type}

/-- The events of a run with their answers. -/
def trace (machine : Machine State Event Answer) : List Event → State → List (Event × Answer)
  | [], _ => []
  | event :: rest, state =>
    (event, (machine.step event state).1) :: machine.trace rest (machine.step event state).2

/-- The state that a run reaches. -/
def after (machine : Machine State Event Answer) : List Event → State → State
  | [], state => state
  | event :: rest, state => machine.after rest (machine.step event state).2

/-- What every step keeps, a run keeps. -/
theorem after_keeps {machine : Machine State Event Answer} (Inv : State → Prop)
    (keeps : ∀ event state, Inv state → Inv (machine.step event state).2) (events : List Event)
    {state : State} (before : Inv state) : Inv (machine.after events state) := by
  induction events generalizing state with
  | nil => exact before
  | cons event rest ih => exact ih (keeps event state before)

/-! ### One machine after another -/

/-- **The second machine follows the first one**, step by step, until the first one is exempt for
ever. -/
structure Follows (first : Machine State Event Answer) (second : Machine Other Event Answer)
    (related : State → Other → Prop) (exempt : State → Prop) : Prop where
  step : ∀ event state other, related state other →
    Agree related exempt (first.step event state) (second.step event other)
  lasts : ∀ event state, exempt state → exempt (first.step event state).2

variable {first : Machine State Event Answer} {second : Machine Other Event Answer}
  {related : State → Other → Prop} {exempt : State → Prop}

/-- **A machine that is followed is answered alike**, unless it ends exempt. -/
theorem Follows.trace_eq (follows : Follows first second related exempt) (events : List Event)
    {state : State} {other : Other} (before : related state other)
    (bound : ¬ exempt (first.after events state)) :
    first.trace events state = second.trace events other ∧
      related (first.after events state) (second.after events other) := by
  induction events generalizing state other with
  | nil => exact ⟨rfl, before⟩
  | cons event rest ih =>
    rcases follows.step event state other before with free | ⟨same, next⟩
    · exact absurd (after_keeps exempt follows.lasts rest free) bound
    · obtain ⟨heard, ended⟩ := ih next bound
      exact ⟨by rw [trace, trace, same, heard], ended⟩

/-! ### Sides that do not touch each other -/

/-- **Events of one side look at what is alike and leave it alike; the others leave it as it is.** -/
structure Separates (machine : Machine State Event Answer) (mine : Event → Prop)
    (alike : State → State → Prop) : Prop where
  own : ∀ event state other, alike state other → mine event →
    (machine.step event state).1 = (machine.step event other).1 ∧
      alike (machine.step event state).2 (machine.step event other).2
  silent : ∀ event state other, alike state other → ¬ mine event →
    alike (machine.step event state).2 other

variable {machine : Machine State Event Answer} {mine : Event → Prop} [DecidablePred mine]
  {alike : State → State → Prop}

/-- **What one side hears is the run of its events alone.** -/
theorem Separates.filter_trace (separates : Separates machine mine alike) (events : List Event)
    {state other : State} (before : alike state other) :
    (machine.trace events state).filter (fun heard => mine heard.1) =
        machine.trace (events.filter fun event => mine event) other ∧
      alike (machine.after events state) (machine.after (events.filter fun event => mine event) other) := by
  induction events generalizing state other with
  | nil => exact ⟨rfl, before⟩
  | cons event rest ih =>
    by_cases own : mine event
    · obtain ⟨same, next⟩ := separates.own event state other before own
      obtain ⟨heard, ended⟩ := ih next
      simp only [trace, after, List.filter_cons, own, decide_true, if_true, same, heard]
      exact ⟨trivial, ended⟩
    · obtain ⟨heard, ended⟩ := ih (separates.silent event state other before own)
      simp only [trace, after, List.filter_cons, own, decide_false, Bool.false_eq_true, if_false]
      exact ⟨heard, ended⟩

end Machine

end Kernis
