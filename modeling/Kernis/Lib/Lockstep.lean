/-
**Computations in lockstep.**

`Agree` says that two computations end alike: with equal results and in related states, unless the
first one ended exempt. It goes through a sequence when an exemption lasts (`Agree.bind`).
-/

import Kernis.Lib.Fallible

namespace Kernis

open Fallible

variable {σ τ γ ε α β : Type} {related : σ → τ → Prop} {exempt : σ → Prop}

/-- Two computations ended alike, or the first one ended exempt. -/
def Agree (related : σ → τ → Prop) (exempt : σ → Prop) (first : γ × σ) (second : γ × τ) : Prop :=
  exempt first.2 ∨ first.1 = second.1 ∧ related first.2 second.2

/-- Results that need no state. -/
theorem agree_lift {state : σ} {other : τ} (near : related state other) (result : Except ε α) :
    Agree related exempt ((lift result : Fallible σ ε α) state)
      ((lift result : Fallible τ ε α) other) :=
  .inr ⟨rfl, near⟩

/-- A change of the results. -/
theorem Agree.map {first : Fallible σ ε α} {second : Fallible τ ε α} {state : σ} {other : τ}
    (agree : Agree related exempt (first state) (second other)) (change : α → β) :
    Agree related exempt (first.map change state) (second.map change other) := by
  rw [run_map, run_map]
  rcases agree with free | ⟨same, near⟩
  · exact .inl free
  · exact .inr ⟨congrArg (Except.map change) same, near⟩

/-- A change of the results that loses nothing is undone. -/
theorem Agree.of_map {first : Fallible σ ε α} {second : Fallible τ ε α} {state : σ} {other : τ}
    {change : α → β} (injective : Function.Injective change)
    (agree : Agree related exempt (first.map change state) (second.map change other)) :
    Agree related exempt (first state) (second other) := by
  rw [run_map, run_map] at agree
  rcases agree with free | ⟨same, near⟩
  · exact .inl free
  · refine .inr ⟨?_, near⟩
    cases one : (first state).1 with
    | error error =>
      cases two : (second other).1 with
      | error _ =>
        rw [one, two] at same
        cases same
        rfl
      | ok _ =>
        rw [one, two] at same
        cases same
    | ok value =>
      cases two : (second other).1 with
      | error _ =>
        rw [one, two] at same
        cases same
      | ok _ =>
        rw [one, two] at same
        exact congrArg Except.ok (injective (Except.ok.inj same))

/-- **Sequences in lockstep.** -/
theorem Agree.bind {first : Fallible σ ε α} {second : Fallible τ ε α} {next : α → Fallible σ ε β}
    {later : α → Fallible τ ε β} {state : σ} {other : τ}
    (agree : Agree related exempt (first state) (second other))
    (lasts : ∀ value reached, exempt reached → exempt (next value reached).2)
    (goes : ∀ value reached again, first state = (.ok value, reached) → related reached again →
      Agree related exempt (next value reached) (later value again)) :
    Agree related exempt ((first >>= next) state) ((second >>= later) other) := by
  rw [run_bind, run_bind]
  rcases one : first state with ⟨result, reached⟩
  rcases two : second other with ⟨answer, again⟩
  rw [one, two] at agree
  rcases agree with free | ⟨same, near⟩
  · cases result with
    | error error => exact .inl free
    | ok value => exact .inl (lasts value reached free)
  · obtain rfl : result = answer := same
    cases result with
    | error error => exact .inr ⟨rfl, near⟩
    | ok value => exact goes value reached again one near

end Kernis
