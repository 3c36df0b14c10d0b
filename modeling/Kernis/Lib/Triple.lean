/-
**Rules of pre- and postconditions for computations that may fail.**

`Triple before first after failed`: from a state that satisfies `before`, `first` ends in a state that
satisfies `after` of its value, or `failed` of its error. Nothing is said about which of the two it is.

* `Triple.bind` — a sequence; a failure of either part is a failure of the sequence.
* `Triple.weaken` — consequence.
-/

import Kernis.Lib.Fallible

namespace Kernis

namespace Fallible

variable {σ ε α β : Type}

/-- How a computation may end. -/
def Ends (after : α → σ → Prop) (failed : ε → σ → Prop) : Except ε α × σ → Prop
  | (.ok value, reached) => after value reached
  | (.error error, reached) => failed error reached

/-- **What a computation ensures**, of its value or of its error. -/
def Triple (before : σ → Prop) (first : Fallible σ ε α) (after : α → σ → Prop)
    (failed : ε → σ → Prop) : Prop :=
  ∀ state, before state → Ends after failed (first state)

variable {before between : σ → Prop} {after : α → σ → Prop} {finally_ : β → σ → Prop}
  {failed : ε → σ → Prop}

theorem Triple.weaken {first : Fallible σ ε α} {weaker : α → σ → Prop} {other : ε → σ → Prop}
    (triple : Triple before first after failed) (stronger : ∀ state, between state → before state)
    (ends : ∀ value state, after value state → weaker value state)
    (fails : ∀ error state, failed error state → other error state) :
    Triple between first weaker other := by
  intro state holds
  have post := triple state (stronger state holds)
  rcases ended : first state with ⟨error | value, reached⟩ <;> rw [ended] at post
  · exact fails error reached post
  · exact ends value reached post

theorem triple_pure {value : α} (holds : ∀ state, before state → after value state) :
    Triple before (pure value) after failed := holds

theorem triple_fail {error : ε} (holds : ∀ state, before state → failed error state) :
    Triple before (fail error : Fallible σ ε α) after failed := holds

theorem triple_get (read : σ → σ → Prop) (holds : ∀ state, before state → read state state) :
    Triple before (get : Fallible σ ε σ) read failed := holds

theorem triple_lift {result : Except ε α}
    (ends : ∀ value, result = .ok value → ∀ state, before state → after value state)
    (fails : ∀ error, result = .error error → ∀ state, before state → failed error state) :
    Triple before (lift result) after failed := by
  intro state holds
  cases result with
  | ok value => exact ends value rfl state holds
  | error error => exact fails error rfl state holds

/-- **A sequence**: what the first part ensures is what the second part starts from. -/
theorem Triple.bind {first : Fallible σ ε α} {next : α → Fallible σ ε β}
    (one : Triple before first after failed)
    (two : ∀ value, Triple (after value) (next value) finally_ failed) :
    Triple before (first >>= next) finally_ failed := by
  intro state holds
  have post := one state holds
  rw [run_bind]
  rcases ended : first state with ⟨error | value, reached⟩ <;> rw [ended] at post
  · exact post
  · exact two value reached post

theorem Triple.map {first : Fallible σ ε α} {change : α → β}
    (triple : Triple before first after failed)
    (ends : ∀ value state, after value state → finally_ (change value) state) :
    Triple before (first.map change) finally_ failed := by
  intro state holds
  have post := triple state holds
  rw [run_map]
  rcases ended : first state with ⟨error | value, reached⟩ <;> rw [ended] at post
  · exact post
  · exact ends value reached post

/-- What holds whatever the result. -/
theorem Triple.reached {first : Fallible σ ε α} {always : σ → Prop}
    (triple : Triple before first (fun _ => always) (fun _ => always)) {state : σ}
    (holds : before state) : always (first state).2 := by
  have post := triple state holds
  rcases ended : first state with ⟨error | value, reached⟩ <;> rw [ended] at post
  · exact post
  · exact post

end Fallible

end Kernis
