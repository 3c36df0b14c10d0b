/-
**The neutral primitives: identifiers and bounded counters.**

* `Id` — a textual identifier that is not blank; `Id.new` is the only way in from raw text.
* `u64Max`, `checkedNext` — a 64-bit counter is a natural number, and its `checked_add(1)` fails
  at the largest representable value.
-/

import Kernis.Lib.Index

namespace Kernis

open Std

/-- Stable textual identifier. -/
structure Id where
  text : NonBlank
deriving DecidableEq

/-- Error returned when an identifier is empty. -/
inductive InvalidId
  | invalidId
deriving DecidableEq

namespace Id

/-- Creates a non-blank identifier. -/
def new (value : Text) : Except InvalidId Id :=
  if valid : blank value = false then .ok ⟨⟨value, valid⟩⟩ else .error .invalidId

/-- The identifier as raw text. -/
def asStr (id : Id) : Text := id.text.val

theorem text_injective : Function.Injective Id.text := by
  rintro ⟨first⟩ ⟨second⟩ same
  exact congrArg Id.mk same

instance : Ord Id := ⟨compareOn Id.text⟩

instance : TransOrd Id := inferInstanceAs (TransCmp (compareOn Id.text))

instance : LawfulEqOrd Id := lawfulEqCmp_compareOn text_injective

end Id

/-! ### Counters -/

/-- The largest 64-bit unsigned value. -/
def u64Max : Nat := 2 ^ 64 - 1

/-- `checked_add(1)` on a 64-bit counter. -/
def checkedNext (value : Nat) : Option Nat :=
  if value < u64Max then some (value + 1) else none

theorem checkedNext_eq_some {value next : Nat} (found : checkedNext value = some next) :
    value < u64Max ∧ next = value + 1 := by
  unfold checkedNext at found
  split at found
  · cases found
    exact ⟨‹_›, rfl⟩
  · cases found

theorem checkedNext_of_lt {value : Nat} (room : value < u64Max) :
    checkedNext value = some (value + 1) := by
  unfold checkedNext
  rw [if_pos room]

end Kernis
