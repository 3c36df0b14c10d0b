/-
**Computations that may fail and keep the state they reached.**

`Fallible σ ε α` runs on a state and ends with a value or an error, and with a state either way:
what was done before a failure stays done.

* `run_bind` — sequencing: an error stops the rest and keeps the state.
* `bind_ok` — how a sequence can return.
-/

import Mathlib.Data.List.Nodup

namespace Kernis

/-- A result that satisfies a decidable property is a value. -/
theorem exists_ok_of_any {ε α : Type} {result : Except ε α} {good : α → Bool}
    (holds : result.toOption.any good = true) : ∃ value, result = .ok value ∧ good value = true := by
  cases result with
  | error error => cases holds
  | ok value => exact ⟨value, rfl, holds⟩

/-- A map over a list returns exactly when it returns on every element. -/
theorem exists_mapM_ok_iff {ε α β : Type} {step : α → Except ε β} {values : List α} :
    (∃ results, values.mapM step = .ok results) ↔ ∀ value ∈ values, ∃ result,
      step value = .ok result := by
  induction values with
  | nil => simp [pure, Except.pure]
  | cons value rest ih =>
    rw [List.forall_mem_cons, ← ih]
    simp only [List.mapM_cons, bind, Except.bind, pure, Except.pure]
    cases step value with
    | error error => simp
    | ok first =>
      cases rest.mapM step with
      | error error => simp
      | ok others => simp

/-- A map over a list that returns holds the results of the elements in order. -/
theorem forall₂_of_mapM {ε α β : Type} {step : α → Except ε β} {values : List α}
    {results : List β} (mapped : values.mapM step = .ok results) :
    List.Forall₂ (fun value result => step value = .ok result) values results := by
  induction values generalizing results with
  | nil =>
    cases mapped
    exact .nil
  | cons value rest ih =>
    simp only [List.mapM_cons, bind, Except.bind, pure, Except.pure] at mapped
    split at mapped
    · cases mapped
    · split at mapped
      · cases mapped
      · rename_i first _ others tail
        cases mapped
        exact .cons ‹_› (ih tail)

/-- A map over a list returns what its elements do. -/
theorem mapM_of_forall₂ {ε α β : Type} {step : α → Except ε β} {values : List α} {results : List β}
    (each : List.Forall₂ (fun value result => step value = .ok result) values results) :
    values.mapM step = .ok results := by
  induction each with
  | nil => rfl
  | cons one _ ih =>
    rw [List.mapM_cons, one, ih]
    rfl

/-- Every result of a map over a list is that of an element. -/
theorem exists_of_mapM {ε α β : Type} {step : α → Except ε β} {values : List α} {results : List β}
    (mapped : values.mapM step = .ok results) {result : β} (member : result ∈ results) :
    ∃ value ∈ values, step value = .ok result := by
  have each := forall₂_of_mapM mapped
  clear mapped
  induction each with
  | nil => cases member
  | cons one _ ih =>
    rcases List.mem_cons.mp member with rfl | inside
    · exact ⟨_, List.mem_cons_self, one⟩
    · obtain ⟨value, listed, same⟩ := ih inside
      exact ⟨value, List.mem_cons_of_mem _ listed, same⟩

/-- A map over a list fails where it fails on an element. -/
theorem exists_error_of_mapM {ε α β : Type} {step : α → Except ε β} {values : List α} {error : ε}
    (failed : values.mapM step = .error error) : ∃ value ∈ values, step value = .error error := by
  induction values with
  | nil => cases failed
  | cons value rest ih =>
    simp only [List.mapM_cons, bind, Except.bind, pure, Except.pure] at failed
    split at failed
    · rename_i first
      cases failed
      exact ⟨value, List.mem_cons_self, first⟩
    · split at failed
      · rename_i others
        cases failed
        obtain ⟨other, member, same⟩ := ih others
        exact ⟨other, List.mem_cons_of_mem _ member, same⟩
      · cases failed

/-- A sequence of results returns when both parts do. -/
theorem except_bind_ok {ε α β : Type} {first : Except ε α} {next : α → Except ε β} {value : β} :
    (first >>= next) = .ok value ↔ ∃ middle, first = .ok middle ∧ next middle = .ok value := by
  cases first with
  | error error => simp [bind, Except.bind]
  | ok middle => simp [bind, Except.bind]

/-- A sequence of results fails where its first failing part does. -/
theorem except_bind_error {ε α β : Type} {first : Except ε α} {next : α → Except ε β} {error : ε} :
    (first >>= next) = .error error ↔
      first = .error error ∨ ∃ middle, first = .ok middle ∧ next middle = .error error := by
  cases first with
  | error other => simp [bind, Except.bind]
  | ok middle => simp [bind, Except.bind]

theorem except_then_ok {ε β : Type} {first : Except ε Unit} {next : Except ε β} {value : β} :
    (first >>= fun _ => next) = .ok value ↔ first = .ok () ∧ next = .ok value := by
  rw [except_bind_ok]
  exact ⟨fun ⟨_, one, two⟩ => ⟨one, two⟩, fun ⟨one, two⟩ => ⟨(), one, two⟩⟩

/-- Checks of all values of a list. -/
theorem forM_ok {ε α : Type} {check : α → Except ε Unit} {values : List α} :
    values.forM check = .ok () ↔ ∀ value ∈ values, check value = .ok () := by
  induction values with
  | nil => simp [pure, Except.pure]
  | cons value rest ih =>
    show (check value >>= fun _ => rest.forM check) = .ok () ↔ _
    rw [except_then_ok, ih, List.forall_mem_cons]

/-- Checks of all values of a list fail where one of them does. -/
theorem exists_error_of_forM {ε α : Type} {check : α → Except ε Unit} {values : List α} {error : ε}
    (failed : values.forM check = .error error) : ∃ value ∈ values, check value = .error error := by
  induction values with
  | nil => cases failed
  | cons value rest ih =>
    rcases except_bind_error.mp failed with first | ⟨_, _, others⟩
    · exact ⟨value, List.mem_cons_self, first⟩
    · obtain ⟨other, member, same⟩ := ih others
      exact ⟨other, List.mem_cons_of_mem _ member, same⟩

theorem except_mapError_ok {ε δ α : Type} {change : ε → δ} {result : Except ε α} {value : α} :
    result.mapError change = .ok value ↔ result = .ok value := by
  cases result with
  | error error => simp [Except.mapError]
  | ok other => simp [Except.mapError]

/-- A computation over a state that ends with a value or an error, and a state. -/
def Fallible (σ ε α : Type) : Type := σ → Except ε α × σ

namespace Fallible

variable {σ ε α β : Type}

instance : Monad (Fallible σ ε) where
  pure value := fun state => (.ok value, state)
  bind first next := fun state =>
    match first state with
    | (.ok value, reached) => next value reached
    | (.error error, reached) => (.error error, reached)

/-- Fails without touching the state. -/
def fail (error : ε) : Fallible σ ε α := fun state => (.error error, state)

/-- The current state. -/
def get : Fallible σ ε σ := fun state => (.ok state, state)

/-- Changes the state. -/
def modify (change : σ → σ) : Fallible σ ε Unit := fun state => (.ok (), change state)

/-- Changes the value. -/
def map (change : α → β) (first : Fallible σ ε α) : Fallible σ ε β :=
  fun state => ((first state).1.map change, (first state).2)

/-- Lifts a result that does not touch the state. -/
def lift (result : Except ε α) : Fallible σ ε α := fun state => (result, state)

@[simp]
theorem run_pure (value : α) (state : σ) :
    (pure value : Fallible σ ε α) state = (.ok value, state) := rfl

@[simp]
theorem run_fail (error : ε) (state : σ) :
    (fail error : Fallible σ ε α) state = (.error error, state) := rfl

@[simp]
theorem run_get (state : σ) : (get : Fallible σ ε σ) state = (.ok state, state) := rfl

@[simp]
theorem run_modify (change : σ → σ) (state : σ) :
    (modify change : Fallible σ ε Unit) state = (.ok (), change state) := rfl

@[simp]
theorem run_lift (result : Except ε α) (state : σ) :
    (lift result : Fallible σ ε α) state = (result, state) := rfl

theorem run_bind (first : Fallible σ ε α) (next : α → Fallible σ ε β) (state : σ) :
    (first >>= next) state =
      match first state with
      | (.ok value, reached) => next value reached
      | (.error error, reached) => (.error error, reached) := rfl

/-- A sequence returns when both parts do. -/
theorem bind_ok {first : Fallible σ ε α} {next : α → Fallible σ ε β} {state reached : σ}
    {value : β} : (first >>= next) state = (.ok value, reached) ↔
      ∃ middle between, first state = (.ok middle, between) ∧
        next middle between = (.ok value, reached) := by
  rw [run_bind]
  rcases first state with ⟨error | middle, between⟩
  · simp
  · simp

theorem run_map (change : α → β) (first : Fallible σ ε α) (state : σ) :
    first.map change state = ((first state).1.map change, (first state).2) := rfl

theorem run_map_bind {γ : Type} (change : β → γ) (first : Fallible σ ε α)
    (next : α → Fallible σ ε β) (state : σ) :
    (first >>= next).map change state = (first >>= fun value => (next value).map change) state := by
  rw [run_map, run_bind, run_bind]
  rcases first state with ⟨_ | value, reached⟩
  · rfl
  · rfl

/-- A sequence fails where one of its parts does. -/
theorem bind_error {first : Fallible σ ε α} {next : α → Fallible σ ε β} {state reached : σ}
    {error : ε} : (first >>= next) state = (.error error, reached) ↔
      first state = (.error error, reached) ∨ ∃ middle between, first state = (.ok middle, between) ∧
        next middle between = (.error error, reached) := by
  rw [run_bind]
  rcases first state with ⟨other | middle, between⟩
  · simp
  · simp

/-- Two continuations that agree after a success of the first part. -/
theorem run_bind_congr {first : Fallible σ ε α} {next other : α → Fallible σ ε β} {state : σ}
    (agree : ∀ {value reached}, first state = (.ok value, reached) →
      next value reached = other value reached) :
    (first >>= next) state = (first >>= other) state := by
  rw [run_bind, run_bind]
  rcases outcome : first state with ⟨result, reached⟩
  cases result with
  | error error => rfl
  | ok value => exact agree outcome

/-- A second part that always returns the same value may forget it and have it restored. -/
theorem bind_returns {first : Fallible σ ε α} {second : Fallible σ ε β} {value : β}
    (returns : ∀ {state result}, (second state).1 = .ok result → result = value) (state : σ) :
    (first >>= fun _ => second) state =
      (first >>= fun _ => second.map fun _ => ()).map (fun _ => value) state := by
  simp only [map, run_bind]
  rcases first state with ⟨result, reached⟩
  cases result with
  | error error => rfl
  | ok _ =>
    simp only
    rcases outcome : second reached with ⟨result, ended⟩
    cases result with
    | error error => rfl
    | ok result =>
      have final : result = value := returns (by rw [outcome])
      rw [final]
      rfl

end Fallible

end Kernis
