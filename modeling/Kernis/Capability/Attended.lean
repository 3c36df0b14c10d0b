/-
**Fibers whose calls run to their end.**

An owner that awaits every call on its fibers drops no future of them, so that no load is abandoned.

* `Works` — the events of such a fiber; `Goes` — what one of them leaves.
* `Tidy` — no stack of effects but that of the current load is open. So no effect is forgotten:
  `Attended.step`.
* `Fresh`, `Disposing`, `Gone` — a fiber before, in and after its one disposal.
-/

import Kernis.Capability.Effects

namespace Kernis

open Std

/-- The call that holds the lock. -/
def Transition.call {ν : Type} : Transition ν → Option FiberCall
  | .free => none
  | .driving call _ | .loading call _ _ _ | .publishing call _ _ _ _ | .cleaning call _ _ _ _ =>
    some call

/-- What happens to a fiber while a call runs. -/
inductive FiberEvent.Works {ν : Type} : FiberEvent ν → Prop
  | go : Works .go
  | returned (result : Except Text ν) : Works (.returned result)
  | cleaned (result : Except Text Unit) : Works (.cleaned result)
  | register (stack : Nat) (label : Text) : Works (.register stack label)

namespace CapabilityFiber

variable {ν : Type} {fiber next : CapabilityFiber ν}

/-! ### What a running call leaves -/

/-- **What a running call leaves**: it holds the lock still, or it has answered. -/
structure Goes (fiber next : CapabilityFiber ν) : Prop where
  definition : next.definition = fiber.definition
  context : next.context = fiber.context
  asked : next.disposeRequested = fiber.disposeRequested
  waiting : next.waiting = fiber.waiting
  listed : (∀ call force effects errors,
    fiber.transition ≠ .cleaning call force .disposal effects errors) →
      next.registered = fiber.registered
  progress : next.answers = fiber.answers ∧ next.transition.call = fiber.transition.call ∨
    ∃ call answer, fiber.transition.call = some call ∧
      next.answers = fiber.answers ++ [(call, answer)] ∧ next.transition = .free

theorem Goes.refl (fiber : CapabilityFiber ν) : Goes fiber fiber :=
  ⟨rfl, rfl, rfl, rfl, fun _ => rfl, .inl ⟨rfl, rfl⟩⟩

theorem goes_register (stack : Nat) (label : Text) : Goes fiber (fiber.register stack label) := by
  unfold register
  split
  · exact ⟨rfl, rfl, rfl, rfl, fun _ => rfl, .inl ⟨rfl, rfl⟩⟩
  · exact .refl fiber

theorem goes_drive (tree : ScopeTree ν) {call : FiberCall} {force : Bool}
    (driving : fiber.transition = .driving call force) : Goes fiber (drive tree fiber call force).2 := by
  have here : fiber.transition.call = some call := by
    rw [driving]
    rfl
  unfold drive
  split
  · simp only
    split
    · exact ⟨rfl, rfl, rfl, rfl, fun _ => rfl, .inl ⟨rfl, here.symm⟩⟩
    · exact ⟨rfl, rfl, rfl, rfl, fun _ => rfl, .inr ⟨call, _, here, rfl, rfl⟩⟩
  · split
    · exact ⟨rfl, rfl, rfl, rfl, fun _ => rfl, .inr ⟨call, _, here, rfl, rfl⟩⟩
    · split
      · exact ⟨rfl, rfl, rfl, rfl, fun _ => rfl, .inl ⟨rfl, here.symm⟩⟩
      · split
        · exact ⟨rfl, rfl, rfl, rfl, fun _ => rfl, .inr ⟨call, _, here, rfl, rfl⟩⟩
        · exact ⟨rfl, rfl, rfl, rfl, fun _ => rfl, .inl ⟨rfl, here.symm⟩⟩

theorem goes_returned (tree : ScopeTree ν) {call : FiberCall} {force : Bool} {publication : Nat}
    {dependencies : ResolvedDependencies ν}
    (loading : fiber.transition = .loading call force publication dependencies)
    (result : Except Text ν) :
    Goes fiber (returned tree fiber call force publication dependencies result).2 := by
  have here : fiber.transition.call = some call := by
    rw [loading]
    rfl
  unfold returned
  simp only
  split
  · split
    · exact ⟨rfl, rfl, rfl, rfl, fun _ => rfl, .inl ⟨rfl, here.symm⟩⟩
    · exact ⟨rfl, rfl, rfl, rfl, fun _ => rfl, .inl ⟨rfl, here.symm⟩⟩
  · exact ⟨rfl, rfl, rfl, rfl, fun _ => rfl, .inl ⟨rfl, here.symm⟩⟩

theorem goes_publish (tree : ScopeTree ν) {call : FiberCall} {force : Bool} {publication : Nat}
    {dependencies : ResolvedDependencies ν} {value : ν}
    (publishing : fiber.transition = .publishing call force publication dependencies value) :
    Goes fiber (publish tree fiber call force publication dependencies value).2 := by
  have here : fiber.transition.call = some call := by
    rw [publishing]
    rfl
  unfold publish
  split
  · exact ⟨rfl, rfl, rfl, rfl, fun _ => rfl, .inr ⟨call, _, here, rfl, rfl⟩⟩
  · exact ⟨rfl, rfl, rfl, rfl, fun _ => rfl, .inl ⟨rfl, here.symm⟩⟩
  · exact ⟨rfl, rfl, rfl, rfl, fun _ => rfl, .inl ⟨rfl, here.symm⟩⟩
  · exact .refl fiber

theorem goes_again {other : CapabilityFiber ν} {call : FiberCall} {force : Bool} {state : FiberState}
    (here : fiber.transition.call = some call) (definition : other.definition = fiber.definition)
    (context : other.context = fiber.context)
    (asked : other.disposeRequested = fiber.disposeRequested)
    (waiting : other.waiting = fiber.waiting) (registered : other.registered = fiber.registered)
    (answers : other.answers = fiber.answers) : Goes fiber (other.again call force state) := by
  unfold again
  split
  · refine ⟨definition, context, asked, waiting, fun _ => registered, .inr ⟨call, .failed .disposed, here, ?_, rfl⟩⟩
    exact congrArg (· ++ [(call, FiberAnswer.failed .disposed)]) answers
  · exact ⟨definition, context, asked, waiting, fun _ => registered, .inl ⟨answers, here.symm⟩⟩

theorem goes_finish (tree : ScopeTree ν) {call : FiberCall} {force : Bool} {purpose : Cleanup}
    {errors : List EffectError} (cleaning : fiber.transition = .cleaning call force purpose [] errors) :
    Goes fiber (finish tree fiber call force errors purpose).2 := by
  have here : fiber.transition.call = some call := by
    rw [cleaning]
    rfl
  cases purpose with
  | reload =>
    obtain ⟨binding, effects, _, same⟩ := unloaded_eq tree fiber none errors
    simp only [CapabilityFiber.finish]
    rw [same]
    exact goes_again here rfl rfl rfl rfl rfl rfl
  | missing =>
    obtain ⟨binding, effects, _, same⟩ := unloaded_eq tree fiber none errors
    simp only [CapabilityFiber.finish]
    rw [same]
    exact ⟨rfl, rfl, rfl, rfl, fun _ => rfl, .inr ⟨call, _, here, rfl, rfl⟩⟩
  | withdrawal detached =>
    obtain ⟨binding, effects, _, same⟩ := unloaded_eq tree fiber detached errors
    simp only [CapabilityFiber.finish]
    rw [same]
    exact ⟨rfl, rfl, rfl, rfl, fun _ => rfl, .inr ⟨call, _, here, rfl, rfl⟩⟩
  | disposal =>
    obtain ⟨binding, effects, _, same⟩ := unloaded_eq tree fiber none errors
    simp only [CapabilityFiber.finish]
    rw [same]
    exact ⟨rfl, rfl, rfl, rfl, fun other => absurd cleaning (other _ _ _ _),
      .inr ⟨call, _, here, rfl, rfl⟩⟩
  | changed => exact ⟨rfl, rfl, rfl, rfl, fun _ => rfl, .inl ⟨rfl, here.symm⟩⟩
  | refused error => exact ⟨rfl, rfl, rfl, rfl, fun _ => rfl, .inr ⟨call, _, here, rfl, rfl⟩⟩
  | staleValue => exact goes_again here rfl rfl rfl rfl rfl rfl
  | staleError => exact goes_again here rfl rfl rfl rfl rfl rfl
  | failed reason => exact ⟨rfl, rfl, rfl, rfl, fun _ => rfl, .inr ⟨call, _, here, rfl, rfl⟩⟩

/-- **What one event of a running call leaves.** -/
theorem goes_step (fiber : CapabilityFiber ν) (tree : ScopeTree ν) {event : FiberEvent ν} (works : event.Works) :
    Goes fiber (fiber.step tree event).2 := by
  cases works with
  | go =>
    simp only [step]
    split
    · exact goes_drive tree ‹_›
    · exact goes_publish tree ‹_›
    · exact goes_finish tree ‹_›
    · exact .refl fiber
  | returned result =>
    simp only [step]
    split
    · exact goes_returned tree ‹_› result
    · exact .refl fiber
  | cleaned result =>
    simp only [step]
    split
    · rename_i call force purpose effect rest errors cleaning
      refine ⟨rfl, rfl, rfl, rfl, fun _ => rfl, .inl ⟨rfl, ?_⟩⟩
      rw [cleaning]
      rfl
    · exact .refl fiber
  | register stack label => exact goes_register stack label

/-! ### Stacks of effects -/

/-- **No stack is open** but that of the current load, and that one is closed when nothing is loaded. -/
structure Tidy (fiber : CapabilityFiber ν) : Prop where
  closed : ∀ index stack, fiber.effectStacks[index]? = some stack → fiber.effects ≠ some index →
    stack.closed = true
  bare : fiber.state ≠ .active →
    (fiber.transition = .free ∨ ∃ call force, fiber.transition = .driving call force) →
      ∀ index, fiber.effects = some index → fiber.effectStacks[index]? = some ⟨[], true⟩

theorem Tidy.of (tidy : Tidy fiber) (same : next.effectStacks = fiber.effectStacks)
    (last : next.effects = fiber.effects)
    (rests : next.state ≠ .active →
      (next.transition = .free ∨ ∃ call force, next.transition = .driving call force) →
        fiber.state ≠ .active ∧
          (fiber.transition = .free ∨ ∃ call force, fiber.transition = .driving call force)) :
    Tidy next where
  closed := by
    rw [same, last]
    exact tidy.closed
  bare := fun inactive idle => by
    rw [same, last]
    obtain ⟨inactive, idle⟩ := rests inactive idle
    exact tidy.bare inactive idle

/-- The end of a cleanup. -/
theorem Tidy.release (tidy : Tidy fiber)
    (emptied : ∀ index, fiber.effects = some index → fiber.effectStacks[index]? = some ⟨[], true⟩)
    (same : next.effectStacks = fiber.effectStacks)
    (last : next.effects = fiber.effects ∨ next.effects = none) : Tidy next where
  closed := by
    intro index stack found other
    rw [same] at found
    by_cases held : fiber.effects = some index
    · rw [emptied index held, Option.some.injEq] at found
      rw [← found]
    · exact tidy.closed index stack found held
  bare := by
    intro _ _ index held
    rw [same]
    rcases last with kept | gone
    · exact emptied index (kept ▸ held)
    · rw [gone] at held
      cases held

/-- A cleanup closes the last stack. -/
theorem Tidy.clean (fiber : CapabilityFiber ν) (closed : ∀ index stack, fiber.effectStacks[index]? = some stack →
    fiber.effects ≠ some index → stack.closed = true) (call : FiberCall) (force : Bool)
    (purpose : Cleanup) : Tidy (fiber.clean call force purpose) where
  closed := by
    intro index stack found other
    unfold CapabilityFiber.clean at found other
    cases held : fiber.effects with
    | none =>
      rw [held] at found
      exact closed index stack found (by rw [held]; nofun)
    | some last =>
      rw [held] at found other
      have apart : last ≠ index := fun same => other (congrArg some same)
      rw [List.getElem?_set_ne apart] at found
      exact closed index stack found (by rw [held]; exact other)
  bare := by
    rintro _ (free | ⟨_, _, driving⟩)
    · cases free
    · cases driving

theorem Tidy.register (tidy : Tidy fiber) (stack : Nat) (label : Text) :
    Tidy (fiber.register stack label) := by
  unfold CapabilityFiber.register
  split
  · rename_i effects found
    -- Only the stack of the current load is open.
    have last : fiber.effects = some stack := by
      by_contra other
      exact absurd (tidy.closed stack _ found other) Bool.false_ne_true
    refine ⟨fun index other held apart => ?_, fun inactive idle => ?_⟩
    · have different : stack ≠ index := fun same => apart (last.trans (congrArg some same))
      rw [List.getElem?_set_ne different] at held
      exact tidy.closed index other held apart
    · have closed := tidy.bare inactive idle stack last
      rw [found] at closed
      cases closed
  · exact tidy

theorem Tidy.load (tidy : Tidy fiber) (inactive : fiber.state ≠ .active) {call : FiberCall}
    {force : Bool} (driving : fiber.transition = .driving call force) (tree : ScopeTree ν)
    (dependencies : ResolvedDependencies ν) :
    Tidy (load tree fiber call force dependencies).2 where
  closed := by
    intro index stack found other
    change (fiber.effectStacks ++ [⟨[], false⟩])[index]? = some stack at found
    change some fiber.effectStacks.length ≠ some index at other
    rw [List.getElem?_append] at found
    split at found
    · by_cases held : fiber.effects = some index
      · rw [tidy.bare inactive (.inr ⟨call, force, driving⟩) index held, Option.some.injEq] at found
        rw [← found]
      · exact tidy.closed index stack found held
    · rename_i beyond
      have position : index - fiber.effectStacks.length = 0 := by
        have bound := (List.getElem?_eq_some_iff.mp found).1
        exact Nat.lt_one_iff.mp bound
      exact absurd (congrArg some (by omega)) other
  bare := by
    rintro _ (free | ⟨_, _, driving⟩)
    · cases free
    · cases driving

theorem Tidy.drive (tidy : Tidy fiber) {call : FiberCall} {force : Bool}
    (driving : fiber.transition = .driving call force) (tree : ScopeTree ν) :
    Tidy (drive tree fiber call force).2 := by
  have answers {state : FiberState} (inactive : state ≠ .active → fiber.state ≠ .active)
      (answer : FiberAnswer) : Tidy ({ fiber with state := state }.reply call answer) :=
    tidy.of rfl rfl fun other _ => ⟨inactive other, .inr ⟨call, force, driving⟩⟩
  unfold CapabilityFiber.drive
  split
  · simp only
    split
    · exact Tidy.clean { fiber with state := .unloading } tidy.closed call force .missing
    · rename_i inactive
      exact answers (fun _ => inactive) (.state .pending)
  · split
    · exact answers id (.state .active)
    · split
      · exact Tidy.clean { fiber with state := .unloading } tidy.closed call force .reload
      · rename_i inactive
        split
        · exact answers id (.failed .disposed)
        · exact tidy.load (fun active => inactive (.inl active)) driving tree _

theorem Tidy.returned (tidy : Tidy fiber) (tree : ScopeTree ν) (call : FiberCall) (force : Bool)
    (publication : Nat) (dependencies : ResolvedDependencies ν) (result : Except Text ν) :
    Tidy (returned tree fiber call force publication dependencies result).2 := by
  unfold CapabilityFiber.returned
  simp only
  split
  · split
    · exact Tidy.clean _ tidy.closed call force .staleValue
    · refine tidy.of rfl rfl fun _ idle => ?_
      rcases idle with free | ⟨_, _, driving⟩
      · cases free
      · cases driving
  · exact Tidy.clean _ tidy.closed call force _

theorem Tidy.publish (tidy : Tidy fiber) (tree : ScopeTree ν) (call : FiberCall) (force : Bool)
    (publication : Nat) (dependencies : ResolvedDependencies ν) (value : ν) :
    Tidy (publish tree fiber call force publication dependencies value).2 := by
  unfold CapabilityFiber.publish
  split
  · exact tidy.of rfl rfl fun inactive => absurd rfl inactive
  · exact Tidy.clean _ tidy.closed call force .changed
  · exact Tidy.clean _ tidy.closed call force _
  · exact tidy

theorem Tidy.finish (tidy : Tidy fiber) (emptied : ∀ index, fiber.effects = some index →
    fiber.effectStacks[index]? = some ⟨[], true⟩) (tree : ScopeTree ν) (call : FiberCall)
    (force : Bool) (purpose : Cleanup) (errors : List EffectError) :
    Tidy (finish tree fiber call force errors purpose).2 := by
  have agains {other : CapabilityFiber ν} {state : FiberState}
      (same : other.effectStacks = fiber.effectStacks)
      (last : other.effects = fiber.effects ∨ other.effects = none) :
      Tidy (other.again call force state) := by
    unfold again
    split
    · exact tidy.release emptied same last
    · exact tidy.release emptied same last
  cases purpose with
  | reload =>
    obtain ⟨binding, effects, last, same⟩ := unloaded_eq tree fiber none errors
    simp only [CapabilityFiber.finish]
    rw [same]
    exact agains rfl last
  | missing =>
    obtain ⟨binding, effects, last, same⟩ := unloaded_eq tree fiber none errors
    simp only [CapabilityFiber.finish]
    rw [same]
    exact tidy.release emptied rfl last
  | withdrawal detached =>
    obtain ⟨binding, effects, last, same⟩ := unloaded_eq tree fiber detached errors
    simp only [CapabilityFiber.finish]
    rw [same]
    exact tidy.release emptied rfl last
  | disposal =>
    obtain ⟨binding, effects, last, same⟩ := unloaded_eq tree fiber none errors
    simp only [CapabilityFiber.finish]
    rw [same]
    exact tidy.release emptied rfl last
  | changed => exact tidy.release emptied rfl (.inl rfl)
  | refused error => exact tidy.release emptied rfl (.inl rfl)
  | staleValue => exact agains rfl (.inl rfl)
  | staleError => exact agains rfl (.inl rfl)
  | failed reason => exact tidy.release emptied rfl (.inl rfl)

/-! ### Attended fibers -/

/-- **A fiber whose calls run to their end** accounts for all its effects. -/
structure Attended (fiber : CapabilityFiber ν) : Prop where
  tended : fiber.Tended
  tidy : Tidy fiber

theorem attended_new (definition : PluginDefinition) (context : List ContextState) (config : Text) :
    (CapabilityFiber.new definition context config : CapabilityFiber ν).Attended where
  tended := FiberSystem.tended_new definition context config
  tidy := ⟨fun _ _ found => (nomatch found), nofun⟩

/-- An event of a running call forgets no effect. -/
theorem Attended.careful (attended : Attended fiber) (tree : ScopeTree ν) {event : FiberEvent ν}
    (works : event.Works) : FiberSystem.careful ⟨tree, fiber⟩ (.fiber event) = true := by
  cases works with
  | go =>
    simp only [FiberSystem.careful, Bool.or_eq_true, Bool.not_eq_true']
    by_cases begins : FiberSystem.loads ⟨tree, fiber⟩ = true
    · refine .inr ?_
      rw [List.isEmpty_iff]
      unfold FiberSystem.loads at begins
      split at begins
      · rename_i call force driving
        simp only [ne_eq, Bool.and_eq_true, decide_eq_true_eq] at begins
        obtain ⟨⟨⟨_, inactive⟩, _⟩, _⟩ := begins
        unfold owned
        cases last : fiber.effects with
        | none => rfl
        | some index =>
          rw [Option.bind_some, attended.tidy.bare inactive (.inr ⟨call, force, driving⟩) index last]
      · cases begins
    · exact .inl (Bool.eq_false_iff.mpr begins)
  | returned result => rfl
  | cleaned result => rfl
  | register stack label =>
    simp only [FiberSystem.careful, Bool.or_eq_true, decide_eq_true_eq]
    by_cases last : fiber.effects = some stack
    · exact .inl last
    · refine .inr ?_
      cases found : fiber.effectStacks[stack]? with
      | none => rfl
      | some held =>
        rw [Option.all_some]
        exact attended.tidy.closed stack held found last

/-- **An event of a running call** keeps the account. -/
theorem Attended.step (attended : Attended fiber) (tree : ScopeTree ν) {event : FiberEvent ν}
    (works : event.Works) : Attended (fiber.step tree event).2 := by
  have uncut : FiberSystem.uncut ⟨tree, fiber⟩ (.fiber event) = true := by
    cases works <;> rfl
  refine ⟨FiberSystem.tended_fiber attended.tended uncut (attended.careful tree works), ?_⟩
  obtain ⟨tended, tidy⟩ := attended
  cases works with
  | go =>
    simp only [CapabilityFiber.step]
    split
    · exact tidy.drive ‹_› tree
    · exact tidy.publish tree _ _ _ _ _
    · rename_i call force purpose errors cleaning
      exact tidy.finish (tended.settled.cleaning _ _ _ _ _ cleaning) tree call force purpose errors
    · exact tidy
  | returned result =>
    simp only [CapabilityFiber.step]
    split
    · exact tidy.returned tree _ _ _ _ result
    · exact tidy
  | cleaned result =>
    simp only [CapabilityFiber.step]
    split
    · refine tidy.of rfl rfl fun _ idle => ?_
      rcases idle with free | ⟨_, _, driving⟩
      · cases free
      · cases driving
    · exact tidy
  | register stack label => exact tidy.register stack label

/-! ### One disposal -/

/-- A fiber whose disposal was not asked for. -/
structure Fresh (fiber : CapabilityFiber ν) : Prop where
  listed : fiber.registered = true
  unasked : fiber.disposeRequested = false
  other : fiber.transition.call ≠ some .dispose
  undisposed : ∀ answer, (.dispose, answer) ∉ fiber.answers

/-- A fiber that is being disposed of. -/
structure Disposing (fiber : CapabilityFiber ν) : Prop where
  cleaning : ∃ effects errors, fiber.transition = .cleaning .dispose false .disposal effects errors
  undisposed : ∀ answer, (.dispose, answer) ∉ fiber.answers

/-- A fiber that was disposed of, once. -/
structure Gone (fiber : CapabilityFiber ν) : Prop where
  unlisted : fiber.registered = false
  disposed : fiber.state = .disposed
  free : fiber.transition = .free
  once : (fiber.answers.map Prod.fst).count .dispose = 1

theorem fresh_new (definition : PluginDefinition) (context : List ContextState) (config : Text) :
    (CapabilityFiber.new definition context config : CapabilityFiber ν).Fresh :=
  ⟨rfl, rfl, nofun, fun _ => List.not_mem_nil⟩

/-- A call on a fiber at rest has the lock at once. -/
theorem begin_eq (tree : ScopeTree ν) (call : FiberCall)
    (waits : (fiber.request call).transition = .free ∧
      (fiber.request call).waiting = fiber.waiting ++ [some call]) :
    fiber.begin tree call = { fiber.request call with
      waiting := (fiber.waiting ++ [some call]).set fiber.waiting.length none }.acquire call := by
  have found : (fiber.request call).waiting[fiber.waiting.length]? = some (some call) := by
    rw [waits.2, List.getElem?_append_right (Nat.le_refl _), Nat.sub_self]
    rfl
  unfold begin
  simp only [step, waits.1, found]
  rw [waits.2]

theorem begin_start (tree : ScopeTree ν) (free : fiber.transition = .free) :
    fiber.begin tree .start = { fiber with
      waiting := (fiber.waiting ++ [some FiberCall.start]).set fiber.waiting.length none }.startDrive
        .start false :=
  begin_eq tree .start ⟨free, rfl⟩

theorem begin_dispose (tree : ScopeTree ν) (free : fiber.transition = .free)
    (undisposed : fiber.state ≠ .disposed) :
    fiber.begin tree .dispose = { fiber with
      disposeRequested := true
      waiting := (fiber.waiting ++ [some FiberCall.dispose]).set fiber.waiting.length none }.unload
        .dispose false .disposal := by
  refine (begin_eq tree .dispose ⟨free, rfl⟩).trans ?_
  exact if_neg undisposed

/-- The first call of a fiber at rest is counted with its effects. -/
theorem Attended.begin (attended : Attended fiber) (tree : ScopeTree ν)
    (free : fiber.transition = .free) {call : FiberCall}
    (known : call = .start ∨ call = .dispose ∧ fiber.state ≠ .disposed) :
    Attended (fiber.begin tree call) := by
  refine ⟨?_, ?_⟩
  · have asked : (fiber.step tree (.call call)).2.Tended :=
      FiberSystem.tended_fiber attended.tended rfl rfl
    have acquired : ((fiber.step tree (.call call)).2.step tree
        (.acquire fiber.waiting.length)).2.Tended := FiberSystem.tended_fiber asked rfl rfl
    exact acquired
  · obtain ⟨_, tidy⟩ := attended
    rcases known with rfl | ⟨rfl, undisposed⟩
    · rw [begin_start tree free]
      have rests {next : CapabilityFiber ν} (same : next.effectStacks = fiber.effectStacks)
          (last : next.effects = fiber.effects) (state : next.state = fiber.state) : Tidy next :=
        tidy.of same last fun inactive _ => ⟨state ▸ inactive, .inl free⟩
      unfold startDrive
      split
      · exact rests rfl rfl rfl
      · split
        · exact rests rfl rfl rfl
        · exact rests rfl rfl rfl
    · rw [begin_dispose tree free undisposed]
      exact Tidy.clean { fiber with
        disposeRequested := true, state := .unloading
        waiting := (fiber.waiting ++ [some FiberCall.dispose]).set fiber.waiting.length none }
        tidy.closed .dispose false .disposal

/-- A start of a fiber asks for no disposal. -/
theorem Fresh.begin (fresh : Fresh fiber) (tree : ScopeTree ν) (free : fiber.transition = .free) :
    Fresh (fiber.begin tree .start) := by
  rw [begin_start tree free]
  obtain ⟨listed, unasked, _, undisposed⟩ := fresh
  unfold startDrive
  split
  · rename_i asked
    exact absurd asked (by rw [Bool.not_eq_true]; exact unasked)
  · split
    · refine ⟨listed, unasked, nofun, fun answer member => ?_⟩
      rcases List.mem_append.mp member with before | now
      · exact undisposed answer before
      · cases List.mem_singleton.mp now
    · exact ⟨listed, unasked, nofun, undisposed⟩

/-- A running call that is no disposal keeps a fiber fresh. -/
theorem Fresh.step (fresh : Fresh fiber) (attended : Attended fiber) (tree : ScopeTree ν)
    {event : FiberEvent ν} (works : event.Works) : Fresh (fiber.step tree event).2 := by
  have goes := fiber.goes_step tree works
  have proper := attended.tended.settled.proper
  refine ⟨?_, goes.asked.trans fresh.unasked, ?_, ?_⟩
  · refine (goes.listed fun call force effects errors cleaning => ?_).trans fresh.listed
    rw [cleaning] at proper
    refine fresh.other ?_
    rw [cleaning]
    exact congrArg some (proper.1.mpr rfl)
  · rcases goes.progress with ⟨_, same⟩ | ⟨_, _, _, _, free⟩
    · rw [same]
      exact fresh.other
    · rw [free]
      nofun
  · intro answer member
    rcases goes.progress with ⟨same, _⟩ | ⟨call, given, held, added, _⟩
    · exact fresh.undisposed answer (same ▸ member)
    · rw [added] at member
      rcases List.mem_append.mp member with before | now
      · exact fresh.undisposed answer before
      · cases List.mem_singleton.mp now
        exact fresh.other held

/-- **A disposal begins.** -/
theorem Fresh.dispose (fresh : Fresh fiber) (attended : Attended fiber) (tree : ScopeTree ν)
    (free : fiber.transition = .free) : Disposing (fiber.begin tree .dispose) := by
  have undisposed : fiber.state ≠ .disposed := by
    intro disposed
    exact absurd ((attended.tended.settled.asked disposed).symm.trans fresh.unasked) (by decide)
  rw [begin_dispose tree free undisposed]
  exact ⟨⟨_, _, rfl⟩, fresh.undisposed⟩

/-- **A disposal goes on**, until the fiber is gone. -/
theorem Disposing.step (disposing : Disposing fiber) (tree : ScopeTree ν) {event : FiberEvent ν}
    (works : event.Works) :
    Disposing (fiber.step tree event).2 ∨ Gone (fiber.step tree event).2 := by
  obtain ⟨⟨effects, errors, cleaning⟩, undisposed⟩ := disposing
  cases works with
  | go =>
    simp only [CapabilityFiber.step, cleaning]
    split
    · contradiction
    · contradiction
    · rename_i call force purpose given same
      cases same
      obtain ⟨binding, kept, _, same⟩ := unloaded_eq tree fiber none errors
      simp only [CapabilityFiber.finish]
      rw [same]
      refine .inr ⟨rfl, rfl, rfl, ?_⟩
      have before : (fiber.answers.map Prod.fst).count .dispose = 0 := by
        rw [List.count_eq_zero]
        intro member
        obtain ⟨answer, inside, same⟩ := List.mem_map.mp member
        exact undisposed answer.2 (same ▸ inside)
      simp [CapabilityFiber.reply, before]
    · exact .inl ⟨⟨effects, errors, cleaning⟩, undisposed⟩
  | returned result =>
    simp only [CapabilityFiber.step, cleaning]
    exact .inl ⟨⟨effects, errors, cleaning⟩, undisposed⟩
  | cleaned result =>
    simp only [CapabilityFiber.step, cleaning]
    split
    · rename_i same
      cases same
      exact .inl ⟨⟨_, _, rfl⟩, undisposed⟩
    · exact .inl ⟨⟨effects, errors, cleaning⟩, undisposed⟩
  | register stack label =>
    refine .inl ?_
    simp only [CapabilityFiber.step, register]
    split
    · exact ⟨⟨effects, errors, cleaning⟩, undisposed⟩
    · exact ⟨⟨effects, errors, cleaning⟩, undisposed⟩

/-- Nothing happens to a fiber that is gone but registrations. -/
theorem Gone.step (gone : Gone fiber) (tree : ScopeTree ν) {event : FiberEvent ν}
    (works : event.Works) : Gone (fiber.step tree event).2 := by
  obtain ⟨unlisted, disposed, free, once⟩ := gone
  cases works with
  | go =>
    simp only [CapabilityFiber.step, free]
    exact ⟨unlisted, disposed, free, once⟩
  | returned result =>
    simp only [CapabilityFiber.step, free]
    exact ⟨unlisted, disposed, free, once⟩
  | cleaned result =>
    simp only [CapabilityFiber.step, free]
    exact ⟨unlisted, disposed, free, once⟩
  | register stack label =>
    simp only [CapabilityFiber.step, register]
    split
    · exact ⟨unlisted, disposed, free, once⟩
    · exact ⟨unlisted, disposed, free, once⟩

end CapabilityFiber

end Kernis
