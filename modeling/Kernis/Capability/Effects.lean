/-
**The effects of a fiber run once.**

* `Tracked` — every effect that was registered was run, is being run, or is in the stack of the last
  load. `Tracked.clean`, `Tracked.register`: a cleanup and a registration keep it.
* `Settled` — a disposed fiber is at rest, and its last stack is closed.
* `careful` — the steps after which no effect is forgotten: no load begins over the effects of an
  abandoned one, and none of those is registered later.
* `effects_run_once` — in a run of such steps, an effect runs at most once, and when a disposal has
  returned every effect was run. `abandoned_effect_forgotten` — a run in which one is not.
-/

import Kernis.Capability.Fiber

namespace Kernis

open Std

/-! ### Stacks -/

/-- One of some lists, and what becomes of it. -/
theorem flatMap_set {α β : Type} {list : List α} {index : Nat} {value : α}
    (found : list[index]? = some value) (parts : α → List β) :
    ∃ others, (list.flatMap parts).Perm (parts value ++ others) ∧
      ∀ next, ((list.set index next).flatMap parts).Perm (parts next ++ others) := by
  induction list generalizing index with
  | nil => cases found
  | cons first rest ih =>
    cases index with
    | zero =>
      cases found
      exact ⟨rest.flatMap parts, .rfl, fun _ => .rfl⟩
    | succ index =>
      obtain ⟨others, before, after⟩ := ih found
      refine ⟨parts first ++ others, ?_, fun next => ?_⟩
      · exact (before.append_left _).trans (List.perm_append_comm_assoc _ _ _)
      · exact ((after next).append_left _).trans (List.perm_append_comm_assoc _ _ _)

/-- The effects of a cleanup that are left. -/
def Transition.effects {ν : Type} : Transition ν → List ScopedEffect
  | .cleaning _ _ _ effects _ => effects
  | _ => []

/-- A disposal only cleans up, once it was requested; no other call disposes. -/
def Transition.Proper {ν : Type} (asked : Bool) : Transition ν → Prop
  | .free => True
  | .driving call _ => call ≠ .dispose
  | .loading call _ _ _ => call ≠ .dispose
  | .publishing call _ _ _ _ => call ≠ .dispose
  | .cleaning call _ purpose _ _ =>
    (call = .dispose ↔ purpose = .disposal) ∧ (call = .dispose → asked = true)

namespace CapabilityFiber

variable {ν : Type} {fiber next : CapabilityFiber ν}

/-! ### Accounting -/

/-- **Every registered effect is in one place.** -/
structure Tracked (fiber : CapabilityFiber ν) : Prop where
  counted : (fiber.ran ++ (fiber.transition.effects ++
    fiber.effectStacks.flatMap EffectStack.effects).map ScopedEffect.number).Perm
      (List.range fiber.effectCount)
  own : ∀ index stack, fiber.effectStacks[index]? = some stack → fiber.effects ≠ some index →
    stack.effects = []
  inside : ∀ index, fiber.effects = some index → index < fiber.effectStacks.length

/-- **A disposed fiber is at rest**, and a cleanup has closed the last stack. -/
structure Settled (fiber : CapabilityFiber ν) : Prop where
  cleaning : ∀ call force purpose effects errors,
    fiber.transition = .cleaning call force purpose effects errors →
      ∀ index, fiber.effects = some index → fiber.effectStacks[index]? = some ⟨[], true⟩
  emptied : fiber.state = .disposed →
    ∀ index, fiber.effects = some index → fiber.effectStacks[index]? = some ⟨[], true⟩
  asked : fiber.state = .disposed → fiber.disposeRequested = true
  freed : fiber.state = .disposed → fiber.transition = .free
  answered : ∀ answer, (.dispose, answer) ∈ fiber.answers → fiber.state = .disposed
  waits : some .dispose ∈ fiber.waiting → fiber.disposeRequested = true
  proper : fiber.transition.Proper fiber.disposeRequested

/-- A change that moves no effect, except that a closed stack may be given up. -/
theorem Tracked.of (tracked : Tracked fiber) (ran : next.ran = fiber.ran)
    (effects : next.transition.effects = fiber.transition.effects)
    (stack : next.effectStacks = fiber.effectStacks) (count : next.effectCount = fiber.effectCount)
    (last : next.effects = fiber.effects ∨ next.effects = none ∧ fiber.owned = []) :
    Tracked next where
  counted := by
    rw [ran, effects, stack, count]
    exact tracked.counted
  own index held found other := by
    rw [stack] at found
    rcases last with same | ⟨_, empty⟩
    · exact tracked.own index held found (same ▸ other)
    · by_cases here : fiber.effects = some index
      · unfold owned at empty
        rw [here, Option.bind_some, found] at empty
        exact empty
      · exact tracked.own index held found here
  inside index held := by
    rw [stack]
    rcases last with same | ⟨none, _⟩
    · exact tracked.inside index (same ▸ held)
    · rw [none] at held
      cases held

/-- **A cleanup takes the effects of the last stack.** -/
theorem Tracked.clean (tracked : Tracked fiber) (idle : fiber.transition.effects = [])
    (call : FiberCall) (force : Bool) (purpose : Cleanup) :
    Tracked (fiber.clean call force purpose) := by
  have counted := tracked.counted
  rw [idle, List.nil_append] at counted
  cases held : fiber.effects with
  | none =>
    have owned : fiber.owned = [] := by
      unfold CapabilityFiber.owned
      rw [held]
      rfl
    refine ⟨?_, fun index stack found _ => ?_, fun index last => ?_⟩
    · unfold CapabilityFiber.clean
      rw [held, owned]
      exact counted
    · unfold CapabilityFiber.clean at found
      rw [held] at found
      exact tracked.own index stack found (by rw [held]; exact nofun)
    · have same : fiber.effects = some index := last
      rw [held] at same
      cases same
  | some last =>
    have bound := tracked.inside last held
    have found := List.getElem?_eq_getElem bound
    generalize fiber.effectStacks[last] = stack at found
    have owned : fiber.owned = stack.effects := by
      unfold CapabilityFiber.owned
      rw [held, Option.bind_some, found]
    obtain ⟨others, before, after⟩ := flatMap_set found EffectStack.effects
    have closed : (fiber.clean call force purpose).effectStacks =
        fiber.effectStacks.set last ⟨[], true⟩ := by
      unfold CapabilityFiber.clean
      rw [held]
    refine ⟨?_, fun index other at_ different => ?_, fun index now => ?_⟩
    · show (fiber.ran ++ (fiber.owned.reverse ++
        (fiber.clean call force purpose).effectStacks.flatMap _).map _).Perm _
      rw [closed, owned]
      refine .trans ?_ counted
      refine List.Perm.append_left _ (List.Perm.map _ ?_)
      exact ((List.reverse_perm _).append (after ⟨[], true⟩)).trans before.symm
    · have apart : last ≠ index := fun same => different (held.trans (congrArg some same))
      rw [closed, List.getElem?_set_ne apart] at at_
      exact tracked.own index other at_ different
    · rw [closed, List.length_set]
      exact tracked.inside index now

/-- After the beginning of a cleanup the last stack is closed. -/
theorem clean_closed (fiber : CapabilityFiber ν) (call : FiberCall) (force : Bool)
    (purpose : Cleanup)
    (inside : ∀ index, fiber.effects = some index → index < fiber.effectStacks.length) :
    ∀ index, (fiber.clean call force purpose).effects = some index →
      (fiber.clean call force purpose).effectStacks[index]? = some ⟨[], true⟩ := by
  intro index held
  have last : fiber.effects = some index := held
  unfold CapabilityFiber.clean
  rw [last]
  exact List.getElem?_set_self (inside index last)

/-- **A registration** in the stack of the last load. -/
theorem Tracked.register (tracked : Tracked fiber) {stack : Nat} (label : Text)
    (last : fiber.effects = some stack ∨ ∀ effects, fiber.effectStacks[stack]? ≠
      some ⟨effects, false⟩) : Tracked (fiber.register stack label) := by
  unfold CapabilityFiber.register
  split
  · rename_i effects found
    have here : fiber.effects = some stack := last.resolve_right fun closed => closed _ found
    obtain ⟨others, before, after⟩ := flatMap_set found EffectStack.effects
    refine ⟨?_, fun index other at_ different => ?_, fun index now => ?_⟩
    · show (fiber.ran ++ (fiber.transition.effects ++ (fiber.effectStacks.set stack
        ⟨effects ++ [ScopedEffect.mk fiber.effectCount label], false⟩).flatMap _).map _).Perm
          (List.range (fiber.effectCount + 1))
      rw [List.range_succ]
      refine .trans ?_ (tracked.counted.append_right _)
      rw [List.append_assoc]
      refine List.Perm.append_left _ ?_
      refine .trans (List.Perm.map _ (List.Perm.append_left _ (after _))) ?_
      refine .trans ?_ ((List.Perm.map _ (List.Perm.append_left _ before.symm)).append_right _)
      simp only [List.map_append, List.append_assoc, List.map_cons, List.map_nil]
      refine List.Perm.append_left _ (List.Perm.append_left _ ?_)
      exact List.perm_append_comm
    · have apart : stack ≠ index := fun same => different (here.trans (congrArg some same))
      rw [List.getElem?_set_ne apart] at at_
      exact tracked.own index other at_ different
    · rw [List.length_set]
      exact tracked.inside index now
  · exact tracked

/-! ### Steps -/

/-- The accounting of the effects and the order of the calls. -/
structure Tended (fiber : CapabilityFiber ν) : Prop where
  tracked : Tracked fiber
  settled : Settled fiber

theorem Settled.held (settled : Settled fiber) (held : fiber.transition ≠ .free) :
    fiber.state ≠ .disposed := by
  intro disposed
  exact held (settled.freed disposed)

/-- A fiber that was not disposed goes on, outside of a cleanup. -/
theorem Settled.onward (settled : Settled fiber) (undisposed : fiber.state ≠ .disposed)
    (waiting : next.waiting = fiber.waiting)
    (requested : next.disposeRequested = fiber.disposeRequested)
    (answers : next.answers = fiber.answers ∨ ∃ call answer,
      next.answers = fiber.answers ++ [(call, answer)] ∧ (call = .dispose → next.state = .disposed))
    (uncleaned : ∀ call force purpose effects errors,
      next.transition ≠ .cleaning call force purpose effects errors)
    (proper : next.transition.Proper fiber.disposeRequested)
    (disposed : next.state = .disposed → fiber.disposeRequested = true ∧ next.transition = .free ∧
      ∀ index, next.effects = some index → next.effectStacks[index]? = some ⟨[], true⟩) :
    Settled next where
  cleaning call force purpose effects errors cleans :=
    absurd cleans (uncleaned call force purpose effects errors)
  emptied reached := (disposed reached).2.2
  asked reached := requested.trans (disposed reached).1
  freed reached := (disposed reached).2.1
  answered answer member := by
    rcases answers with same | ⟨call, other, same, done⟩
    · exact absurd (settled.answered answer (same ▸ member)) undisposed
    · rw [same] at member
      rcases List.mem_append.mp member with old | new
      · exact absurd (settled.answered answer old) undisposed
      · cases List.mem_singleton.mp new
        exact done rfl
  waits member := by
    rw [requested]
    exact settled.waits (waiting ▸ member)
  proper := by
    rw [requested]
    exact proper

/-- A call that ends at once. -/
theorem Tended.reply (tended : Tended fiber) (free : fiber.transition = .free) {call : FiberCall}
    {answer : FiberAnswer} (done : call = .dispose → fiber.state = .disposed) :
    Tended (fiber.reply call answer) := by
  obtain ⟨tracked, settled⟩ := tended
  refine ⟨tracked.of rfl (by rw [free]; rfl) rfl rfl (.inl rfl), ?_⟩
  refine ⟨nofun, settled.emptied, settled.asked, fun _ => rfl,
    fun other member => ?_, settled.waits, trivial⟩
  rcases List.mem_append.mp member with old | new
  · exact settled.answered other old
  · cases List.mem_singleton.mp new
    exact done rfl

/-- **A cleanup begins.** -/
theorem Tended.clean (tended : Tended fiber) (idle : fiber.transition.effects = [])
    (undisposed : fiber.state ≠ .disposed) {call : FiberCall} {force : Bool} {purpose : Cleanup}
    (proper : (call = .dispose ↔ purpose = .disposal) ∧
      (call = .dispose → fiber.disposeRequested = true)) :
    Tended (fiber.clean call force purpose) := by
  obtain ⟨tracked, settled⟩ := tended
  refine ⟨tracked.clean idle call force purpose, ?_⟩
  exact ⟨fun _ _ _ _ _ _ => clean_closed fiber call force purpose tracked.inside,
    fun disposed => absurd disposed undisposed, fun disposed => absurd disposed undisposed,
    fun disposed => absurd disposed undisposed,
    fun answer member => settled.answered answer member, settled.waits, proper⟩

/-- An unload begins. -/
theorem Tended.unload (tended : Tended fiber) (idle : fiber.transition.effects = [])
    (undisposed : fiber.state ≠ .disposed) {call : FiberCall} {force : Bool} {purpose : Cleanup}
    (proper : (call = .dispose ↔ purpose = .disposal) ∧
      (call = .dispose → fiber.disposeRequested = true)) :
    Tended (fiber.unload call force purpose) := by
  obtain ⟨tracked, settled⟩ := tended
  have unloading : Tended { fiber with state := .unloading } := by
    refine ⟨tracked.of rfl rfl rfl rfl (.inl rfl), ?_⟩
    exact ⟨settled.cleaning, nofun, nofun,
      nofun,
      fun answer member => absurd (settled.answered answer member) undisposed, settled.waits,
      settled.proper⟩
  exact unloading.clean idle nofun proper

/-- What a call does before it waits. -/
theorem Tended.request (tended : Tended fiber) (call : FiberCall) : Tended (fiber.request call) := by
  obtain ⟨tracked, settled⟩ := tended
  have refused {call : FiberCall} {error : FiberError} (other : call ≠ .dispose) :
      Tended (fiber.refuse call error) := by
    refine ⟨tracked.of rfl rfl rfl rfl (.inl rfl), settled.cleaning, settled.emptied, settled.asked,
      settled.freed, fun answer member => ?_, settled.waits, settled.proper⟩
    rcases List.mem_append.mp member with old | new
    · exact settled.answered answer old
    · cases List.mem_singleton.mp new
      exact absurd rfl other
  have waits {call : FiberCall} {config : Text} {reload : Bool} (other : call ≠ .dispose) :
      Tended ({ fiber with config := config, forceReload := reload }.wait call) := by
    refine ⟨tracked.of rfl rfl rfl rfl (.inl rfl), settled.cleaning, settled.emptied, settled.asked,
      settled.freed, settled.answered, fun member => ?_, settled.proper⟩
    rcases List.mem_append.mp member with old | new
    · exact settled.waits old
    · cases List.mem_singleton.mp new
      exact absurd rfl other
  cases call with
  | start => exact waits nofun
  | restart =>
    simp only [CapabilityFiber.request]
    split
    · exact refused nofun
    · exact waits nofun
  | update config =>
    simp only [CapabilityFiber.request]
    split
    · exact refused nofun
    · split
      · exact refused nofun
      · exact waits nofun
  | deactivateForWithdrawal detached => exact waits nofun
  | dispose =>
    refine ⟨tracked.of rfl rfl rfl rfl (.inl rfl), settled.cleaning, settled.emptied, fun _ => rfl,
      settled.freed, settled.answered, fun _ => rfl, ?_⟩
    have proper := settled.proper
    show fiber.transition.Proper true
    cases transition : fiber.transition with
    | free => trivial
    | driving call force | loading call force _ _ | publishing call force _ _ _ =>
      rw [transition] at proper
      exact proper
    | cleaning call force purpose effects errors =>
      rw [transition] at proper
      exact ⟨proper.1, fun _ => rfl⟩

/-- The beginning of `drive`. -/
theorem Tended.startDrive (tended : Tended fiber) (free : fiber.transition = .free) {call : FiberCall}
    (other : call ≠ .dispose) (force : Bool) : Tended (fiber.startDrive call force) := by
  unfold CapabilityFiber.startDrive
  split
  · exact tended.reply free fun same => absurd same other
  · rename_i unasked
    split
    · exact tended.reply free fun same => absurd same other
    · have undisposed : fiber.state ≠ .disposed := fun same => unasked (tended.settled.asked same)
      refine ⟨tended.tracked.of rfl (by rw [free]; rfl) rfl rfl (.inl rfl), ?_⟩
      exact tended.settled.onward undisposed rfl rfl (.inl rfl) nofun
        other fun same => absurd same undisposed

/-- A call takes the lock. -/
theorem Tended.acquire (tended : Tended fiber) (free : fiber.transition = .free) {call : FiberCall}
    (asked : call = .dispose → fiber.disposeRequested = true) : Tended (fiber.acquire call) := by
  have idle : fiber.transition.effects = [] := by
    rw [free]
    rfl
  cases call with
  | start => exact tended.startDrive free (nofun : FiberCall.start ≠ .dispose) false
  | restart => exact tended.startDrive free (nofun : FiberCall.restart ≠ .dispose) true
  | update config => exact tended.startDrive free (nofun : FiberCall.update config ≠ .dispose) true
  | deactivateForWithdrawal detached =>
    simp only [CapabilityFiber.acquire]
    split
    · rename_i loaded
      refine tended.unload idle (fun same => ?_) ⟨⟨nofun,
        nofun⟩, nofun⟩
      rw [same] at loaded
      rcases loaded with active | failed
      · cases active
      · cases failed
    · exact tended.reply free nofun
  | dispose =>
    simp only [CapabilityFiber.acquire]
    split
    · rename_i disposed
      exact tended.reply free fun _ => disposed
    · rename_i undisposed
      exact tended.unload idle undisposed ⟨⟨fun _ => rfl, fun _ => rfl⟩, asked⟩

/-! ### The holder of the lock -/

/-- A held transition answers its call, or goes round again; no effect is left to it. -/
theorem Tended.release (tended : Tended fiber) (held : fiber.transition ≠ .free)
    (idle : fiber.transition.effects = []) (ran : next.ran = fiber.ran)
    (stack : next.effectStacks = fiber.effectStacks) (count : next.effectCount = fiber.effectCount)
    (last : next.effects = fiber.effects ∨ next.effects = none ∧ fiber.owned = [])
    (waiting : next.waiting = fiber.waiting)
    (requested : next.disposeRequested = fiber.disposeRequested)
    (disposed : next.state = .disposed → fiber.disposeRequested = true ∧ next.transition = .free ∧
      ∀ index, fiber.effects = some index → fiber.effectStacks[index]? = some ⟨[], true⟩)
    (ends : (next.transition = .free ∧ ∃ call answer, next.answers = fiber.answers ++ [(call, answer)] ∧
        (call = .dispose → next.state = .disposed)) ∨
      (next.answers = fiber.answers ∧ ∃ call force, next.transition = .driving call force ∧
        call ≠ .dispose)) : Tended next := by
  obtain ⟨tracked, settled⟩ := tended
  have closed (reached : next.state = .disposed) : ∀ index, next.effects = some index →
      next.effectStacks[index]? = some ⟨[], true⟩ := by
    intro index here
    rw [stack]
    rcases last with same | ⟨none, _⟩
    · exact (disposed reached).2.2 index (same ▸ here)
    · rw [none] at here
      cases here
  have gone (reached : next.state = .disposed) :=
    And.intro (disposed reached).1 (And.intro (disposed reached).2.1 (closed reached))
  rcases ends with ⟨free, answers⟩ | ⟨answers, call, force, driving, other⟩
  · refine ⟨tracked.of ran (by rw [free, idle]; rfl) stack count last, ?_⟩
    exact settled.onward (settled.held held) waiting requested (.inr answers)
      (by rw [free]; nofun) (by rw [free]; trivial) gone
  · refine ⟨tracked.of ran (by rw [driving, idle]; rfl) stack count last, ?_⟩
    exact settled.onward (settled.held held) waiting requested (.inl answers)
      (by rw [driving]; nofun) (by rw [driving]; exact other) gone

/-- **A load begins**, and no effect of an earlier one is left. -/
theorem Tended.load (tended : Tended fiber) {call : FiberCall} {force : Bool}
    (driving : fiber.transition = .driving call force) (empty : fiber.owned = [])
    (tree : ScopeTree ν) (dependencies : ResolvedDependencies ν) :
    Tended (load tree fiber call force dependencies).2 := by
  obtain ⟨tracked, settled⟩ := tended
  have undisposed := settled.held (by rw [driving]; nofun)
  have counted := tracked.counted
  have other : call ≠ .dispose := by
    have proper := settled.proper
    rw [driving] at proper
    exact proper
  refine ⟨⟨?_, fun index stack found different => ?_, fun index last => ?_⟩, ?_⟩
  · show (fiber.ran ++ ([] ++ (fiber.effectStacks ++ [EffectStack.mk [] false]).flatMap _).map _).Perm _
    rw [driving] at counted
    rw [List.flatMap_append]
    exact (List.append_nil _).symm ▸ counted
  · have held : (fiber.effectStacks ++ [EffectStack.mk [] false])[index]? = some stack := found
    rcases Nat.lt_trichotomy index fiber.effectStacks.length with older | rfl | newer
    · rw [List.getElem?_append_left older] at held
      by_cases here : fiber.effects = some index
      · unfold owned at empty
        rw [here, Option.bind_some, held] at empty
        exact empty
      · exact tracked.own index stack held here
    · exact absurd rfl different
    · rw [List.getElem?_eq_none (by rw [List.length_append, List.length_singleton]; omega)] at held
      cases held
  · cases last
    show _ < (fiber.effectStacks ++ [_]).length
    rw [List.length_append]
    exact Nat.lt_succ_self _
  · exact settled.onward undisposed rfl rfl (.inl rfl) nofun other nofun

/-- One round of the loop. -/
theorem Tended.drive (tended : Tended fiber) {call : FiberCall} {force : Bool}
    (driving : fiber.transition = .driving call force) (tree : ScopeTree ν)
    (empty : ∀ dependencies,
      tree.topology.contextResolve fiber.context fiber.definition.capability = .ok dependencies →
        fiber.state ≠ .active → fiber.state ≠ .failed → fiber.disposeRequested = false →
          fiber.owned = []) :
    Tended (drive tree fiber call force).2 := by
  have held : fiber.transition ≠ .free := by
    rw [driving]
    nofun
  have idle : fiber.transition.effects = [] := by
    rw [driving]
    rfl
  have undisposed := tended.settled.held held
  have other : call ≠ .dispose := by
    have proper := tended.settled.proper
    rw [driving] at proper
    exact proper
  have unloads {purpose : Cleanup} (part : purpose ≠ .disposal) :
      Tended (fiber.unload call force purpose) :=
    tended.unload idle undisposed ⟨⟨fun same => absurd same other, fun same => absurd same part⟩,
      fun same => absurd same other⟩
  have replies {state : FiberState} {answer : FiberAnswer} (alive : state ≠ .disposed) :
      Tended ({ fiber with state := state }.reply call answer) :=
    tended.release held idle rfl rfl rfl (.inl rfl) rfl rfl (fun same => absurd same alive)
      (.inl ⟨rfl, call, answer, rfl, fun same => absurd same other⟩)
  unfold CapabilityFiber.drive
  split
  · split
    · exact unloads nofun
    · exact replies nofun
  · rename_i dependencies resolved
    split
    · exact replies undisposed
    · split
      · exact unloads nofun
      · rename_i loaded
        split
        · exact replies undisposed
        · rename_i unasked
          rw [not_or] at loaded
          exact tended.load driving (empty dependencies resolved loaded.1 loaded.2
            (Bool.eq_false_iff.mpr unasked)) tree dependencies

/-- The factory returns. -/
theorem Tended.returned (tended : Tended fiber) {call : FiberCall} {force : Bool} {publication : Nat}
    {dependencies : ResolvedDependencies ν}
    (loading : fiber.transition = .loading call force publication dependencies) (tree : ScopeTree ν)
    (result : Except Text ν) :
    Tended (returned tree fiber call force publication dependencies result).2 := by
  have idle : fiber.transition.effects = [] := by
    rw [loading]
    rfl
  have undisposed := tended.settled.held (by rw [loading]; nofun)
  have other : call ≠ .dispose := by
    have proper := tended.settled.proper
    rw [loading] at proper
    exact proper
  have cleans {purpose : Cleanup} (part : purpose ≠ .disposal) :
      Tended (fiber.clean call force purpose) :=
    tended.clean idle undisposed ⟨⟨fun same => absurd same other, fun same => absurd same part⟩,
      fun same => absurd same other⟩
  unfold CapabilityFiber.returned
  cases result with
  | ok value =>
    simp only
    split
    · exact cleans nofun
    · refine ⟨tended.tracked.of rfl idle.symm rfl rfl (.inl rfl), ?_⟩
      exact tended.settled.onward undisposed rfl rfl (.inl rfl) nofun other
        fun same => absurd same undisposed
  | error reason =>
    simp only
    split
    · exact cleans nofun
    · exact cleans nofun

/-- The publication. -/
theorem Tended.publish (tended : Tended fiber) {call : FiberCall} {force : Bool} {publication : Nat}
    {dependencies : ResolvedDependencies ν} {value : ν}
    (publishing : fiber.transition = .publishing call force publication dependencies value)
    (tree : ScopeTree ν) :
    Tended (publish tree fiber call force publication dependencies value).2 := by
  have held : fiber.transition ≠ .free := by
    rw [publishing]
    nofun
  have idle : fiber.transition.effects = [] := by
    rw [publishing]
    rfl
  have other : call ≠ .dispose := by
    have proper := tended.settled.proper
    rw [publishing] at proper
    exact proper
  have cleans {purpose : Cleanup} (part : purpose ≠ .disposal) :
      Tended (fiber.clean call force purpose) :=
    tended.clean idle (tended.settled.held held) ⟨⟨fun same => absurd same other,
      fun same => absurd same part⟩, fun same => absurd same other⟩
  unfold CapabilityFiber.publish
  split
  · exact tended.release held idle rfl rfl rfl (.inl rfl) rfl rfl nofun
      (.inl ⟨rfl, call, _, rfl, fun same => absurd same other⟩)
  · exact cleans nofun
  · exact cleans nofun
  · exact tended

/-- What the second part of an unload changes. -/
theorem unloaded_eq (tree : ScopeTree ν) (fiber : CapabilityFiber ν)
    (detached : Option ProviderIdentity) (errors : List EffectError) :
    ∃ binding effects, (effects = fiber.effects ∨ effects = none) ∧
      (unloaded tree fiber detached errors).2.2 = { fiber with
        handle := none
        dependencyEpoch := none
        loadingBinding := binding
        effects := effects
        state := .pending
        epochErrors := fiber.epochErrors ++ (unloaded tree fiber detached errors).1 } := by
  unfold unloaded
  split
  · exact ⟨fiber.loadingBinding, fiber.effects, .inl rfl, by rw [List.append_assoc]⟩
  · exact ⟨none, none, .inr rfl, rfl⟩

/-- **The end of a cleanup.** -/
theorem Tended.finish (tended : Tended fiber) {call : FiberCall} {force : Bool} {purpose : Cleanup}
    {errors : List EffectError} (cleaning : fiber.transition = .cleaning call force purpose [] errors)
    (tree : ScopeTree ν) : Tended (finish tree fiber call force errors purpose).2 := by
  have held : fiber.transition ≠ .free := by
    rw [cleaning]
    nofun
  have idle : fiber.transition.effects = [] := by
    rw [cleaning]
    rfl
  have closed := tended.settled.cleaning _ _ _ _ _ cleaning
  have proper := tended.settled.proper
  rw [cleaning] at proper
  have owned : fiber.owned = [] := by
    unfold CapabilityFiber.owned
    cases last : fiber.effects with
    | none => rfl
    | some index => rw [Option.bind_some, closed index last]
  have given {effects : Option Nat} (last : effects = fiber.effects ∨ effects = none) :
      effects = fiber.effects ∨ effects = none ∧ fiber.owned = [] :=
    last.imp_right fun none => ⟨none, owned⟩
  -- A discard that goes round again, and one whose fiber is to be disposed.
  have agains {next : CapabilityFiber ν} (other : call ≠ .dispose) {state : FiberState}
      (alive : state ≠ .disposed) (ran : next.ran = fiber.ran)
      (stack : next.effectStacks = fiber.effectStacks) (count : next.effectCount = fiber.effectCount)
      (last : next.effects = fiber.effects ∨ next.effects = none)
      (waiting : next.waiting = fiber.waiting)
      (requested : next.disposeRequested = fiber.disposeRequested)
      (answers : next.answers = fiber.answers)
      (disposed : next.state = .disposed → fiber.disposeRequested = true) :
      Tended (next.again call force state) := by
    unfold again
    split
    · refine tended.release held idle ran stack count (given last) waiting requested
        (fun same => ⟨disposed same, rfl, closed⟩) (.inl ⟨rfl, call, .failed .disposed, ?_,
          fun same => absurd same other⟩)
      show next.answers ++ [_] = _
      rw [answers]
    · exact tended.release held idle ran stack count (given last) waiting requested
        (fun same => absurd same alive) (.inr ⟨answers, call, force, rfl, other⟩)
  cases purpose with
  | reload =>
    obtain ⟨binding, effects, last, same⟩ := unloaded_eq tree fiber none errors
    have other : call ≠ .dispose := fun same => nomatch proper.1.mp same
    simp only [CapabilityFiber.finish]
    rw [same]
    exact agains other nofun rfl rfl rfl last rfl rfl rfl nofun
  | missing =>
    obtain ⟨binding, effects, last, same⟩ := unloaded_eq tree fiber none errors
    have other : call ≠ .dispose := fun same => nomatch proper.1.mp same
    simp only [CapabilityFiber.finish]
    rw [same]
    exact tended.release held idle rfl rfl rfl (given last) rfl rfl nofun
      (.inl ⟨rfl, call, _, rfl, fun same => absurd same other⟩)
  | withdrawal detached =>
    obtain ⟨binding, effects, last, same⟩ := unloaded_eq tree fiber detached errors
    have other : call ≠ .dispose := fun same => nomatch proper.1.mp same
    simp only [CapabilityFiber.finish]
    rw [same]
    exact tended.release held idle rfl rfl rfl (given last) rfl rfl nofun
      (.inl ⟨rfl, call, _, rfl, fun same => absurd same other⟩)
  | disposal =>
    obtain ⟨binding, effects, last, same⟩ := unloaded_eq tree fiber none errors
    simp only [CapabilityFiber.finish]
    rw [same]
    exact tended.release held idle rfl rfl rfl (given last) rfl rfl
      (fun _ => ⟨proper.2 (proper.1.mpr rfl), rfl, closed⟩)
      (.inl ⟨rfl, call, _, rfl, fun _ => rfl⟩)
  | changed =>
    have other : call ≠ .dispose := fun same => nomatch proper.1.mp same
    exact tended.release held idle rfl rfl rfl (.inl rfl) rfl rfl nofun
      (.inr ⟨rfl, call, force, rfl, other⟩)
  | refused error =>
    have other : call ≠ .dispose := fun same => nomatch proper.1.mp same
    exact tended.release held idle rfl rfl rfl (.inl rfl) rfl rfl nofun
      (.inl ⟨rfl, call, _, rfl, fun same => absurd same other⟩)
  | staleValue =>
    have other : call ≠ .dispose := fun same => nomatch proper.1.mp same
    exact agains other nofun rfl rfl rfl (.inl rfl) rfl rfl rfl
      fun same => absurd same (tended.settled.held held)
  | staleError =>
    have other : call ≠ .dispose := fun same => nomatch proper.1.mp same
    refine agains other nofun rfl rfl rfl (.inl rfl) rfl rfl rfl fun same => ?_
    by_cases asked : fiber.disposeRequested = true
    · exact asked
    · have still : (if fiber.disposeRequested then FiberState.disposed else fiber.state) =
        .disposed := same
      rw [if_neg asked] at still
      exact absurd still (tended.settled.held held)
  | failed reason =>
    have other : call ≠ .dispose := fun same => nomatch proper.1.mp same
    exact tended.release held idle rfl rfl rfl (.inl rfl) rfl rfl nofun
      (.inl ⟨rfl, call, _, rfl, fun same => absurd same other⟩)

/-- A registration, outside of a cleanup. -/
theorem Tended.register (tended : Tended fiber) {stack : Nat} (label : Text)
    (last : fiber.effects = some stack ∨ ∀ effects, fiber.effectStacks[stack]? ≠
      some ⟨effects, false⟩) : Tended (fiber.register stack label) := by
  obtain ⟨tracked, settled⟩ := tended
  refine ⟨tracked.register label last, ?_⟩
  unfold CapabilityFiber.register
  split
  · rename_i effects found
    have here : fiber.effects = some stack := last.resolve_right fun closed => closed _ found
    have opened (closed : ∀ index, fiber.effects = some index →
        fiber.effectStacks[index]? = some ⟨[], true⟩) : False := by
      have contrary := closed stack here
      rw [found] at contrary
      cases contrary
    exact ⟨fun _ _ _ _ _ cleans => (opened (settled.cleaning _ _ _ _ _ cleans)).elim,
      fun disposed => (opened (settled.emptied disposed)).elim, settled.asked, settled.freed,
      settled.answered, settled.waits, settled.proper⟩
  · exact settled

/-- One effect is run. -/
theorem Tended.cleaned (tended : Tended fiber) {call : FiberCall} {force : Bool} {purpose : Cleanup}
    {effect : ScopedEffect} {rest : List ScopedEffect} {errors later : List EffectError}
    (cleaning : fiber.transition = .cleaning call force purpose (effect :: rest) errors) :
    Tended { fiber with
      ran := fiber.ran ++ [effect.number]
      transition := .cleaning call force purpose rest later } := by
  obtain ⟨tracked, settled⟩ := tended
  have undisposed := settled.held (by rw [cleaning]; nofun)
  have proper := settled.proper
  have counted := tracked.counted
  rw [cleaning] at proper counted
  refine ⟨⟨?_, tracked.own, tracked.inside⟩, ?_⟩
  · show (fiber.ran ++ [effect.number] ++ (rest ++ fiber.effectStacks.flatMap _).map _).Perm _
    rw [List.append_assoc]
    exact counted
  · exact ⟨fun _ _ _ _ _ _ => settled.cleaning _ _ _ _ _ cleaning,
      fun same => absurd same undisposed, settled.asked, fun same => absurd same undisposed,
      settled.answered, settled.waits, proper⟩

/-- **What the account says**: no effect was run twice, and after a disposal every one was run. -/
theorem Tended.ran_once (tended : fiber.Tended) :
    fiber.ran.Nodup ∧ ∀ answer, (.dispose, answer) ∈ fiber.answers →
      ∀ number < fiber.effectCount, number ∈ fiber.ran := by
  obtain ⟨tracked, settled⟩ := tended
  have counted := tracked.counted
  have nodup := counted.symm.nodup List.nodup_range
  refine ⟨(List.nodup_append.mp nodup).1, fun answer member number bound => ?_⟩
  have disposed := settled.answered answer member
  -- Every stack is empty: the last one was closed, and no other holds an effect.
  have empty : fiber.effectStacks.flatMap EffectStack.effects = [] := by
    rw [List.flatMap_eq_nil_iff]
    intro stack inside
    obtain ⟨index, found⟩ := List.getElem?_of_mem inside
    by_cases last : fiber.effects = some index
    · have closed := settled.emptied disposed index last
      rw [found] at closed
      cases closed
      rfl
    · exact tracked.own index stack found last
  rw [settled.freed disposed, empty] at counted
  have ran : fiber.ran.Perm (List.range fiber.effectCount) := by
    simpa [Transition.effects] using counted
  exact ran.mem_iff.mpr (List.mem_range.mpr bound)

end CapabilityFiber

/-! ### Runs -/

namespace FiberSystem

variable {ν : Type}

/-- Whether an event drops no future in a cleanup. -/
def uncut (system : FiberSystem ν) : FiberSystemEvent ν → Bool
  | .fiber .abandon =>
    match system.fiber.transition with
    | .cleaning _ _ _ _ _ => false
    | _ => true
  | _ => true

/-- Whether the next round of the loop begins a load. -/
def loads (system : FiberSystem ν) : Bool :=
  match system.fiber.transition with
  | .driving _ _ =>
    (system.tree.topology.contextResolve system.fiber.context
        system.fiber.definition.capability).toBool &&
      system.fiber.state ≠ .active && system.fiber.state ≠ .failed && !system.fiber.disposeRequested
  | _ => false

/-- **Whether an event forgets no effect**: no load begins over effects that an abandoned one left, and
nobody registers one in a stack that a later load has replaced. -/
def careful (system : FiberSystem ν) : FiberSystemEvent ν → Bool
  | .fiber .go => !system.loads || system.fiber.owned.isEmpty
  | .fiber (.register stack _) =>
    system.fiber.effects = some stack || (system.fiber.effectStacks[stack]?.all EffectStack.closed)
  | _ => true

/-- A run of events that all pass a check. -/
def Checked (check : FiberSystem ν → FiberSystemEvent ν → Bool) :
    FiberSystem ν → List (FiberSystemEvent ν) → Prop
  | _, [] => True
  | system, event :: rest => check system event = true ∧ Checked check (system.step event) rest

theorem tended_new (definition : PluginDefinition) (context : List ContextState) (config : Text) :
    (CapabilityFiber.new definition context config : CapabilityFiber ν).Tended where
  tracked := ⟨.refl _, fun _ _ found => (nomatch found), nofun⟩
  settled := ⟨nofun, nofun, nofun, nofun, fun _ member => absurd member List.not_mem_nil,
    fun member => absurd member List.not_mem_nil, trivial⟩

/-- **A careful event of a fiber keeps the account.** -/
theorem tended_fiber {tree : ScopeTree ν} {fiber : CapabilityFiber ν} (tended : fiber.Tended)
    {event : FiberEvent ν} (uncut : uncut ⟨tree, fiber⟩ (.fiber event) = true)
    (careful : careful ⟨tree, fiber⟩ (.fiber event) = true) : (fiber.step tree event).2.Tended := by
  cases event with
  | call call => exact tended.request call
  | acquire index =>
    simp only [CapabilityFiber.step]
    split
    · rename_i call free found
      have waits := tended.settled.waits
      have taken : CapabilityFiber.Tended { fiber with
          waiting := fiber.waiting.set index none } := by
        refine ⟨tended.tracked.of rfl rfl rfl rfl (.inl rfl), tended.settled.cleaning,
          tended.settled.emptied, tended.settled.asked, tended.settled.freed,
          tended.settled.answered, fun member => ?_, tended.settled.proper⟩
        rcases List.mem_or_eq_of_mem_set member with old | same
        · exact waits old
        · cases same
      exact taken.acquire free fun same => waits (same ▸ List.mem_of_getElem? found)
    · exact tended
  | go =>
    simp only [CapabilityFiber.step]
    split
    · rename_i call force driving
      refine tended.drive driving tree fun dependencies resolved inactive sound unasked => ?_
      have begins : loads ⟨tree, fiber⟩ = true := by
        unfold FiberSystem.loads
        rw [driving, resolved, unasked]
        simp [inactive, sound, Except.toBool]
      have empty : (!loads ⟨tree, fiber⟩ || fiber.owned.isEmpty) = true := careful
      rw [begins, Bool.not_true, Bool.false_or, List.isEmpty_iff] at empty
      exact empty
    · rename_i call force publication dependencies value publishing
      exact tended.publish publishing tree
    · rename_i call force purpose errors cleaning
      exact tended.finish cleaning tree
    · exact tended
  | returned result =>
    simp only [CapabilityFiber.step]
    split
    · rename_i call force publication dependencies loading
      exact tended.returned loading tree result
    · exact tended
  | cleaned result =>
    simp only [CapabilityFiber.step]
    split
    · rename_i call force purpose effect rest errors cleaning
      exact tended.cleaned cleaning
    · exact tended
  | abandon =>
    simp only [CapabilityFiber.step]
    split
    · rename_i call force publication dependencies loading
      have undisposed := tended.settled.held (by rw [loading]; nofun)
      refine ⟨tended.tracked.of rfl (by rw [loading]; rfl) rfl rfl (.inl rfl), ?_⟩
      exact tended.settled.onward undisposed rfl rfl (.inl rfl) nofun trivial
        fun same => absurd same undisposed
    · rename_i call force purpose effect rest errors cleaning
      simp only [FiberSystem.uncut, cleaning] at uncut
      cases uncut
    · exact tended
  | effect label =>
    simp only [CapabilityFiber.step, CapabilityFiber.effect]
    split
    · rename_i stack active last
      exact tended.register label (.inl last)
    · exact tended
  | register stack label =>
    refine tended.register label ?_
    have known : (fiber.effects = some stack ||
      fiber.effectStacks[stack]?.all EffectStack.closed) = true := careful
    rcases Bool.or_eq_true_iff.mp known with last | closed
    · exact .inl (of_decide_eq_true last)
    · refine .inr fun effects found => ?_
      rw [found] at closed
      cases closed
  | unlist =>
    exact ⟨tended.tracked.of rfl rfl rfl rfl (.inl rfl), tended.settled.cleaning,
      tended.settled.emptied, tended.settled.asked, tended.settled.freed, tended.settled.answered,
      tended.settled.waits, tended.settled.proper⟩

/-- **A careful step keeps the account.** -/
theorem tended_step {system : FiberSystem ν} (tended : system.fiber.Tended)
    {event : FiberSystemEvent ν} (uncut : system.uncut event = true)
    (careful : system.careful event = true) : (system.step event).fiber.Tended := by
  unfold FiberSystem.step
  split
  · exact tended
  cases event with
  | scope call =>
    simp only
    split <;> exact tended
  | fiber event => exact tended_fiber tended uncut careful

/-- **A careful run keeps the account.** -/
theorem tended_run {system : FiberSystem ν} (tended : system.fiber.Tended)
    {events : List (FiberSystemEvent ν)} (dropped : Checked uncut system events)
    (careful : Checked careful system events) : (system.run events).fiber.Tended := by
  induction events generalizing system with
  | nil => exact tended
  | cons event rest ih =>
    exact ih (tended_step tended dropped.1 careful.1) dropped.2 careful.2

/-- **Effects run once.** In a run that drops no cleanup, begins no load over the effects of an abandoned
one and registers none in a replaced stack, every registered effect is run at most once, and exactly once
when a disposal has returned. -/
theorem effects_run_once (tree : ScopeTree ν) (definition : PluginDefinition)
    (context : List ContextState) (config : Text) (events : List (FiberSystemEvent ν))
    (dropped : Checked uncut ⟨tree, .new definition context config⟩ events)
    (careful : Checked careful ⟨tree, .new definition context config⟩ events) :
    (run ⟨tree, .new definition context config⟩ events).fiber.ran.Nodup ∧
      ∀ answer, (.dispose, answer) ∈
          (run ⟨tree, .new definition context config⟩ events).fiber.answers →
        ∀ number < (run ⟨tree, .new definition context config⟩ events).fiber.effectCount,
          number ∈ (run ⟨tree, .new definition context config⟩ events).fiber.ran :=
  (tended_run (tended_new definition context config) dropped careful).ran_once

/-- A plugin without dependencies. -/
def samplePlugin : PluginDefinition := ⟨sampleA, sampleDefinition sampleA [], fun _ => .ok ()⟩

/-- A load that registers an effect and is abandoned. -/
def abandonedLoad : List (FiberSystemEvent Unit) :=
  [.fiber (.call .start), .fiber (.acquire 0), .fiber .go, .fiber (.register 0 []), .fiber .abandon]

/-- A start that loads the plugin, and a disposal. -/
def secondLoad : List (FiberSystemEvent Unit) :=
  [.fiber (.call .start), .fiber (.acquire 1), .fiber .go, .fiber (.returned (.ok ())), .fiber .go,
    .fiber (.call .dispose), .fiber (.acquire 2), .fiber .go]

/-- A fiber in the root scope. -/
def sampleSystem : FiberSystem Unit := ⟨.root, .new samplePlugin [⟨0, ∅, ∅⟩] []⟩

/-- A disposal after it, which runs the effect. -/
def firstDisposal : List (FiberSystemEvent Unit) :=
  [.fiber (.call .dispose), .fiber (.acquire 1), .fiber (.cleaned (.ok ())), .fiber .go]

theorem effects_run_once_abandoned :
    (FiberCall.dispose, FiberAnswer.done) ∈
        (sampleSystem.run (abandonedLoad ++ firstDisposal)).fiber.answers ∧
      ∀ number < (sampleSystem.run (abandonedLoad ++ firstDisposal)).fiber.effectCount,
        number ∈ (sampleSystem.run (abandonedLoad ++ firstDisposal)).fiber.ran :=
  ⟨by decide +kernel, (effects_run_once .root samplePlugin [⟨0, ∅, ∅⟩] [] (abandonedLoad ++ firstDisposal)
    (by unfold abandonedLoad firstDisposal; simp only [List.cons_append, List.nil_append, Checked]
        decide +kernel)
    (by unfold abandonedLoad firstDisposal; simp only [List.cons_append, List.nil_append, Checked]
        decide +kernel)).2 .done (by decide +kernel)⟩

/-- **The effect of an abandoned load is never run** when another load follows. -/
theorem abandoned_effect_forgotten : ¬ ∀ (events : List (FiberSystemEvent Unit)),
    Checked uncut sampleSystem events → ∀ answer,
      (.dispose, answer) ∈ (sampleSystem.run events).fiber.answers →
        ∀ number < (sampleSystem.run events).fiber.effectCount,
          number ∈ (sampleSystem.run events).fiber.ran := by
  intro all
  have dropped : Checked uncut sampleSystem (abandonedLoad ++ secondLoad) := by
    unfold abandonedLoad secondLoad
    simp only [List.cons_append, List.nil_append, Checked]
    decide +kernel
  have ends : (FiberCall.dispose, FiberAnswer.done) ∈
      (sampleSystem.run (abandonedLoad ++ secondLoad)).fiber.answers := by decide +kernel
  have forgets : 0 < (sampleSystem.run (abandonedLoad ++ secondLoad)).fiber.effectCount ∧
      0 ∉ (sampleSystem.run (abandonedLoad ++ secondLoad)).fiber.ran := by decide +kernel
  exact forgets.2 (all _ dropped _ ends 0 forgets.1)

end FiberSystem

end Kernis
