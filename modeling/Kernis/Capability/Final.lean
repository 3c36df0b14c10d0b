/-
**The end of a fiber.**

Whatever happens to a fiber, and wherever the future of a call is dropped: one that is disposed of stays so, no
answer is taken back, a call that waits keeps its place, and a disposal that has the lock keeps it until it
answers.

* `Final` — a fiber that is disposed of is at rest; `Final.step`, `Final.stays`.
* `Ending`, `Ended` — a disposal that has the lock, and one that has answered; `Ending.step`.
* `ReactiveRuntime.Moves` — what one event of a coordinator does to one fiber.
-/

import Kernis.Capability.Attended
import Kernis.Capability.Reactive

namespace Kernis

open Std

namespace CapabilityFiber

variable {ν : Type} {fiber next : CapabilityFiber ν} {event : FiberEvent ν}

/-! ### The end of a fiber -/

/-- **A fiber that is disposed of is at rest**, and was asked to. -/
structure Final (fiber : CapabilityFiber ν) : Prop where
  asked : fiber.state = .disposed → fiber.disposeRequested = true
  freed : fiber.state = .disposed → fiber.transition = .free
  waits : some .dispose ∈ fiber.waiting → fiber.disposeRequested = true
  proper : fiber.transition.Proper fiber.disposeRequested

theorem final_new (definition : PluginDefinition) (context : List ContextState) (config : Text) :
    Final (CapabilityFiber.new definition context config : CapabilityFiber ν) where
  asked same := by cases same
  freed same := by cases same
  waits member := absurd member List.not_mem_nil
  proper := trivial

theorem Final.alive (final : Final fiber) (held : fiber.transition ≠ .free) : fiber.state ≠ .disposed := by
  intro disposed
  exact held (final.freed disposed)

/-- The holder of the lock goes on. -/
theorem Final.onward (final : Final fiber) (waiting : next.waiting = fiber.waiting)
    (requested : next.disposeRequested = fiber.disposeRequested)
    (proper : next.transition.Proper fiber.disposeRequested)
    (disposed : next.state = .disposed → fiber.disposeRequested = true ∧ next.transition = .free) :
    Final next where
  asked same := requested.trans (disposed same).1
  freed same := (disposed same).2
  waits member := by
    rw [requested]
    exact final.waits (waiting ▸ member)
  proper := by
    rw [requested]
    exact proper

/-- The end of a fiber is left alone. -/
theorem Final.same (final : Final fiber) (waiting : next.waiting = fiber.waiting)
    (requested : next.disposeRequested = fiber.disposeRequested)
    (transition : next.transition = fiber.transition) (state : next.state = fiber.state) : Final next := by
  refine final.onward waiting requested (transition ▸ final.proper) fun disposed => ?_
  rw [state] at disposed
  exact ⟨final.asked disposed, transition.trans (final.freed disposed)⟩

theorem Final.request (final : Final fiber) (call : FiberCall) : Final (fiber.request call) := by
  have waits {config : Text} {reload : Bool} {call : FiberCall} (other : call ≠ .dispose) :
      Final ({ fiber with config := config, forceReload := reload }.wait call) := by
    refine ⟨final.asked, final.freed, fun member => ?_, final.proper⟩
    rcases List.mem_append.mp member with before | now
    · exact final.waits before
    · cases List.mem_singleton.mp now
      exact absurd rfl other
  cases call with
  | start => exact waits fun same => by cases same
  | restart =>
    simp only [CapabilityFiber.request]
    split
    · exact final.same rfl rfl rfl rfl
    · exact waits fun same => by cases same
  | update config =>
    simp only [CapabilityFiber.request]
    split
    · exact final.same rfl rfl rfl rfl
    · split
      · exact final.same rfl rfl rfl rfl
      · exact waits fun same => by cases same
  | deactivateForWithdrawal detached => exact waits fun same => by cases same
  | dispose =>
    refine ⟨fun _ => rfl, final.freed, fun _ => rfl, ?_⟩
    have proper := final.proper
    show fiber.transition.Proper true
    cases transition : fiber.transition with
    | free => trivial
    | driving call force =>
      rw [transition] at proper
      exact proper
    | loading call force publication dependencies =>
      rw [transition] at proper
      exact proper
    | publishing call force publication dependencies value =>
      rw [transition] at proper
      exact proper
    | cleaning call force purpose effects errors =>
      rw [transition] at proper
      exact ⟨proper.1, fun _ => rfl⟩

theorem Final.startDrive (final : Final fiber) (free : fiber.transition = .free) {call : FiberCall}
    (other : call ≠ .dispose) (force : Bool) : Final (fiber.startDrive call force) := by
  unfold CapabilityFiber.startDrive
  split
  · exact final.same rfl rfl free.symm rfl
  · rename_i unasked
    split
    · exact final.same rfl rfl free.symm rfl
    · exact final.onward rfl rfl other fun disposed => absurd (final.asked disposed) unasked

theorem Final.acquire (final : Final fiber) (free : fiber.transition = .free) {call : FiberCall}
    (asked : call = .dispose → fiber.disposeRequested = true) : Final (fiber.acquire call) := by
  cases call with
  | start => exact final.startDrive free (fun same => by cases same) false
  | restart => exact final.startDrive free (fun same => by cases same) true
  | update config => exact final.startDrive free (fun same => by cases same) true
  | deactivateForWithdrawal detached =>
    simp only [CapabilityFiber.acquire]
    split
    · refine final.onward rfl rfl ⟨⟨(fun same => by cases same), (fun same => by cases same)⟩,
        (fun same => by cases same)⟩ fun same => ?_
      cases same
    · exact final.same rfl rfl free.symm rfl
  | dispose =>
    simp only [CapabilityFiber.acquire]
    split
    · exact final.same rfl rfl free.symm rfl
    · refine final.onward rfl rfl ⟨⟨fun _ => rfl, fun _ => rfl⟩, asked⟩ fun same => ?_
      cases same

theorem Final.drive (final : Final fiber) {call : FiberCall} {force : Bool}
    (driving : fiber.transition = .driving call force) (tree : ScopeTree ν) :
    Final (drive tree fiber call force).2 := by
  have alive := final.alive (by rw [driving]; exact fun same => by cases same)
  have other : call ≠ .dispose := by
    have proper := final.proper
    rw [driving] at proper
    exact proper
  have unloads {purpose : Cleanup} (part : purpose ≠ .disposal) : Final (fiber.unload call force purpose) := by
    refine final.onward rfl rfl ⟨⟨fun same => absurd same other, fun same => absurd same part⟩,
      fun same => absurd same other⟩ fun same => ?_
    cases same
  unfold CapabilityFiber.drive
  split
  · simp only
    split
    · exact unloads fun same => by cases same
    · exact final.onward rfl rfl trivial fun same => by cases same
  · split
    · exact final.onward rfl rfl trivial fun same => absurd same alive
    · split
      · exact unloads fun same => by cases same
      · split
        · exact final.onward rfl rfl trivial fun same => absurd same alive
        · exact final.onward rfl rfl other fun same => by cases same

theorem Final.returned (final : Final fiber) {call : FiberCall} {force : Bool} {publication : Nat}
    {dependencies : ResolvedDependencies ν}
    (loading : fiber.transition = .loading call force publication dependencies) (tree : ScopeTree ν)
    (result : Except Text ν) :
    Final (returned tree fiber call force publication dependencies result).2 := by
  have alive := final.alive (by rw [loading]; exact fun same => by cases same)
  have other : call ≠ .dispose := by
    have proper := final.proper
    rw [loading] at proper
    exact proper
  have cleans {purpose : Cleanup} (part : purpose ≠ .disposal) : Final (fiber.clean call force purpose) :=
    final.onward rfl rfl ⟨⟨fun same => absurd same other, fun same => absurd same part⟩,
      fun same => absurd same other⟩ fun same => absurd same alive
  unfold CapabilityFiber.returned
  cases result with
  | ok value =>
    simp only
    split
    · exact cleans fun same => by cases same
    · exact final.onward rfl rfl other fun same => absurd same alive
  | error reason =>
    simp only
    split
    · exact cleans fun same => by cases same
    · exact cleans fun same => by cases same

theorem Final.publish (final : Final fiber) {call : FiberCall} {force : Bool} {publication : Nat}
    {dependencies : ResolvedDependencies ν} {value : ν}
    (publishing : fiber.transition = .publishing call force publication dependencies value)
    (tree : ScopeTree ν) : Final (publish tree fiber call force publication dependencies value).2 := by
  have alive := final.alive (by rw [publishing]; exact fun same => by cases same)
  have other : call ≠ .dispose := by
    have proper := final.proper
    rw [publishing] at proper
    exact proper
  have cleans {purpose : Cleanup} (part : purpose ≠ .disposal) : Final (fiber.clean call force purpose) :=
    final.onward rfl rfl ⟨⟨fun same => absurd same other, fun same => absurd same part⟩,
      fun same => absurd same other⟩ fun same => absurd same alive
  unfold CapabilityFiber.publish
  split
  · exact final.onward rfl rfl trivial fun same => by cases same
  · exact cleans fun same => by cases same
  · exact cleans fun same => by cases same
  · exact final

/-- The loop goes round again. -/
theorem Final.again (final : Final fiber) {call : FiberCall} {force : Bool} {state : FiberState}
    (other : call ≠ .dispose) (alive : state ≠ .disposed) (waiting : next.waiting = fiber.waiting)
    (requested : next.disposeRequested = fiber.disposeRequested)
    (disposed : next.state = .disposed → fiber.disposeRequested = true) :
    Final (next.again call force state) := by
  unfold CapabilityFiber.again
  split
  · exact final.onward waiting requested trivial fun same => ⟨disposed same, rfl⟩
  · exact final.onward waiting requested other fun same => absurd same alive

theorem Final.finish (final : Final fiber) {call : FiberCall} {force : Bool} {purpose : Cleanup}
    {errors : List EffectError} (cleaning : fiber.transition = .cleaning call force purpose [] errors)
    (tree : ScopeTree ν) : Final (finish tree fiber call force errors purpose).2 := by
  have alive := final.alive (by rw [cleaning]; exact fun same => by cases same)
  have proper := final.proper
  rw [cleaning] at proper
  have other (part : purpose ≠ .disposal) : call ≠ .dispose := fun same => part (proper.1.mp same)
  cases purpose with
  | reload =>
    obtain ⟨binding, effects, _, same⟩ := unloaded_eq tree fiber none errors
    simp only [CapabilityFiber.finish]
    rw [same]
    exact final.again (other fun same => by cases same) (fun same => by cases same) rfl rfl
      fun same => by cases same
  | missing =>
    obtain ⟨binding, effects, _, same⟩ := unloaded_eq tree fiber none errors
    simp only [CapabilityFiber.finish]
    rw [same]
    exact final.onward rfl rfl trivial fun same => by cases same
  | withdrawal detached =>
    obtain ⟨binding, effects, _, same⟩ := unloaded_eq tree fiber detached errors
    simp only [CapabilityFiber.finish]
    rw [same]
    exact final.onward rfl rfl trivial fun same => by cases same
  | disposal =>
    obtain ⟨binding, effects, _, same⟩ := unloaded_eq tree fiber none errors
    simp only [CapabilityFiber.finish]
    rw [same]
    exact final.onward rfl rfl trivial fun _ => ⟨proper.2 (proper.1.mpr rfl), rfl⟩
  | changed => exact final.onward rfl rfl (other fun same => by cases same) fun same => by cases same
  | refused error => exact final.onward rfl rfl trivial fun same => by cases same
  | staleValue =>
    exact final.again (other fun same => by cases same) (fun same => by cases same) rfl rfl
      fun same => absurd same alive
  | staleError =>
    refine final.again (other fun same => by cases same) (fun same => by cases same) rfl rfl fun same => ?_
    by_cases asked : fiber.disposeRequested = true
    · exact asked
    · have still : (if fiber.disposeRequested then FiberState.disposed else fiber.state) = .disposed := same
      rw [if_neg asked] at still
      exact absurd still alive
  | failed reason => exact final.onward rfl rfl trivial fun same => by cases same

theorem register_keeps (fiber : CapabilityFiber ν) (stack : Nat) (label : Text) :
    ∃ all count, fiber.register stack label = { fiber with effectStacks := all, effectCount := count } := by
  unfold CapabilityFiber.register
  split
  · exact ⟨_, _, rfl⟩
  · exact ⟨fiber.effectStacks, fiber.effectCount, rfl⟩

theorem effect_registers (fiber : CapabilityFiber ν) (label : Text) :
    ∃ all count, fiber.effect label = { fiber with effectStacks := all, effectCount := count } := by
  unfold CapabilityFiber.effect
  split
  · exact register_keeps fiber _ label
  · exact ⟨fiber.effectStacks, fiber.effectCount, rfl⟩

/-- A place of the queue is left. -/
theorem Final.leave (final : Final fiber) (index : Nat) :
    Final { fiber with waiting := fiber.waiting.set index none } := by
  refine ⟨final.asked, final.freed, fun member => ?_, final.proper⟩
  rcases List.mem_or_eq_of_mem_set member with before | same
  · exact final.waits before
  · cases same

/-- **Every event keeps the end of a fiber**, the drop of a future too. -/
theorem Final.step (final : Final fiber) (tree : ScopeTree ν) (event : FiberEvent ν) :
    Final (fiber.step tree event).2 := by
  cases event with
  | call call => exact final.request call
  | acquire index =>
    simp only [CapabilityFiber.step]
    split
    · rename_i call free found
      exact (final.leave index).acquire free fun same => final.waits (same ▸ List.mem_of_getElem? found)
    · exact final
  | go =>
    simp only [CapabilityFiber.step]
    split
    · exact final.drive ‹_› tree
    · exact final.publish ‹_› tree
    · exact final.finish ‹_› tree
    · exact final
  | returned result =>
    simp only [CapabilityFiber.step]
    split
    · exact final.returned ‹_› tree result
    · exact final
  | cleaned result =>
    simp only [CapabilityFiber.step]
    split
    · rename_i call force purpose effect rest errors cleaning
      have alive := final.alive (by rw [cleaning]; exact fun same => by cases same)
      have proper := final.proper
      rw [cleaning] at proper
      exact final.onward rfl rfl proper fun same => absurd same alive
    · exact final
  | abandon =>
    simp only [CapabilityFiber.step]
    split
    · rename_i loading
      have alive := final.alive (by rw [loading]; exact fun same => by cases same)
      exact final.onward rfl rfl trivial fun same => absurd same alive
    · rename_i cleaning
      have alive := final.alive (by rw [cleaning]; exact fun same => by cases same)
      exact final.onward rfl rfl trivial fun same => absurd same alive
    · exact final
  | effect label =>
    obtain ⟨all, count, same⟩ := effect_registers fiber label
    simp only [CapabilityFiber.step]
    rw [same]
    exact final.same rfl rfl rfl rfl
  | register stack label =>
    obtain ⟨all, count, same⟩ := register_keeps fiber stack label
    simp only [CapabilityFiber.step]
    rw [same]
    exact final.same rfl rfl rfl rfl
  | unlist => exact final.same rfl rfl rfl rfl

/-! ### What no event takes back -/

/-- A request leaves the state of the fiber and the lock alone; it only adds to the queue and the answers. -/
theorem request_adds (fiber : CapabilityFiber ν) (call : FiberCall) :
    (fiber.request call).state = fiber.state ∧ (fiber.request call).registered = fiber.registered ∧
      (fiber.request call).transition = fiber.transition ∧ fiber.answers <+: (fiber.request call).answers ∧
        fiber.waiting <+: (fiber.request call).waiting := by
  have waits {call : FiberCall} : fiber.waiting <+: fiber.waiting ++ [some call] := List.prefix_append _ _
  have answers {answer : FiberCall × FiberAnswer} : fiber.answers <+: fiber.answers ++ [answer] :=
    List.prefix_append _ _
  cases call with
  | start => exact ⟨rfl, rfl, rfl, List.prefix_rfl, waits⟩
  | restart =>
    simp only [CapabilityFiber.request]
    split
    · exact ⟨rfl, rfl, rfl, answers, List.prefix_rfl⟩
    · exact ⟨rfl, rfl, rfl, List.prefix_rfl, waits⟩
  | update config =>
    simp only [CapabilityFiber.request]
    split
    · exact ⟨rfl, rfl, rfl, answers, List.prefix_rfl⟩
    · split
      · exact ⟨rfl, rfl, rfl, answers, List.prefix_rfl⟩
      · exact ⟨rfl, rfl, rfl, List.prefix_rfl, waits⟩
  | deactivateForWithdrawal detached => exact ⟨rfl, rfl, rfl, List.prefix_rfl, waits⟩
  | dispose => exact ⟨rfl, rfl, rfl, List.prefix_rfl, waits⟩

/-- A call that gets the lock lists the fiber as before, and at most answers. -/
theorem acquire_adds (fiber : CapabilityFiber ν) (call : FiberCall) :
    (fiber.acquire call).registered = fiber.registered ∧ (fiber.acquire call).waiting = fiber.waiting ∧
      fiber.answers <+: (fiber.acquire call).answers := by
  have answers {answer : FiberCall × FiberAnswer} : fiber.answers <+: fiber.answers ++ [answer] :=
    List.prefix_append _ _
  have drives (call : FiberCall) (force : Bool) :
      (fiber.startDrive call force).registered = fiber.registered ∧
        (fiber.startDrive call force).waiting = fiber.waiting ∧
          fiber.answers <+: (fiber.startDrive call force).answers := by
    unfold CapabilityFiber.startDrive
    split
    · exact ⟨rfl, rfl, answers⟩
    · split
      · exact ⟨rfl, rfl, answers⟩
      · exact ⟨rfl, rfl, List.prefix_rfl⟩
  cases call with
  | start => exact drives .start false
  | restart => exact drives .restart true
  | update config => exact drives (.update config) true
  | deactivateForWithdrawal detached =>
    simp only [CapabilityFiber.acquire]
    split
    · exact ⟨rfl, rfl, List.prefix_rfl⟩
    · exact ⟨rfl, rfl, answers⟩
  | dispose =>
    simp only [CapabilityFiber.acquire]
    split
    · exact ⟨rfl, rfl, answers⟩
    · exact ⟨rfl, rfl, List.prefix_rfl⟩

/-- What a fiber that is disposed of does with the lock: the call ends at once. -/
theorem Final.acquire_disposed (final : Final fiber) (disposed : fiber.state = .disposed) (call : FiberCall) :
    (fiber.acquire call).state = .disposed := by
  have drives (call : FiberCall) (force : Bool) : (fiber.startDrive call force).state = .disposed := by
    unfold CapabilityFiber.startDrive
    rw [if_pos (final.asked disposed)]
    exact disposed
  cases call with
  | start => exact drives .start false
  | restart => exact drives .restart true
  | update config => exact drives (.update config) true
  | deactivateForWithdrawal detached =>
    simp only [CapabilityFiber.acquire]
    rw [if_neg (by rw [disposed]; exact fun same => same.elim (fun same => by cases same) fun same => by cases same)]
    exact disposed
  | dispose =>
    simp only [CapabilityFiber.acquire]
    rw [if_pos disposed]
    exact disposed

/-- **A fiber that is disposed of stays so**, whatever happens. -/
theorem Final.stays (final : Final fiber) (disposed : fiber.state = .disposed) (tree : ScopeTree ν)
    (event : FiberEvent ν) : (fiber.step tree event).2.state = .disposed := by
  have free := final.freed disposed
  cases event with
  | call call =>
    obtain ⟨state, _⟩ := request_adds fiber call
    exact state.trans disposed
  | acquire index =>
    simp only [CapabilityFiber.step]
    split
    · exact (final.leave index).acquire_disposed disposed _
    · exact disposed
  | go =>
    simp only [CapabilityFiber.step, free]
    exact disposed
  | returned result =>
    simp only [CapabilityFiber.step, free]
    exact disposed
  | cleaned result =>
    simp only [CapabilityFiber.step, free]
    exact disposed
  | abandon =>
    simp only [CapabilityFiber.step, free]
    exact disposed
  | effect label =>
    obtain ⟨all, count, same⟩ := effect_registers fiber label
    simp only [CapabilityFiber.step]
    rw [same]
    exact disposed
  | register stack label =>
    obtain ⟨all, count, same⟩ := register_keeps fiber stack label
    simp only [CapabilityFiber.step]
    rw [same]
    exact disposed
  | unlist => exact disposed

/-- **No answer is taken back.** -/
theorem answers_step (fiber : CapabilityFiber ν) (tree : ScopeTree ν) (event : FiberEvent ν) :
    fiber.answers <+: (fiber.step tree event).2.answers := by
  have goes {event : FiberEvent ν} (works : event.Works) :
      fiber.answers <+: (fiber.step tree event).2.answers := by
    rcases (goes_step fiber tree works).progress with ⟨same, _⟩ | ⟨call, answer, _, more, _⟩
    · exact same ▸ List.prefix_rfl
    · rw [more]
      exact List.prefix_append _ _
  cases event with
  | call call => exact (request_adds fiber call).2.2.2.1
  | acquire index =>
    simp only [CapabilityFiber.step]
    split
    · exact (acquire_adds { fiber with waiting := fiber.waiting.set index none } _).2.2
    · exact List.prefix_rfl
  | go => exact goes .go
  | returned result => exact goes (.returned result)
  | cleaned result => exact goes (.cleaned result)
  | abandon =>
    simp only [CapabilityFiber.step]
    split
    · exact List.prefix_rfl
    · exact List.prefix_rfl
    · exact List.prefix_rfl
  | effect label =>
    obtain ⟨all, count, same⟩ := effect_registers fiber label
    simp only [CapabilityFiber.step, same]
    exact List.prefix_rfl
  | register stack label => exact goes (.register stack label)
  | unlist => exact List.prefix_rfl

/-- **A call that waits goes on waiting** until it gets the lock. -/
theorem waiting_step (tree : ScopeTree ν) {ticket : Nat} {call : FiberCall}
    (waits : fiber.waiting[ticket]? = some (some call)) (other : event ≠ .acquire ticket) :
    (fiber.step tree event).2.waiting[ticket]? = some (some call) := by
  have goes {event : FiberEvent ν} (works : event.Works) :
      (fiber.step tree event).2.waiting[ticket]? = some (some call) := by
    rw [(goes_step fiber tree works).waiting]
    exact waits
  cases event with
  | call next =>
    obtain ⟨more, same⟩ := (request_adds fiber next).2.2.2.2
    simp only [CapabilityFiber.step]
    rw [← same, List.getElem?_append_left (List.getElem?_eq_some_iff.mp waits).1]
    exact waits
  | acquire index =>
    have apart : index ≠ ticket := fun same => other (congrArg FiberEvent.acquire same)
    simp only [CapabilityFiber.step]
    split
    · rw [(acquire_adds { fiber with waiting := fiber.waiting.set index none } _).2.1,
        List.getElem?_set_ne apart]
      exact waits
    · exact waits
  | go => exact goes .go
  | returned result => exact goes (.returned result)
  | cleaned result => exact goes (.cleaned result)
  | abandon =>
    simp only [CapabilityFiber.step]
    split
    · exact waits
    · exact waits
    · exact waits
  | effect label =>
    obtain ⟨all, count, same⟩ := effect_registers fiber label
    simp only [CapabilityFiber.step]
    rw [same]
    exact waits
  | register stack label => exact goes (.register stack label)
  | unlist => exact waits

/-! ### A disposal -/

/-- A disposal has the lock. -/
def Ending (fiber : CapabilityFiber ν) : Prop :=
  ∃ force effects errors, fiber.transition = .cleaning .dispose force .disposal effects errors

theorem Ending.busy (ending : Ending fiber) : fiber.transition ≠ .free := by
  obtain ⟨force, effects, errors, cleaning⟩ := ending
  rw [cleaning]
  exact fun same => by cases same

/-- A disposal has answered. -/
structure Ended (fiber : CapabilityFiber ν) (answer : FiberAnswer) : Prop where
  disposed : fiber.state = .disposed
  free : fiber.transition = .free
  last : fiber.lastAnswer = some answer
  answered : (.dispose, answer) ∈ fiber.answers

theorem Ended.of {answer : FiberAnswer} (answers : next.answers = fiber.answers ++ [(.dispose, answer)])
    (free : next.transition = .free) (disposed : next.state = .disposed) : Ended next answer := by
  refine ⟨disposed, free, ?_, answers ▸ List.mem_append_right _ (List.mem_singleton_self _)⟩
  unfold CapabilityFiber.lastAnswer
  rw [answers, List.getLast?_append]
  rfl

/-- **A disposal gets the lock**: it cleans up, or it ends at once. -/
theorem ending_acquire (tree : ScopeTree ν) {ticket : Nat} (free : fiber.transition = .free)
    (waits : fiber.waiting[ticket]? = some (some .dispose)) :
    Ending (fiber.step tree (.acquire ticket)).2 ∨ ∃ answer, Ended (fiber.step tree (.acquire ticket)).2 answer := by
  simp only [CapabilityFiber.step, free, waits, CapabilityFiber.acquire]
  split
  · rename_i disposed
    exact .inr ⟨.done, .of rfl rfl disposed⟩
  · exact .inl ⟨_, _, _, rfl⟩

/-- **A disposal that has the lock keeps it** until it answers, unless its future is dropped. -/
theorem Ending.step (ending : Ending fiber) (tree : ScopeTree ν) (kept : event ≠ .abandon) :
    Ending (fiber.step tree event).2 ∨ ∃ answer, Ended (fiber.step tree event).2 answer := by
  obtain ⟨force, effects, errors, cleaning⟩ := ending
  cases event with
  | call call => exact .inl ⟨force, effects, errors, (request_adds fiber call).2.2.1.trans cleaning⟩
  | acquire index =>
    simp only [CapabilityFiber.step, cleaning]
    exact .inl ⟨force, effects, errors, cleaning⟩
  | go =>
    cases effects with
    | nil =>
      obtain ⟨binding, loaded, _, same⟩ := unloaded_eq tree fiber none errors
      simp only [CapabilityFiber.step, cleaning, CapabilityFiber.finish]
      rw [same]
      exact .inr ⟨_, .of rfl rfl rfl⟩
    | cons effect rest =>
      simp only [CapabilityFiber.step, cleaning]
      exact .inl ⟨force, effect :: rest, errors, cleaning⟩
  | returned result =>
    simp only [CapabilityFiber.step, cleaning]
    exact .inl ⟨force, effects, errors, cleaning⟩
  | cleaned result =>
    cases effects with
    | nil =>
      simp only [CapabilityFiber.step, cleaning]
      exact .inl ⟨force, [], errors, cleaning⟩
    | cons effect rest =>
      simp only [CapabilityFiber.step, cleaning]
      exact .inl ⟨force, rest, _, rfl⟩
  | abandon => exact absurd rfl kept
  | effect label =>
    obtain ⟨all, count, same⟩ := effect_registers fiber label
    simp only [CapabilityFiber.step]
    rw [same]
    exact .inl ⟨force, effects, errors, cleaning⟩
  | register stack label =>
    obtain ⟨all, count, same⟩ := register_keeps fiber stack label
    simp only [CapabilityFiber.step]
    rw [same]
    exact .inl ⟨force, effects, errors, cleaning⟩
  | unlist => exact .inl ⟨force, effects, errors, cleaning⟩

/-- **Who takes a fiber off the list**: its runtime, or a disposal at its end. -/
theorem listed_step (fiber : CapabilityFiber ν) (tree : ScopeTree ν) (other : event ≠ .unlist) :
    (fiber.step tree event).2.registered = fiber.registered ∨
      (fiber.step tree event).2.registered = false ∧ (fiber.step tree event).2.state = .disposed := by
  have goes {event : FiberEvent ν} (works : event.Works)
      (spared : ∀ call force effects errors, fiber.transition ≠ .cleaning call force .disposal effects errors) :
      (fiber.step tree event).2.registered = fiber.registered :=
    (goes_step fiber tree works).listed spared
  cases event with
  | call call => exact .inl (request_adds fiber call).2.1
  | acquire index =>
    simp only [CapabilityFiber.step]
    split
    · exact .inl (acquire_adds { fiber with waiting := fiber.waiting.set index none } _).1
    · exact .inl rfl
  | go =>
    by_cases ending : ∃ call force effects errors, fiber.transition = .cleaning call force .disposal effects errors
    · obtain ⟨call, force, effects, errors, cleaning⟩ := ending
      simp only [CapabilityFiber.step, cleaning]
      cases effects with
      | nil => exact .inr ⟨rfl, rfl⟩
      | cons effect rest => exact .inl rfl
    · exact .inl (goes .go fun call force effects errors same => ending ⟨call, force, effects, errors, same⟩)
  | returned result =>
    simp only [CapabilityFiber.step]
    split
    · rename_i loading
      refine .inl ((goes_returned tree loading result).listed fun call force effects errors same => ?_)
      rw [loading] at same
      cases same
    · exact .inl rfl
  | cleaned result =>
    simp only [CapabilityFiber.step]
    split
    · exact .inl rfl
    · exact .inl rfl
  | abandon =>
    simp only [CapabilityFiber.step]
    split
    · exact .inl rfl
    · exact .inl rfl
    · exact .inl rfl
  | effect label =>
    obtain ⟨all, count, same⟩ := effect_registers fiber label
    simp only [CapabilityFiber.step]
    rw [same]
    exact .inl rfl
  | register stack label =>
    obtain ⟨all, count, same⟩ := register_keeps fiber stack label
    simp only [CapabilityFiber.step]
    rw [same]
    exact .inl rfl
  | unlist => exact absurd rfl other

/-- **A fiber that is off the list stays off it.** -/
theorem unlisted_step (tree : ScopeTree ν) (event : FiberEvent ν)
    (unlisted : fiber.registered = false) : (fiber.step tree event).2.registered = false := by
  by_cases clears : event = .unlist
  · rw [clears]
    rfl
  · rcases listed_step fiber tree clears with same | ⟨off, _⟩
    · exact same.trans unlisted
    · exact off

end CapabilityFiber

namespace ReactiveRuntime

open CapabilityFiber (Final)

variable {ν : Type} {runtime : ReactiveRuntime ν} {event : ReactiveEvent ν}

/-! ### A fiber of a coordinator -/

/-- What one event of a coordinator does to one fiber. -/
def Moves (event : ReactiveEvent ν) (id : Nat) (fiber next : CapabilityFiber ν) : Prop :=
  next = fiber ∨ ∃ inner tree, event = .fiber id inner ∧ next = (fiber.step tree inner).2

/-- **Every fiber is there after every event**, and one event of its own has happened to it at most. -/
theorem moves_step (runtime : ReactiveRuntime ν) (event : ReactiveEvent ν) {id : Nat} {fiber : CapabilityFiber ν}
    (found : runtime.fibers[id]? = some fiber) :
    ∃ next, (runtime.step event).fibers[id]? = some next ∧ Moves event id fiber next := by
  have stays (after : ReactiveRuntime ν) (same : after.fibers = runtime.fibers) :
      ∃ next, after.fibers[id]? = some next ∧ Moves event id fiber next :=
    ⟨fiber, same ▸ found, .inl rfl⟩
  unfold ReactiveRuntime.step
  split
  · exact stays _ rfl
  · cases event with
    | context call =>
      simp only
      split
      · exact stays _ rfl
      · exact stays _ rfl
    | create definition context config =>
      simp only
      split
      · refine ⟨fiber, ?_, .inl rfl⟩
        rw [List.getElem?_append_left (List.getElem?_eq_some_iff.mp found).1]
        exact found
      · exact stays _ rfl
    | watch other =>
      simp only
      split
      · exact stays _ rfl
      · exact stays _ rfl
    | drop other => exact stays _ rfl
    | fiber other inner =>
      simp only
      split
      · rename_i held there
        by_cases here : other = id
        · subst here
          cases there.symm.trans found
          exact ⟨_, List.getElem?_set_self (List.getElem?_eq_some_iff.mp found).1, .inr ⟨inner, _, rfl, rfl⟩⟩
        · exact ⟨fiber, (List.getElem?_set_ne here).trans found, .inl rfl⟩
      · exact stays _ rfl

/-- Only a creation makes a fiber. -/
theorem length_step (runtime : ReactiveRuntime ν)
    (uncreated : ∀ definition context config, event ≠ .create definition context config) :
    (runtime.step event).fibers.length = runtime.fibers.length := by
  unfold ReactiveRuntime.step
  split
  · rfl
  · cases event with
    | context call =>
      simp only
      split
      · rfl
      · rfl
    | create definition context config => exact absurd rfl (uncreated definition context config)
    | watch other =>
      simp only
      split
      · rfl
      · rfl
    | drop other => rfl
    | fiber other inner =>
      simp only
      split
      · exact List.length_set
      · rfl

/-- Where the fibers of a coordinator come from, when none is made. -/
theorem before_step (runtime : ReactiveRuntime ν)
    (uncreated : ∀ definition context config, event ≠ .create definition context config) {id : Nat}
    {next : CapabilityFiber ν} (found : (runtime.step event).fibers[id]? = some next) :
    ∃ fiber, runtime.fibers[id]? = some fiber ∧ Moves event id fiber next := by
  have bound := (List.getElem?_eq_some_iff.mp found).1
  rw [length_step runtime uncreated] at bound
  obtain ⟨fiber, before⟩ : ∃ fiber, runtime.fibers[id]? = some fiber := ⟨_, List.getElem?_eq_getElem bound⟩
  obtain ⟨after, there, moves⟩ := moves_step runtime event before
  cases there.symm.trans found
  exact ⟨fiber, before, moves⟩

/-- An event of a fiber happens, unless the topology lock is poisoned. -/
theorem fiber_step (unpoisoned : runtime.tree.poisoned = false) {id : Nat} {fiber : CapabilityFiber ν}
    (found : runtime.fibers[id]? = some fiber) (inner : FiberEvent ν) :
    (runtime.step (.fiber id inner)).fibers[id]? = some (fiber.step runtime.tree inner).2 := by
  unfold ReactiveRuntime.step
  rw [if_neg (by rw [unpoisoned]; exact Bool.false_ne_true)]
  simp only [found]
  exact List.getElem?_set_self (List.getElem?_eq_some_iff.mp found).1

/-- What never changes back of a fiber. -/
theorem Moves.final {id : Nat} {fiber next : CapabilityFiber ν} (moves : Moves event id fiber next)
    (final : Final fiber) : Final next ∧ (fiber.state = .disposed → next.state = .disposed) ∧
      (fiber.registered = false → next.registered = false) ∧ fiber.answers <+: next.answers := by
  rcases moves with rfl | ⟨inner, tree, _, rfl⟩
  · exact ⟨final, fun same => same, fun same => same, List.prefix_rfl⟩
  · exact ⟨final.step tree inner, fun disposed => final.stays disposed tree inner,
      fun unlisted => CapabilityFiber.unlisted_step tree inner unlisted, fiber.answers_step tree inner⟩

end ReactiveRuntime

end Kernis
