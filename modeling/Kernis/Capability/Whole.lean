/-
**Fibers none of whose calls is dropped.**

* `FiberEvent.Whole` — the events of such a fiber. `Attended.whole` — they keep the account of its effects.
* `Poised` — the state of the fiber by the position of the holder of its lock.
* `Kept` — it holds a publication only while it is active or unloads; `Kept.step`.
-/

import Kernis.Capability.Attended

namespace Kernis

open Std

/-- What happens to a fiber none of whose calls is dropped and whose publication nobody detached. -/
inductive FiberEvent.Whole {ν : Type} : FiberEvent ν → Prop
  | call (call : FiberCall)
      (attached : ∀ provider, call ≠ .deactivateForWithdrawal (some provider)) : Whole (.call call)
  | acquire (index : Nat) : Whole (.acquire index)
  | effect (label : Text) : Whole (.effect label)
  | works {event : FiberEvent ν} (works : event.Works) : Whole event

/-- What a cleanup finds the fiber in. -/
def Cleanup.Finds (state : FiberState) : Cleanup → Prop
  | .reload | .missing | .disposal => state = .unloading
  | .withdrawal detached => state = .unloading ∧ detached = none
  | .changed | .refused _ | .staleValue | .staleError | .failed _ => state = .loading

namespace CapabilityFiber

variable {ν : Type} {fiber next : CapabilityFiber ν}

/-! ### Calls that run to their end -/

theorem Tidy.idle (tidy : Tidy fiber) (free : fiber.transition = .free)
    (same : next.effectStacks = fiber.effectStacks) (last : next.effects = fiber.effects)
    (state : next.state = fiber.state) : Tidy next :=
  tidy.of same last fun inactive _ => ⟨state ▸ inactive, .inl free⟩

theorem Tidy.request (tidy : Tidy fiber) (call : FiberCall) : Tidy (fiber.request call) := by
  have keeps {next : CapabilityFiber ν} (same : next.effectStacks = fiber.effectStacks)
      (last : next.effects = fiber.effects) (state : next.state = fiber.state)
      (transition : next.transition = fiber.transition) : Tidy next :=
    tidy.of same last fun inactive idle => ⟨state ▸ inactive, transition ▸ idle⟩
  cases call with
  | start => exact keeps rfl rfl rfl rfl
  | restart =>
    simp only [CapabilityFiber.request]
    split
    · exact keeps rfl rfl rfl rfl
    · exact keeps rfl rfl rfl rfl
  | update config =>
    simp only [CapabilityFiber.request]
    split
    · exact keeps rfl rfl rfl rfl
    · split
      · exact keeps rfl rfl rfl rfl
      · exact keeps rfl rfl rfl rfl
  | deactivateForWithdrawal detached => exact keeps rfl rfl rfl rfl
  | dispose => exact keeps rfl rfl rfl rfl

theorem Tidy.startDrive (tidy : Tidy fiber) (free : fiber.transition = .free) (call : FiberCall)
    (force : Bool) : Tidy (fiber.startDrive call force) := by
  unfold CapabilityFiber.startDrive
  split
  · exact tidy.idle free rfl rfl rfl
  · split
    · exact tidy.idle free rfl rfl rfl
    · exact tidy.idle free rfl rfl rfl

theorem Tidy.acquire (tidy : Tidy fiber) (free : fiber.transition = .free) (call : FiberCall) :
    Tidy (fiber.acquire call) := by
  cases call with
  | start => exact tidy.startDrive free _ _
  | restart => exact tidy.startDrive free _ _
  | update config => exact tidy.startDrive free _ _
  | deactivateForWithdrawal detached =>
    simp only [CapabilityFiber.acquire]
    split
    · exact Tidy.clean { fiber with state := .unloading } tidy.closed _ _ _
    · exact tidy.idle free rfl rfl rfl
  | dispose =>
    simp only [CapabilityFiber.acquire]
    split
    · exact tidy.idle free rfl rfl rfl
    · exact Tidy.clean { fiber with state := .unloading } tidy.closed _ _ _

/-- **A call that is not dropped keeps the account.** -/
theorem Attended.whole (attended : Attended fiber) (tree : ScopeTree ν) {event : FiberEvent ν}
    (whole : event.Whole) : Attended (fiber.step tree event).2 := by
  obtain ⟨tended, tidy⟩ := attended
  cases whole with
  | call call => exact ⟨FiberSystem.tended_fiber tended rfl rfl, tidy.request call⟩
  | acquire index =>
    refine ⟨FiberSystem.tended_fiber tended rfl rfl, ?_⟩
    simp only [CapabilityFiber.step]
    split
    · rename_i call free found
      have taken : Tidy { fiber with waiting := fiber.waiting.set index none } :=
        tidy.idle free rfl rfl rfl
      exact taken.acquire free call
    · exact tidy
  | effect label =>
    refine ⟨FiberSystem.tended_fiber tended rfl rfl, ?_⟩
    simp only [CapabilityFiber.step, CapabilityFiber.effect]
    split
    · exact tidy.register _ label
    · exact tidy
  | works works => exact Attended.step ⟨tended, tidy⟩ tree works

/-! ### Where a fiber stands -/

/-- **Where a fiber stands none of whose calls is dropped.** -/
def Poised (fiber : CapabilityFiber ν) : Prop :=
  match fiber.transition with
  | .free => (fiber.state = .loading → fiber.disposeRequested = true) ∧ fiber.state ≠ .unloading
  | .driving _ _ => fiber.state = .pending ∨ fiber.state = .active ∨ fiber.state = .failed
  | .loading _ _ _ _ | .publishing _ _ _ _ _ => fiber.state = .loading
  | .cleaning _ _ purpose _ _ => purpose.Finds fiber.state

/-- A fiber holds a publication only while it is active or unloads, and no withdrawal of it is detached. -/
structure Kept (fiber : CapabilityFiber ν) : Prop where
  poised : fiber.Poised
  held : ∀ handle, fiber.handle = some handle → fiber.state = .active ∨ fiber.state = .unloading
  attached : ∀ provider, some (.deactivateForWithdrawal (some provider)) ∉ fiber.waiting

theorem kept_new (definition : PluginDefinition) (context : List ContextState) (config : Text) :
    (CapabilityFiber.new definition context config : CapabilityFiber ν).Kept :=
  ⟨⟨nofun, nofun⟩, nofun, fun _ => List.not_mem_nil⟩

/-- A change that moves neither the fiber nor its publication. -/
theorem Kept.of (kept : Kept fiber) (transition : next.transition = fiber.transition)
    (state : next.state = fiber.state) (handle : next.handle = fiber.handle)
    (asked : fiber.disposeRequested = true → next.disposeRequested = true)
    (attached : ∀ provider, some (.deactivateForWithdrawal (some provider)) ∉ next.waiting) :
    Kept next := by
  refine ⟨?_, ?_, attached⟩
  · have poised := kept.poised
    unfold Poised at poised ⊢
    rw [transition, state]
    split
    · rename_i free
      rw [free] at poised
      exact ⟨fun loading => asked (poised.1 loading), poised.2⟩
    all_goals
      rename_i same
      rw [same] at poised
      exact poised
  · rw [handle, state]
    exact kept.held

theorem Kept.request (kept : Kept fiber) {call : FiberCall}
    (attached : ∀ provider, call ≠ .deactivateForWithdrawal (some provider)) :
    Kept (fiber.request call) := by
  have waits {next : CapabilityFiber ν} (waiting : next.waiting = fiber.waiting ++ [some call])
      (transition : next.transition = fiber.transition) (state : next.state = fiber.state)
      (handle : next.handle = fiber.handle)
      (asked : fiber.disposeRequested = true → next.disposeRequested = true) : Kept next := by
    refine kept.of transition state handle asked fun provider member => ?_
    rw [waiting] at member
    rcases List.mem_append.mp member with before | now
    · exact kept.attached provider before
    · exact attached provider (Option.some.inj (List.mem_singleton.mp now)).symm
  cases call with
  | start => exact waits rfl rfl rfl rfl id
  | restart =>
    simp only [CapabilityFiber.request]
    split
    · exact kept.of rfl rfl rfl id kept.attached
    · exact waits rfl rfl rfl rfl id
  | update config =>
    simp only [CapabilityFiber.request]
    split
    · exact kept.of rfl rfl rfl id kept.attached
    · split
      · exact kept.of rfl rfl rfl id kept.attached
      · exact waits rfl rfl rfl rfl id
  | deactivateForWithdrawal detached => exact waits rfl rfl rfl rfl id
  | dispose => exact waits rfl rfl rfl rfl fun _ => rfl

/-- A change of the state that gives up no publication. -/
theorem Kept.move (kept : Kept fiber) (poised : next.Poised)
    (handle : ∀ handle, next.handle = some handle →
      fiber.handle = some handle ∧ (fiber.state = .active ∨ fiber.state = .unloading →
        next.state = .active ∨ next.state = .unloading))
    (waiting : next.waiting = fiber.waiting) : Kept next := by
  refine ⟨poised, fun held same => ?_, ?_⟩
  · obtain ⟨before, stays⟩ := handle held same
    exact stays (kept.held held before)
  · rw [waiting]
    exact kept.attached

theorem Kept.startDrive (kept : Kept fiber) (free : fiber.transition = .free)
    (undisposed : fiber.state = .disposed → fiber.disposeRequested = true) (call : FiberCall)
    (force : Bool) : Kept (fiber.startDrive call force) := by
  have poised := kept.poised
  unfold Poised at poised
  rw [free] at poised
  unfold CapabilityFiber.startDrive
  split
  · exact kept.move poised (fun _ same => ⟨same, id⟩) rfl
  · rename_i unasked
    split
    · exact kept.move poised (fun _ same => ⟨same, id⟩) rfl
    · refine kept.move ?_ (fun _ same => ⟨same, id⟩) rfl
      show fiber.state = .pending ∨ fiber.state = .active ∨ fiber.state = .failed
      cases state : fiber.state with
      | pending => exact .inl rfl
      | active => exact .inr (.inl rfl)
      | failed => exact .inr (.inr rfl)
      | loading => exact absurd (poised.1 state) unasked
      | unloading => exact absurd state poised.2
      | disposed => exact absurd (undisposed state) unasked

/-- An unload keeps the publication up to its end. -/
theorem Kept.unload (kept : Kept fiber) (call : FiberCall) (force : Bool) {purpose : Cleanup}
    (finds : purpose.Finds .unloading) : Kept (fiber.unload call force purpose) :=
  kept.move finds (fun _ same => ⟨same, fun _ => .inr rfl⟩) rfl

theorem Kept.acquire (kept : Kept fiber) (free : fiber.transition = .free)
    (undisposed : fiber.state = .disposed → fiber.disposeRequested = true) {call : FiberCall}
    (attached : ∀ provider, call ≠ .deactivateForWithdrawal (some provider)) :
    Kept (fiber.acquire call) := by
  have poised := kept.poised
  unfold Poised at poised
  rw [free] at poised
  cases call with
  | start => exact kept.startDrive free undisposed _ _
  | restart => exact kept.startDrive free undisposed _ _
  | update config => exact kept.startDrive free undisposed _ _
  | deactivateForWithdrawal detached =>
    have whole : detached = none := by
      cases detached with
      | none => rfl
      | some provider => exact absurd rfl (attached provider)
    simp only [CapabilityFiber.acquire]
    split
    · exact kept.unload _ _ ⟨rfl, whole⟩
    · exact kept.move poised (fun _ same => ⟨same, id⟩) rfl
  | dispose =>
    simp only [CapabilityFiber.acquire]
    split
    · exact kept.move poised (fun _ same => ⟨same, id⟩) rfl
    · exact kept.unload _ _ rfl

theorem Kept.drive (kept : Kept fiber) {call : FiberCall} {force : Bool}
    (driving : fiber.transition = .driving call force) (tree : ScopeTree ν) :
    Kept (drive tree fiber call force).2 := by
  have poised := kept.poised
  unfold Poised at poised
  rw [driving] at poised
  have resting : (fiber.state = .loading → fiber.disposeRequested = true) ∧
      fiber.state ≠ .unloading := by
    rcases poised with state | state | state <;> rw [state] <;> exact ⟨nofun, nofun⟩
  unfold CapabilityFiber.drive
  split
  · simp only
    split
    · exact kept.unload _ _ rfl
    · rename_i inactive
      refine kept.move ⟨nofun, nofun⟩ (fun handle same => ⟨same, fun holds => ?_⟩) rfl
      exact absurd holds (not_or.mpr ⟨inactive, resting.2⟩)
  · split
    · exact kept.move resting (fun _ same => ⟨same, id⟩) rfl
    · split
      · exact kept.unload _ _ rfl
      · rename_i inactive
        split
        · exact kept.move resting (fun _ same => ⟨same, id⟩) rfl
        · refine kept.move rfl (fun handle same => ⟨same, fun holds => ?_⟩) rfl
          exact absurd holds (not_or.mpr ⟨fun active => inactive (.inl active), resting.2⟩)

theorem Kept.returned (kept : Kept fiber) {call : FiberCall} {force : Bool} {publication : Nat}
    {dependencies : ResolvedDependencies ν}
    (loading : fiber.transition = .loading call force publication dependencies)
    (tree : ScopeTree ν) (result : Except Text ν) :
    Kept (returned tree fiber call force publication dependencies result).2 := by
  have poised := kept.poised
  unfold Poised at poised
  rw [loading] at poised
  unfold CapabilityFiber.returned
  simp only
  split
  · split
    · exact kept.move poised (fun _ same => ⟨same, id⟩) rfl
    · exact kept.move poised (fun _ same => ⟨same, id⟩) rfl
  · refine kept.move ?_ (fun _ same => ⟨same, id⟩) rfl
    show Cleanup.Finds _ _
    split
    · exact poised
    · exact poised

theorem Kept.publish (kept : Kept fiber) {call : FiberCall} {force : Bool} {publication : Nat}
    {dependencies : ResolvedDependencies ν} {value : ν}
    (publishing : fiber.transition = .publishing call force publication dependencies value)
    (tree : ScopeTree ν) :
    Kept (publish tree fiber call force publication dependencies value).2 := by
  have poised := kept.poised
  unfold Poised at poised
  rw [publishing] at poised
  unfold CapabilityFiber.publish
  split
  · exact ⟨⟨nofun, nofun⟩, fun _ _ => .inl rfl, kept.attached⟩
  · exact kept.move poised (fun _ same => ⟨same, id⟩) rfl
  · exact kept.move poised (fun _ same => ⟨same, id⟩) rfl
  · exact kept

theorem Kept.finish (kept : Kept fiber) {call : FiberCall} {force : Bool} {purpose : Cleanup}
    {errors : List EffectError} (cleaning : fiber.transition = .cleaning call force purpose [] errors)
    (tree : ScopeTree ν) : Kept (finish tree fiber call force errors purpose).2 := by
  have poised := kept.poised
  unfold Poised at poised
  rw [cleaning] at poised
  have freed {next : CapabilityFiber ν} (poised : next.Poised) (gone : next.handle = none)
      (waiting : next.waiting = fiber.waiting) : Kept next :=
    kept.move poised (fun _ same => by rw [gone] at same; cases same) waiting
  -- A load that is discarded holds nothing.
  have empty (loading : fiber.state = .loading) : fiber.handle = none := by
    by_contra some
    obtain ⟨handle, same⟩ := Option.ne_none_iff_exists'.mp some
    rcases kept.held handle same with active | unloading
    · rw [loading] at active
      cases active
    · rw [loading] at unloading
      cases unloading
  have agains {next : CapabilityFiber ν} (still : next.state ≠ .unloading)
      (gone : next.handle = none) (waiting : next.waiting = fiber.waiting) :
      Kept (next.again call force .pending) := by
    unfold again
    split
    · exact freed ⟨fun _ => ‹_›, still⟩ gone waiting
    · exact freed (.inl rfl) gone waiting
  cases purpose with
  | reload =>
    obtain ⟨binding, effects, _, same⟩ := unloaded_eq tree fiber none errors
    simp only [CapabilityFiber.finish]
    rw [same]
    exact agains (fun same => by cases same) rfl rfl
  | missing =>
    obtain ⟨binding, effects, _, same⟩ := unloaded_eq tree fiber none errors
    simp only [CapabilityFiber.finish]
    rw [same]
    exact freed ⟨(fun same => by cases same), fun same => by cases same⟩ rfl rfl
  | withdrawal detached =>
    obtain ⟨binding, effects, _, same⟩ := unloaded_eq tree fiber detached errors
    simp only [CapabilityFiber.finish]
    rw [same]
    exact freed ⟨(fun same => by cases same), fun same => by cases same⟩ rfl rfl
  | disposal =>
    obtain ⟨binding, effects, _, same⟩ := unloaded_eq tree fiber none errors
    simp only [CapabilityFiber.finish]
    rw [same]
    exact freed ⟨(fun same => by cases same), fun same => by cases same⟩ rfl rfl
  | changed => exact freed (.inl rfl) (empty poised) rfl
  | refused error =>
    exact freed ⟨(fun same => by cases same), fun same => by cases same⟩ (empty poised) rfl
  | staleValue =>
    refine agains ?_ (empty poised) rfl
    show fiber.state ≠ .unloading
    rw [show fiber.state = .loading from poised]
    exact fun same => by cases same
  | staleError =>
    refine agains ?_ (empty poised) rfl
    show (if fiber.disposeRequested then FiberState.disposed else fiber.state) ≠ .unloading
    rw [show fiber.state = .loading from poised]
    split
    · exact fun same => by cases same
    · exact fun same => by cases same
  | failed reason =>
    exact freed ⟨(fun same => by cases same), fun same => by cases same⟩ (empty poised) rfl

/-- **An event of a fiber keeps the fiber where it stands.** -/
theorem Kept.step (kept : Kept fiber) (settled : Settled fiber) (tree : ScopeTree ν)
    {event : FiberEvent ν} (whole : event.Whole) : Kept (fiber.step tree event).2 := by
  have registers (stack : Nat) (label : Text) : Kept (fiber.register stack label) := by
    unfold CapabilityFiber.register
    split
    · exact kept.of rfl rfl rfl id kept.attached
    · exact kept
  cases whole with
  | call call attached => exact kept.request attached
  | acquire index =>
    simp only [CapabilityFiber.step]
    split
    · rename_i call free found
      have taken : Kept { fiber with waiting := fiber.waiting.set index none } := by
        refine kept.of rfl rfl rfl id fun provider member => ?_
        rcases List.mem_or_eq_of_mem_set member with before | now
        · exact kept.attached provider before
        · cases now
      refine taken.acquire free settled.asked fun provider same => ?_
      subst same
      exact kept.attached provider (List.mem_of_getElem? found)
    · exact kept
  | effect label =>
    simp only [CapabilityFiber.step, CapabilityFiber.effect]
    split
    · exact registers _ label
    · exact kept
  | works works =>
    cases works with
    | go =>
      simp only [CapabilityFiber.step]
      split
      · exact kept.drive ‹_› tree
      · exact kept.publish ‹_› tree
      · exact kept.finish ‹_› tree
      · exact kept
    | returned result =>
      simp only [CapabilityFiber.step]
      split
      · exact kept.returned ‹_› tree result
      · exact kept
    | cleaned result =>
      simp only [CapabilityFiber.step]
      split
      · rename_i call force purpose effect rest errors cleaning
        have poised := kept.poised
        unfold Poised at poised
        rw [cleaning] at poised
        exact kept.move poised (fun _ same => ⟨same, id⟩) rfl
      · exact kept
    | register stack label => exact registers stack label

end CapabilityFiber

end Kernis
