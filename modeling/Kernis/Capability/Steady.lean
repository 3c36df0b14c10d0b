/-
**What holds of an owner that drops no future.**

* `ReactiveRuntime.Excused`, `ReactiveRuntime.Asked` — every failed fiber has a cause, and every fiber whose
  disposal was asked for is disposed of, or will be.
* `SerialRuntime.Steady` — the owner awaits one fiber at most, and the fibers that a pass has passed over are
  up to date; `Steady.run`.
* `Caused` — why a load failed in a run; `Steady.excused_run`.
-/

import Kernis.Capability.Excuses
import Kernis.Capability.Refusal

namespace Kernis

open Std

variable {ν : Type}

namespace ReactiveRuntime

open CapabilityFiber

variable {runtime : ReactiveRuntime ν} {caused : Nat → LoadFailure → Prop}

/-! ### One owner -/

/-- The fibers after an event of none of them. -/
theorem step_fibers (runtime : ReactiveRuntime ν) {event : ReactiveEvent ν}
    (other : ∀ id inner, event ≠ .fiber id inner) : (runtime.step event).fibers = runtime.fibers ∨
      ∃ definition context config,
        (runtime.step event).fibers = runtime.fibers ++ [.new definition context config] := by
  unfold ReactiveRuntime.step
  split
  · exact .inl rfl
  · cases event with
    | context call =>
      simp only
      split
      · exact .inl rfl
      · exact .inl rfl
    | create definition context config =>
      simp only
      split
      · exact .inr ⟨definition, _, config, rfl⟩
      · exact .inl rfl
    | watch id =>
      simp only
      split
      · exact .inl rfl
      · exact .inl rfl
    | drop id => exact .inl rfl
    | fiber id inner => exact absurd rfl (other id inner)

/-- What holds of every fiber, and of every new one, holds after an event of none of them. -/
theorem forall_step_fibers {good : CapabilityFiber ν → Prop} (all : ∀ fiber ∈ runtime.fibers, good fiber)
    (fresh : ∀ definition context config, good (.new definition context config)) {event : ReactiveEvent ν}
    (other : ∀ id inner, event ≠ .fiber id inner) : ∀ fiber ∈ (runtime.step event).fibers, good fiber := by
  intro fiber member
  rcases runtime.step_fibers other with same | ⟨definition, context, config, same⟩
  · rw [same] at member
    exact all fiber member
  · rw [same] at member
    rcases List.mem_append.mp member with before | now
    · exact all fiber before
    · cases List.mem_singleton.mp now
      exact fresh definition context config

/-- Every failed fiber has a cause. -/
def Excused (caused : Nat → LoadFailure → Prop) (runtime : ReactiveRuntime ν) : Prop :=
  ∀ (id : Nat) (fiber : CapabilityFiber ν), runtime.fibers[id]? = some fiber → fiber.Excuses (caused id)

theorem Excused.imp {later : Nat → LoadFailure → Prop} (excused : runtime.Excused caused)
    (grows : ∀ id cause, caused id cause → later id cause) : runtime.Excused later :=
  fun id fiber found => (excused id fiber found).imp (grows id)

theorem Excused.place (excused : runtime.Excused caused) {id : Nat}
    {after : ScopeTree ν × CapabilityFiber ν} (excuses : after.2.Excuses (caused id)) :
    (runtime.place id after).Excused caused := by
  intro other rival there
  rcases place_cases there with ⟨rfl, rfl⟩ | ⟨_, before⟩
  · exact excuses
  · exact excused other rival before

/-- **Whatever happens leaves every failed fiber a cause.** -/
theorem Excused.step (excused : runtime.Excused caused) (whole : runtime.Whole) {event : ReactiveEvent ν}
    (allows : Allows event)
    (fails : ∀ id reason, event = .fiber id (.returned (.error reason)) → caused id (.factory reason))
    (refuses : ∀ id error, event = .fiber id .go → runtime.Refuses id error →
      caused id (.refused error)) : (runtime.step event).Excused caused := by
  by_cases own : ∃ id inner, event = .fiber id inner
  · obtain ⟨id, inner, rfl⟩ := own
    unfold ReactiveRuntime.step
    split
    · exact excused
    · simp only
      split
      · rename_i fiber found
        refine excused.place ((excused id fiber found).step
          (whole.intact fiber (List.mem_of_getElem? found)).kept runtime.tree allows
          (fun reason same => fails id reason (congrArg _ same)) ?_)
        exact fun call force publication dependencies value error same publishing failed =>
          refuses id error (congrArg _ same) ⟨fiber, call, force, publication, dependencies, value, found,
            publishing, failed⟩
      · exact excused
  · intro id fiber found
    rcases runtime.step_fibers (fun id inner same => own ⟨id, inner, same⟩) with
      same | ⟨definition, context, config, same⟩
    · rw [same] at found
      exact excused id fiber found
    · rw [same] at found
      rcases Nat.lt_or_ge id runtime.fibers.length with inside | outside
      · rw [List.getElem?_append_left inside] at found
        exact excused id fiber found
      · rw [List.getElem?_append_right outside] at found
        cases List.mem_singleton.mp (List.mem_of_getElem? found)
        exact excuses_new definition context config

/-- **A drain leaves every failed fiber a cause.** -/
theorem Draining.excused {provider : ProviderIdentity} (draining : Draining provider runtime)
    (excused : runtime.Excused caused) (disposer : Nat → ScopedEffect → Except Text Unit) (ids : List Nat)
    (report : WithdrawalReport) :
    (ids.foldl (ReactiveRuntime.drain disposer provider) (report, runtime)).2.Excused caused := by
  induction ids generalizing report runtime with
  | nil => exact excused
  | cons id rest ih =>
    refine ih (draining.drain disposer report id) ?_ _
    unfold ReactiveRuntime.drain
    split
    · exact excused
    · rename_i fiber found
      refine excused.place (Deactivates.excuses (CapabilityFiber.deactivates runtime.tree
        (draining.rest fiber (List.mem_of_getElem? found)) _ (disposer id)) (excused id fiber found))

theorem AtRest.step (rest : runtime.AtRest) {event : ReactiveEvent ν}
    (other : ∀ id inner, event ≠ .fiber id inner) : (runtime.step event).AtRest :=
  forall_step_fibers rest (fun _ _ _ => rfl) other

theorem AtRest.publish (rest : runtime.AtRest) (definition : CapabilityDefinition)
    (expectation : PublishExpectation) (construct : ResolvedDependencies ν → Except Text ν) :
    (runtime.publish definition expectation construct).AtRest :=
  publish_keeps AtRest (fun _ _ rest _ => rest.step fun _ _ same => by cases same) rest definition
    expectation construct

theorem Excused.publish (excused : runtime.Excused caused) (whole : runtime.Whole)
    (definition : CapabilityDefinition) (expectation : PublishExpectation)
    (construct : ResolvedDependencies ν → Except Text ν) :
    (runtime.publish definition expectation construct).Excused caused := by
  refine (publish_keeps (fun runtime => runtime.Excused caused ∧ runtime.Whole)
    (fun runtime call good untorn => ?_) ⟨excused, whole⟩ definition expectation construct).1
  obtain ⟨excused, whole⟩ := good
  refine ⟨excused.step whole (allows_scope untorn) (fun _ _ same => ?_) fun _ _ same => ?_,
    whole.step (allows_scope untorn)⟩
  · cases same
  · cases same

/-- Every fiber whose disposal was asked for is disposed of, or its disposal is under way. -/
def Asked (runtime : ReactiveRuntime ν) : Prop := ∀ fiber ∈ runtime.fibers, fiber.Asks

theorem Asked.place (asked : runtime.Asked) {id : Nat} {after : ScopeTree ν × CapabilityFiber ν}
    (asks : after.2.Asks) : (runtime.place id after).Asked := by
  intro rival there
  obtain ⟨other, place⟩ := List.mem_iff_getElem?.mp there
  rcases place_cases place with ⟨_, rfl⟩ | ⟨_, before⟩
  · exact asks
  · exact asked rival (List.mem_of_getElem? before)

theorem Asked.step (asked : runtime.Asked) {event : ReactiveEvent ν}
    (other : ∀ id inner, event ≠ .fiber id inner) : (runtime.step event).Asked :=
  forall_step_fibers asked asks_new other

theorem Asked.publish (asked : runtime.Asked) (definition : CapabilityDefinition)
    (expectation : PublishExpectation) (construct : ResolvedDependencies ν → Except Text ν) :
    (runtime.publish definition expectation construct).Asked :=
  publish_keeps Asked (fun _ _ asked _ => asked.step fun _ _ same => by cases same) asked definition
    expectation construct

theorem Draining.asked {provider : ProviderIdentity} (draining : Draining provider runtime)
    (asked : runtime.Asked) (disposer : Nat → ScopedEffect → Except Text Unit) (ids : List Nat)
    (report : WithdrawalReport) :
    (ids.foldl (ReactiveRuntime.drain disposer provider) (report, runtime)).2.Asked := by
  induction ids generalizing report runtime with
  | nil => exact asked
  | cons id rest ih =>
    refine ih (draining.drain disposer report id) ?_ _
    unfold ReactiveRuntime.drain
    split
    · exact asked
    · rename_i fiber found
      have member := List.mem_of_getElem? found
      have free := draining.rest fiber member
      exact asked.place (Deactivates.asks (CapabilityFiber.deactivates runtime.tree free _ (disposer id))
        (asked fiber member) free)

theorem Asked.withdrawAndReconcile (asked : runtime.Asked) (whole : runtime.Whole) (rest : runtime.AtRest)
    (unpoisoned : runtime.tree.poisoned = false) (disposer : Nat → ScopedEffect → Except Text Unit)
    (capability : Id) (expected : Nat) :
    (runtime.withdrawAndReconcile disposer capability expected).2.Asked := by
  rcases runtime.withdrawAndReconcile_cases whole rest unpoisoned disposer capability expected with
    same | ⟨provider, tree, ids, draining, same⟩
  · rw [same]
    exact asked
  · rw [same]
    exact draining.asked asked disposer ids _

/-- Of two events of a fiber the second puts it back. -/
theorem place_place (id : Nat) (first after : ScopeTree ν × CapabilityFiber ν) :
    (runtime.place id first).place id after = runtime.place id after := by
  unfold place
  simp only [List.set_set]

/-- A call that begins on a fiber. -/
theorem begin_eq_place (unpoisoned : runtime.tree.poisoned = false) {id : Nat} {fiber : CapabilityFiber ν}
    (found : runtime.fibers[id]? = some fiber) (call : FiberCall) :
    runtime.begin id call = runtime.place id (runtime.tree, fiber.begin runtime.tree call) := by
  have inside := (List.getElem?_eq_some_iff.mp found).1
  have first : runtime.step (.fiber id (.call call)) =
      runtime.place id (runtime.tree, fiber.request call) := by
    unfold ReactiveRuntime.step
    rw [if_neg (by rw [unpoisoned]; exact Bool.false_ne_true)]
    simp only [found]
    rfl
  have there : (runtime.place id (runtime.tree, fiber.request call)).fibers[id]? =
      some (fiber.request call) := List.getElem?_set_self inside
  have still : (runtime.place id (runtime.tree, fiber.request call)).tree = runtime.tree := rfl
  have acquired (fiber : CapabilityFiber ν) (index : Nat) :
      (fiber.step runtime.tree (.acquire index)).1 = runtime.tree := by
    simp only [CapabilityFiber.step]
    split
    · rfl
    · rfl
  unfold ReactiveRuntime.begin
  rw [found]
  simp only
  rw [first]
  unfold ReactiveRuntime.step
  rw [still, if_neg (by rw [unpoisoned]; exact Bool.false_ne_true)]
  simp only [there]
  rw [place_place]
  exact congrArg (runtime.place id) (Prod.ext (acquired _ _) rfl)

theorem Excused.begin (excused : runtime.Excused caused) (whole : runtime.Whole) (id : Nat)
    {call : FiberCall} (visible : call.visible = true) : (runtime.begin id call).Excused caused := by
  have allows : Allows (.fiber id (.call call) : ReactiveEvent ν) := .call call fun provider same => by
    subst same
    cases visible
  unfold ReactiveRuntime.begin
  split
  · have called := excused.step whole allows (fun _ _ same => by cases same) fun _ _ same => by cases same
    exact called.step (whole.step allows) (.acquire _) (fun _ _ same => by cases same)
      fun _ _ same => by cases same
  · exact excused

theorem Excused.withdrawAndReconcile (excused : runtime.Excused caused) (whole : runtime.Whole)
    (rest : runtime.AtRest) (unpoisoned : runtime.tree.poisoned = false)
    (disposer : Nat → ScopedEffect → Except Text Unit) (capability : Id) (expected : Nat) :
    (runtime.withdrawAndReconcile disposer capability expected).2.Excused caused := by
  rcases runtime.withdrawAndReconcile_cases whole rest unpoisoned disposer capability expected with
    same | ⟨provider, tree, ids, draining, same⟩
  · rw [same]
    exact excused
  · rw [same]
    exact draining.excused (fun id fiber found => excused id fiber found) disposer ids _

end ReactiveRuntime

namespace SerialRuntime

open CapabilityFiber ReactiveRuntime

variable {owner : SerialRuntime ν} {caused : Nat → LoadFailure → Prop}

/-- **What holds of an owner that drops no future**: no fiber has a transition under way but the one that is
awaited, what that one is about to publish resolves now, and a pass that drove nothing has passed over no
fiber that is out of date. -/
structure Steady (owner : SerialRuntime ν) : Prop where
  whole : owner.runtime.Whole
  asked : owner.runtime.Asked
  free : ∀ (id : Nat) (fiber : CapabilityFiber ν), owner.runtime.fibers[id]? = some fiber →
    owner.phase.awaited ≠ some id → fiber.transition = .free
  current : ∀ fiber ∈ owner.runtime.fibers, ∀ call force publication dependencies value,
    fiber.transition = .publishing call force publication dependencies value →
      currentBinding owner.runtime.tree fiber = some (bindingOf dependencies)
  seen : ∀ snapshot report, owner.phase = .reconciling snapshot false report →
    ∀ id ∈ owner.runtime.watched, id ∈ snapshot ∨ owner.runtime.needsReconciliation id = false

theorem Steady.rest (steady : Steady owner) (idle : owner.phase.awaited = none) :
    owner.runtime.AtRest := by
  intro fiber member
  obtain ⟨id, found⟩ := List.mem_iff_getElem?.mp member
  exact steady.free id fiber found (by rw [idle]; exact fun same => by cases same)

/-- An owner that awaits no fiber. -/
theorem steady_of_rest {runtime : ReactiveRuntime ν} (whole : runtime.Whole) (asked : runtime.Asked)
    (rest : runtime.AtRest) {phase : OwnerPhase} (reports : List WithdrawalReport)
    (seen : ∀ snapshot report, phase = .reconciling snapshot false report →
      ∀ id ∈ runtime.watched, id ∈ snapshot ∨ runtime.needsReconciliation id = false) :
    Steady ⟨runtime, phase, reports⟩ := by
  refine ⟨whole, asked, fun id fiber found _ => rest fiber (List.mem_of_getElem? found),
    fun fiber member _ _ _ _ _ publishing => ?_, seen⟩
  rw [rest fiber member] at publishing
  cases publishing

/-- **A call that has answered returns to its owner.** -/
theorem Steady.settle (steady : Steady owner) : Steady owner.settle := by
  have rests {id : Nat} (awaited : owner.phase.awaited = some id)
      (resting : owner.runtime.resting id = true) : owner.runtime.AtRest := by
    intro fiber member
    obtain ⟨other, found⟩ := List.mem_iff_getElem?.mp member
    by_cases here : other = id
    · subst here
      unfold ReactiveRuntime.resting at resting
      rw [found] at resting
      exact of_decide_eq_true resting
    · refine steady.free other fiber found fun same => ?_
      rw [awaited] at same
      exact here (Option.some.inj same).symm
  unfold SerialRuntime.settle
  cases phase : owner.phase with
  | idle => exact steady
  | reconciling snapshot drove report => exact steady
  | calling id =>
    simp only
    split
    · refine steady_of_rest steady.whole steady.asked (rests ?_ ‹_›) _ fun _ _ same => by cases same
      rw [phase]
      rfl
    · exact steady
  | driving id snapshot report =>
    simp only
    split
    · refine steady_of_rest steady.whole steady.asked (rests ?_ ‹_›) _ fun _ _ same => by cases same
      rw [phase]
      rfl
    · exact steady

/-- **A call begins on a fiber**, and is awaited. -/
theorem Steady.begin (steady : Steady owner) (idle : owner.phase.awaited = none)
    (unpoisoned : owner.runtime.tree.poisoned = false) {id : Nat} {call : FiberCall}
    (visible : call.visible = true) {phase : OwnerPhase} (awaits : phase.awaited = some id) :
    Steady { owner with runtime := owner.runtime.begin id call, phase := phase } := by
  have rest := steady.rest idle
  have unseen (snapshot : List Nat) (report : WithdrawalReport) :
      phase ≠ .reconciling snapshot false report := by
    intro same
    rw [same] at awaits
    cases awaits
  cases found : owner.runtime.fibers[id]? with
  | none =>
    have same : owner.runtime.begin id call = owner.runtime := by
      unfold ReactiveRuntime.begin
      rw [found]
    rw [same]
    exact steady_of_rest steady.whole steady.asked rest _ fun _ _ same => absurd same (unseen _ _)
  | some fiber =>
    have whole := steady.whole.begin id visible
    have member := List.mem_of_getElem? found
    have asks := (steady.asked fiber member).begin (steady.whole.intact fiber member).attended
      (rest fiber member) owner.runtime.tree call
    have asked : (owner.runtime.place id (owner.runtime.tree, fiber.begin owner.runtime.tree call)).Asked :=
      steady.asked.place asks
    rw [begin_eq_place unpoisoned found] at whole ⊢
    refine ⟨whole, asked, fun other rival there unawaited => ?_, fun rival there _ _ _ _ _ publishing => ?_,
      fun _ _ same => absurd same (unseen _ _)⟩
    · rcases place_cases there with ⟨rfl, _⟩ | ⟨_, before⟩
      · exact absurd awaits unawaited
      · exact rest rival (List.mem_of_getElem? before)
    · obtain ⟨other, place⟩ := List.mem_iff_getElem?.mp there
      rcases place_cases place with ⟨_, rfl⟩ | ⟨_, before⟩
      · exact absurd publishing
          (begin_unpublishing _ (rest fiber (List.mem_of_getElem? found)) call)
      · rw [rest rival (List.mem_of_getElem? before)] at publishing
        cases publishing

/-- What happens to a fiber while a call runs is an event of a call that runs to its end. -/
theorem whole_of_running {event : FiberEvent ν} (running : event.running = true) : event.Whole :=
  .works (works_of_running running)

/-- **Something happens to the fiber that is awaited.** -/
theorem Steady.event (steady : Steady owner) (unpoisoned : owner.runtime.tree.poisoned = false)
    {id : Nat} (awaits : owner.phase.awaited = some id) {event : FiberEvent ν}
    (running : event.running = true) :
    Steady { owner with runtime := owner.runtime.step (.fiber id event) } := by
  have unseen (snapshot : List Nat) (report : WithdrawalReport) :
      owner.phase ≠ .reconciling snapshot false report := by
    intro same
    rw [same] at awaits
    cases awaits
  have whole : (owner.runtime.step (.fiber id event)).Whole :=
    steady.whole.step (whole_of_running running)
  unfold ReactiveRuntime.step at whole ⊢
  rw [if_neg (by rw [unpoisoned]; exact Bool.false_ne_true)] at whole ⊢
  simp only at whole ⊢
  cases found : owner.runtime.fibers[id]? with
  | none => exact steady
  | some fiber =>
    rw [found] at whole
    have member := List.mem_of_getElem? found
    have asks := (steady.asked fiber member).step
      (steady.whole.intact fiber member).attended.tended.settled owner.runtime.tree running
    have asked : (owner.runtime.place id (fiber.step owner.runtime.tree event)).Asked :=
      steady.asked.place asks
    refine ⟨whole, asked, fun other rival there unawaited => ?_,
      fun rival there _ _ _ _ _ publishing => ?_, fun _ _ same => absurd same (unseen _ _)⟩
    · rcases place_cases there with ⟨rfl, _⟩ | ⟨_, before⟩
      · exact absurd awaits unawaited
      · exact steady.free other rival before unawaited
    · obtain ⟨other, place⟩ := List.mem_iff_getElem?.mp there
      rcases place_cases place with ⟨_, rfl⟩ | ⟨different, before⟩
      · exact publishing_step (steady.whole.intact fiber member) unpoisoned (steady.current fiber member)
          running publishing
      · have unawaited : owner.phase.awaited ≠ some other := by
          rw [awaits]
          exact fun same => different (Option.some.inj same)
        rw [steady.free other rival before unawaited] at publishing
        cases publishing

theorem allows_plain {call : ContextCall ν} (plain : call.plain = true) : Allows (.context call) := by
  rintro scope rfl
  cases plain

/-- **A call of the owner.** -/
theorem Steady.call (steady : Steady owner) (idle : owner.phase = .idle)
    (unpoisoned : owner.runtime.tree.poisoned = false) (call : OwnerCall ν) : Steady (owner.call call) := by
  have unawaited : owner.phase.awaited = none := by
    rw [idle]
    rfl
  have rest := steady.rest unawaited
  have idles {runtime : ReactiveRuntime ν} (whole : runtime.Whole) (asked : runtime.Asked)
      (rest : runtime.AtRest) : Steady { owner with runtime := runtime } :=
    steady_of_rest whole asked rest owner.reports fun snapshot report same => by
      rw [idle] at same
      cases same
  have steps {event : ReactiveEvent ν} (allows : Allows event) (other : ∀ id inner, event ≠ .fiber id inner) :
      Steady { owner with runtime := owner.runtime.step event } :=
    idles (steady.whole.step allows) (steady.asked.step other) (rest.step other)
  cases call with
  | context call =>
    simp only [SerialRuntime.call]
    split
    · exact steps (allows_plain ‹_›) fun _ _ same => by cases same
    · exact steady
  | provide definition construct =>
    exact idles (steady.whole.publish _ _ construct) (steady.asked.publish _ _ construct)
      (rest.publish _ _ construct)
  | replace definition expected construct =>
    exact idles (steady.whole.publish _ _ construct) (steady.asked.publish _ _ construct)
      (rest.publish _ _ construct)
  | withdrawAndReconcile capability expected disposer =>
    obtain ⟨whole, after⟩ := steady.whole.withdrawAndReconcile rest unpoisoned disposer capability expected
    exact idles whole (steady.asked.withdrawAndReconcile steady.whole rest unpoisoned disposer capability
      expected) after
  | instantiate definition context config => exact steps trivial fun _ _ same => by cases same
  | watch id => exact steps trivial fun _ _ same => by cases same
  | drop id => exact steps trivial fun _ _ same => by cases same
  | effect id label =>
    have allows : Allows (.fiber id (.effect label) : ReactiveEvent ν) := FiberEvent.Whole.effect label
    have whole := steady.whole.step allows
    unfold ReactiveRuntime.step at whole
    rw [if_neg (by rw [unpoisoned]; exact Bool.false_ne_true)] at whole
    show Steady { owner with runtime := owner.runtime.step (.fiber id (.effect label)) }
    unfold ReactiveRuntime.step
    rw [if_neg (by rw [unpoisoned]; exact Bool.false_ne_true)]
    simp only at whole ⊢
    cases found : owner.runtime.fibers[id]? with
    | none => exact steady
    | some fiber =>
      rw [found] at whole
      have member := List.mem_of_getElem? found
      obtain ⟨transition, state, requested⟩ := fiber.effect_keeps label
      refine idles whole (steady.asked.place fun same => ?_) fun rival there => ?_
      · show (fiber.effect label).state = .disposed ∨ (fiber.effect label).transition.disposing = true
        rw [state, transition]
        exact steady.asked fiber member (requested.symm.trans same)
      · obtain ⟨other, place⟩ := List.mem_iff_getElem?.mp there
        rcases place_cases place with ⟨_, rfl⟩ | ⟨_, before⟩
        · exact transition.trans (rest fiber member)
        · exact rest rival (List.mem_of_getElem? before)
  | fiber id call =>
    simp only [SerialRuntime.call]
    split
    · exact (steady.begin unawaited unpoisoned ‹_› rfl).settle
    · exact steady
  | reconcile =>
    refine steady_of_rest steady.whole steady.asked rest _ fun snapshot report same id member => .inl ?_
    cases same
    exact mem_snapshotFibers.mpr member

/-- **A step of a reconciliation.** -/
theorem Steady.reconcile (steady : Steady owner) (unpoisoned : owner.runtime.tree.poisoned = false)
    {snapshot : List Nat} {drove : Bool} {report : WithdrawalReport}
    (phase : owner.phase = .reconciling snapshot drove report) :
    Steady (owner.reconcile drove report snapshot) := by
  have unawaited : owner.phase.awaited = none := by
    rw [phase]
    rfl
  have rest := steady.rest unawaited
  cases snapshot with
  | nil =>
    simp only [SerialRuntime.reconcile]
    split
    · refine steady_of_rest steady.whole steady.asked rest _ fun snapshot report same id member => .inl ?_
      cases same
      exact mem_snapshotFibers.mpr member
    · exact steady_of_rest steady.whole steady.asked rest _ fun _ _ same => by cases same
  | cons id others =>
    simp only [SerialRuntime.reconcile]
    split
    · exact (steady.begin unawaited unpoisoned rfl rfl).settle
    · rename_i fresh
      refine steady_of_rest steady.whole steady.asked rest _ fun snapshot seen same other member => ?_
      cases same
      rcases steady.seen _ _ phase other member with inside | checked
      · rcases List.mem_cons.mp inside with rfl | later
        · exact .inr (Bool.eq_false_iff.mpr fresh)
        · exact .inl later
      · exact .inr checked

/-- **Whatever happens keeps an owner steady** that drops no future. -/
theorem Steady.step (steady : Steady owner) {event : OwnerEvent ν} (kept : event.kept = true) :
    Steady (owner.step event) := by
  have works {id : Nat} (awaits : owner.phase.awaited = some id) (inner : FiberEvent ν)
      (unpoisoned : owner.runtime.tree.poisoned = false) : Steady (owner.work id inner) := by
    unfold work
    split
    · exact (steady.event unpoisoned awaits ‹_›).settle
    · exact steady
  unfold SerialRuntime.step
  split
  · exact steady
  rename_i unpoisoned
  have unpoisoned := Bool.eq_false_iff.mpr unpoisoned
  split
  · exact steady.call ‹_› unpoisoned _
  · exact steady.reconcile unpoisoned ‹_›
  · rename_i phase
    exact works (by rw [phase]; rfl) _ unpoisoned
  · rename_i phase
    exact works (by rw [phase]; rfl) _ unpoisoned
  · cases kept
  · cases kept
  · exact steady

theorem Steady.run (steady : Steady owner) {events : List (OwnerEvent ν)}
    (kept : ∀ event ∈ events, event.kept = true) : Steady (owner.run events) := by
  induction events generalizing owner with
  | nil => exact steady
  | cons event rest ih =>
    obtain ⟨first, others⟩ := List.forall_mem_cons.mp kept
    exact ih (steady.step first) others

/-! ### Why a fiber failed in a run -/

theorem settle_runtime (owner : SerialRuntime ν) : owner.settle.runtime = owner.runtime := by
  unfold SerialRuntime.settle
  split
  · split
    · rfl
    · rfl
  · split
    · rfl
    · rfl
  · rfl

/-- **Whatever happens leaves every failed fiber a cause.** -/
theorem Steady.excused (steady : Steady owner) (excused : owner.runtime.Excused caused)
    {event : OwnerEvent ν} (kept : event.kept = true)
    (fails : ∀ id reason, event = .fiber (.returned (.error reason)) → owner.phase.awaited = some id →
      caused id (.factory reason))
    (refuses : ∀ id error, owner.runtime.tree.poisoned = false → owner.runtime.Refuses id error →
      caused id (.refused error)) : (owner.step event).runtime.Excused caused := by
  have steps {inner : ReactiveEvent ν} (allows : Allows inner) (other : ∀ id event, inner ≠ .fiber id event) :
      (owner.runtime.step inner).Excused caused :=
    excused.step steady.whole allows (fun _ _ same => absurd same (other _ _))
      fun _ _ same => absurd same (other _ _)
  have works {id : Nat} (awaits : owner.phase.awaited = some id) (inner : FiberEvent ν)
      (same : event = .fiber inner) (unpoisoned : owner.runtime.tree.poisoned = false) :
      (owner.work id inner).runtime.Excused caused := by
    unfold work
    split
    · rw [settle_runtime]
      refine excused.step steady.whole (whole_of_running ‹_›) (fun other reason equal => ?_)
        fun other error _ => refuses other error unpoisoned
      cases equal
      exact fails id reason same awaits
    · exact excused
  unfold SerialRuntime.step
  split
  · exact excused
  rename_i unpoisoned
  have unpoisoned := Bool.eq_false_iff.mpr unpoisoned
  split
  · rename_i call idle
    have rest : owner.runtime.AtRest := steady.rest (by rw [idle]; rfl)
    cases call with
    | context call =>
      simp only [SerialRuntime.call]
      split
      · exact steps (allows_plain ‹_›) fun _ _ same => by cases same
      · exact excused
    | provide definition construct => exact excused.publish steady.whole _ _ construct
    | replace definition expected construct => exact excused.publish steady.whole _ _ construct
    | withdrawAndReconcile capability expected disposer =>
      exact excused.withdrawAndReconcile steady.whole rest unpoisoned disposer capability expected
    | instantiate definition context config => exact steps trivial fun _ _ same => by cases same
    | watch id => exact steps trivial fun _ _ same => by cases same
    | drop id => exact steps trivial fun _ _ same => by cases same
    | effect id label =>
      refine excused.step steady.whole (.effect label) (fun _ _ same => ?_) fun _ _ same => ?_
      · cases same
      · cases same
    | fiber id call =>
      simp only [SerialRuntime.call]
      split
      · rw [settle_runtime]
        exact excused.begin steady.whole id ‹_›
      · exact excused
    | reconcile => exact excused
  · rename_i snapshot drove report _
    cases snapshot with
    | nil =>
      simp only [SerialRuntime.reconcile]
      split
      · exact excused
      · exact excused
    | cons id others =>
      simp only [SerialRuntime.reconcile]
      split
      · rw [settle_runtime]
        exact excused.begin steady.whole id rfl
      · exact excused
  · rename_i phase
    exact works (by rw [phase]; rfl) _ rfl unpoisoned
  · rename_i phase
    exact works (by rw [phase]; rfl) _ rfl unpoisoned
  · cases kept
  · cases kept
  · exact excused

/-- **Why a load failed in a run**: at some point its factory failed, or its publication was refused. -/
def Caused (start : SerialRuntime ν) (events : List (OwnerEvent ν)) (id : Nat) : LoadFailure → Prop
  | .factory reason => ∃ front back, events = front ++ .fiber (.returned (.error reason)) :: back ∧
      (start.run front).phase.awaited = some id
  | .refused error => ∃ front back, events = front ++ back ∧
      (start.run front).runtime.tree.poisoned = false ∧ (start.run front).runtime.Refuses id error

theorem Caused.push {start : SerialRuntime ν} {events : List (OwnerEvent ν)} {id : Nat}
    {cause : LoadFailure} (because : Caused start events id cause) (event : OwnerEvent ν) :
    Caused start (events ++ [event]) id cause := by
  cases cause with
  | factory reason =>
    obtain ⟨front, back, rfl, awaits⟩ := because
    exact ⟨front, back ++ [event], by rw [List.append_assoc, List.cons_append], awaits⟩
  | refused error =>
    obtain ⟨front, back, rfl, unpoisoned, refuses⟩ := because
    exact ⟨front, back ++ [event], by rw [List.append_assoc], unpoisoned, refuses⟩

/-- **A fiber that failed in a run has a cause there.** -/
theorem Steady.excused_run {start : SerialRuntime ν} (steady : Steady start)
    (bare : start.runtime.fibers = []) {events : List (OwnerEvent ν)}
    (kept : ∀ event ∈ events, event.kept = true) :
    (start.run events).runtime.Excused (Caused start events) := by
  induction events using List.reverseRecOn with
  | nil =>
    intro id fiber found
    have found : start.runtime.fibers[id]? = some fiber := found
    rw [bare] at found
    cases found
  | append_singleton events event ih =>
    have before : ∀ event ∈ events, event.kept = true := fun one member =>
      kept one (List.mem_append_left _ member)
    have now : event.kept = true := kept event (List.mem_append_right _ (List.mem_singleton_self _))
    unfold SerialRuntime.run
    rw [List.foldl_append]
    refine (steady.run before).excused ((ih before).imp fun _ _ because => because.push event) now
      (fun id reason same awaits => ?_) fun id error unpoisoned refuses => ?_
    · subst same
      exact ⟨events, [], rfl, awaits⟩
    · exact ⟨events, [event], rfl, unpoisoned, refuses⟩

end SerialRuntime

end Kernis
