/-
**A fiber whose calls run to their ends.**

* `Excuses` — a failed fiber has a cause: its factory, or the refusal of its publication.
* `Asks` — a fiber whose disposal was asked for is disposed of, or its disposal is under way.
* `publishing_step` — what is about to be published resolves now.
-/

import Kernis.Capability.Serial

namespace Kernis

open Std

variable {ν : Type}

/-! ### Why a fiber failed -/

namespace CapabilityFiber

variable {fiber next : CapabilityFiber ν} {tree : ScopeTree ν} {caused : LoadFailure → Prop}

/-- **A failed fiber has a cause**, and so has a load that is discarded because it failed. -/
structure Excuses (caused : LoadFailure → Prop) (fiber : CapabilityFiber ν) : Prop where
  failed : fiber.state = .failed → ∃ cause, fiber.error = some cause ∧ caused cause
  factory : ∀ call force reason effects errors,
    fiber.transition = .cleaning call force (.failed reason) effects errors → caused (.factory reason)
  refused : ∀ call force error effects errors,
    fiber.transition = .cleaning call force (.refused error) effects errors → caused (.refused error)

theorem excuses_new (definition : PluginDefinition) (context : List ContextState) (config : Text) :
    Excuses caused (CapabilityFiber.new definition context config : CapabilityFiber ν) :=
  ⟨(fun same => by cases same), (fun _ _ _ _ _ same => by cases same), fun _ _ _ _ _ same => by cases same⟩

theorem Excuses.imp {later : LoadFailure → Prop} (excuses : Excuses caused fiber)
    (grows : ∀ cause, caused cause → later cause) : Excuses later fiber := by
  refine ⟨fun failed => ?_, fun _ _ _ _ _ same => grows _ (excuses.factory _ _ _ _ _ same),
    fun _ _ _ _ _ same => grows _ (excuses.refused _ _ _ _ _ same)⟩
  obtain ⟨cause, same, because⟩ := excuses.failed failed
  exact ⟨cause, same, grows cause because⟩

/-- A change that neither fails the fiber nor begins to discard a load. -/
theorem Excuses.of (excuses : Excuses caused fiber)
    (state : next.state = .failed → fiber.state = .failed ∧ next.error = fiber.error)
    (transition : ∀ call force purpose effects errors,
      next.transition = .cleaning call force purpose effects errors →
        (∀ reason, purpose ≠ .failed reason) ∧ (∀ error, purpose ≠ .refused error) ∨
          ∃ others more, fiber.transition = .cleaning call force purpose others more) :
    Excuses caused next := by
  refine ⟨fun failed => ?_, fun call force reason effects errors same => ?_,
    fun call force error effects errors same => ?_⟩
  · obtain ⟨before, kept⟩ := state failed
    rw [kept]
    exact excuses.failed before
  · rcases transition call force _ effects errors same with ⟨other, _⟩ | ⟨others, more, before⟩
    · exact absurd rfl (other reason)
    · exact excuses.factory _ _ _ _ _ before
  · rcases transition call force _ effects errors same with ⟨_, other⟩ | ⟨others, more, before⟩
    · exact absurd rfl (other error)
    · exact excuses.refused _ _ _ _ _ before

/-- A change that leaves the fiber where it stands. -/
theorem Excuses.still (excuses : Excuses caused fiber) (state : next.state = fiber.state)
    (error : next.error = fiber.error) (transition : next.transition = fiber.transition) :
    Excuses caused next :=
  excuses.of (fun failed => ⟨state ▸ failed, error⟩)
    fun _ _ _ effects errors same => .inr ⟨effects, errors, transition ▸ same⟩

/-- A change that takes the lock or releases it. -/
theorem Excuses.moves (excuses : Excuses caused fiber)
    (state : next.state = .failed → fiber.state = .failed ∧ next.error = fiber.error)
    (uncleaned : ∀ call force purpose effects errors,
      next.transition ≠ .cleaning call force purpose effects errors) : Excuses caused next :=
  excuses.of state fun _ _ _ _ _ same => absurd same (uncleaned _ _ _ _ _)

/-- A cleanup for another reason. -/
theorem Excuses.clean (excuses : Excuses caused fiber) (next : CapabilityFiber ν)
    (state : next.state = .failed → fiber.state = .failed ∧ next.error = fiber.error) (call : FiberCall)
    (force : Bool) {purpose : Cleanup} (loaded : ∀ reason, purpose ≠ .failed reason)
    (admitted : ∀ error, purpose ≠ .refused error) : Excuses caused (next.clean call force purpose) := by
  refine excuses.of state fun _ _ _ _ _ same => .inl ?_
  cases same
  exact ⟨loaded, admitted⟩

theorem Excuses.unload (excuses : Excuses caused fiber) (call : FiberCall) (force : Bool) {purpose : Cleanup}
    (loaded : ∀ reason, purpose ≠ .failed reason) (admitted : ∀ error, purpose ≠ .refused error) :
    Excuses caused (fiber.unload call force purpose) :=
  excuses.clean { fiber with state := .unloading } (fun same => by cases same) call force loaded admitted

theorem Excuses.request (excuses : Excuses caused fiber) (call : FiberCall) :
    Excuses caused (fiber.request call) := by
  cases call with
  | restart =>
    simp only [CapabilityFiber.request]
    split
    · exact excuses.still rfl rfl rfl
    · exact excuses.still rfl rfl rfl
  | update config =>
    simp only [CapabilityFiber.request]
    split
    · exact excuses.still rfl rfl rfl
    · split
      · exact excuses.still rfl rfl rfl
      · exact excuses.still rfl rfl rfl
  | _ => exact excuses.still rfl rfl rfl

theorem Excuses.startDrive (excuses : Excuses caused fiber) (call : FiberCall) (force : Bool) :
    Excuses caused (fiber.startDrive call force) := by
  have moves {next : CapabilityFiber ν} (state : next.state = fiber.state) (error : next.error = fiber.error)
      (uncleaned : ∀ call force purpose effects errors,
        next.transition ≠ .cleaning call force purpose effects errors) : Excuses caused next :=
    excuses.moves (fun failed => ⟨state ▸ failed, error⟩) uncleaned
  unfold CapabilityFiber.startDrive
  split
  · exact moves rfl rfl fun _ _ _ _ _ same => by cases same
  · split
    · exact moves rfl rfl fun _ _ _ _ _ same => by cases same
    · exact moves rfl rfl fun _ _ _ _ _ same => by cases same

theorem Excuses.acquire (excuses : Excuses caused fiber) (call : FiberCall) :
    Excuses caused (fiber.acquire call) := by
  have replies (answer : FiberAnswer) : Excuses caused (fiber.reply call answer) :=
    excuses.moves (fun failed => ⟨failed, rfl⟩) fun _ _ _ _ _ same => by cases same
  cases call with
  | start => exact excuses.startDrive _ _
  | restart => exact excuses.startDrive _ _
  | update config => exact excuses.startDrive _ _
  | deactivateForWithdrawal detached =>
    simp only [CapabilityFiber.acquire]
    split
    · exact excuses.unload _ _ (fun _ same => by cases same) fun _ same => by cases same
    · exact replies _
  | dispose =>
    simp only [CapabilityFiber.acquire]
    split
    · exact replies _
    · exact excuses.unload _ _ (fun _ same => by cases same) fun _ same => by cases same

theorem Excuses.drive (excuses : Excuses caused fiber) (tree : ScopeTree ν) (call : FiberCall)
    (force : Bool) : Excuses caused (drive tree fiber call force).2 := by
  have replies (answer : FiberAnswer) : Excuses caused (fiber.reply call answer) :=
    excuses.moves (fun failed => ⟨failed, rfl⟩) fun _ _ _ _ _ same => by cases same
  unfold CapabilityFiber.drive
  split
  · simp only
    split
    · exact excuses.unload _ _ (fun _ same => by cases same) fun _ same => by cases same
    · exact excuses.moves (fun same => by cases same) fun _ _ _ _ _ same => by cases same
  · split
    · exact replies _
    · split
      · exact excuses.unload _ _ (fun _ same => by cases same) fun _ same => by cases same
      · split
        · exact replies _
        · exact excuses.moves (fun same => by cases same) fun _ _ _ _ _ same => by cases same

theorem Excuses.returned (excuses : Excuses caused fiber) (kept : Kept fiber) {call : FiberCall}
    {force : Bool} {publication : Nat} {dependencies : ResolvedDependencies ν}
    (loading : fiber.transition = .loading call force publication dependencies) (tree : ScopeTree ν)
    (result : Except Text ν) (fails : ∀ reason, result = .error reason → caused (.factory reason)) :
    Excuses caused (returned tree fiber call force publication dependencies result).2 := by
  have state : fiber.state = .loading := by
    have poised := kept.poised
    unfold Poised at poised
    rw [loading] at poised
    exact poised
  have unfailed : fiber.state ≠ .failed := by
    rw [state]
    exact fun same => by cases same
  unfold CapabilityFiber.returned
  simp only
  split
  · split
    · exact excuses.clean fiber (fun failed => ⟨failed, rfl⟩) _ _ (fun _ same => by cases same)
        fun _ same => by cases same
    · exact excuses.moves (fun failed => ⟨failed, rfl⟩) fun _ _ _ _ _ same => by cases same
  · rename_i reason
    split
    · exact excuses.clean fiber (fun failed => ⟨failed, rfl⟩) _ _ (fun _ same => by cases same)
        fun _ same => by cases same
    · refine ⟨fun failed => absurd failed unfailed, fun _ _ _ _ _ same => ?_, fun _ _ _ _ _ same => ?_⟩
      · cases same
        exact fails reason rfl
      · cases same

theorem Excuses.publish (excuses : Excuses caused fiber) (kept : Kept fiber) {call : FiberCall}
    {force : Bool} {publication : Nat} {dependencies : ResolvedDependencies ν} {value : ν}
    (publishing : fiber.transition = .publishing call force publication dependencies value)
    (tree : ScopeTree ν) (refuses : ∀ error,
      (tree.step (.constructed publication (.ok value))).1 = .failed error → caused (.refused error)) :
    Excuses caused (publish tree fiber call force publication dependencies value).2 := by
  have unfailed : fiber.state ≠ .failed := by
    have poised := kept.poised
    unfold Poised at poised
    rw [publishing] at poised
    rw [show fiber.state = .loading from poised]
    exact fun same => by cases same
  unfold CapabilityFiber.publish
  split
  · exact excuses.moves (fun same => by cases same) fun _ _ _ _ _ same => by cases same
  · exact excuses.clean fiber (fun failed => ⟨failed, rfl⟩) _ _ (fun _ same => by cases same)
      fun _ same => by cases same
  · rename_i error _ _ answered
    refine ⟨fun failed => absurd failed unfailed, fun _ _ _ _ _ same => ?_, fun _ _ _ _ _ same => ?_⟩
    · cases same
    · cases same
      exact refuses error (congrArg Prod.fst answered)
  · exact excuses

theorem Excuses.finish (excuses : Excuses caused fiber) (kept : Kept fiber) {call : FiberCall}
    {force : Bool} {purpose : Cleanup} {errors : List EffectError}
    (cleaning : fiber.transition = .cleaning call force purpose [] errors) (tree : ScopeTree ν) :
    Excuses caused (finish tree fiber call force errors purpose).2 := by
  have poised := kept.poised
  unfold Poised at poised
  rw [cleaning] at poised
  have moves {next : CapabilityFiber ν} (state : next.state ≠ .failed)
      (uncleaned : ∀ call force purpose effects errors,
        next.transition ≠ .cleaning call force purpose effects errors) : Excuses caused next :=
    excuses.moves (fun failed => absurd failed state) uncleaned
  have agains {next : CapabilityFiber ν} (state : next.state ≠ .failed) :
      Excuses caused (next.again call force .pending) := by
    unfold again
    split
    · exact moves state fun _ _ _ _ _ same => by cases same
    · exact moves (fun same => by cases same) fun _ _ _ _ _ same => by cases same
  cases purpose with
  | reload =>
    obtain ⟨binding, effects, _, same⟩ := unloaded_eq tree fiber none errors
    simp only [CapabilityFiber.finish]
    rw [same]
    exact agains fun same => by cases same
  | missing =>
    obtain ⟨binding, effects, _, same⟩ := unloaded_eq tree fiber none errors
    simp only [CapabilityFiber.finish]
    rw [same]
    exact moves (fun same => by cases same) fun _ _ _ _ _ same => by cases same
  | withdrawal detached =>
    obtain ⟨binding, effects, _, same⟩ := unloaded_eq tree fiber detached errors
    simp only [CapabilityFiber.finish]
    rw [same]
    exact moves (fun same => by cases same) fun _ _ _ _ _ same => by cases same
  | disposal =>
    obtain ⟨binding, effects, _, same⟩ := unloaded_eq tree fiber none errors
    simp only [CapabilityFiber.finish]
    rw [same]
    exact moves (fun same => by cases same) fun _ _ _ _ _ same => by cases same
  | changed => exact moves (fun same => by cases same) fun _ _ _ _ _ same => by cases same
  | refused error =>
    refine ⟨fun _ => ⟨.refused error, rfl, excuses.refused _ _ _ _ _ cleaning⟩,
      fun _ _ _ _ _ same => ?_, fun _ _ _ _ _ same => ?_⟩
    · cases same
    · cases same
  | staleValue =>
    refine agains ?_
    show fiber.state ≠ .failed
    rw [show fiber.state = .loading from poised]
    exact fun same => by cases same
  | staleError =>
    refine agains ?_
    show (if fiber.disposeRequested then FiberState.disposed else fiber.state) ≠ .failed
    rw [show fiber.state = .loading from poised]
    split
    · exact fun same => by cases same
    · exact fun same => by cases same
  | failed reason =>
    refine ⟨fun _ => ⟨.factory reason, rfl, excuses.factory _ _ _ _ _ cleaning⟩,
      fun _ _ _ _ _ same => ?_, fun _ _ _ _ _ same => ?_⟩
    · cases same
    · cases same

/-- **An event of a fiber**: what fails it is a cause. -/
theorem Excuses.step (excuses : Excuses caused fiber) (kept : Kept fiber) (tree : ScopeTree ν)
    {event : FiberEvent ν} (whole : event.Whole)
    (fails : ∀ reason, event = .returned (.error reason) → caused (.factory reason))
    (refuses : ∀ call force publication dependencies value error, event = .go →
      fiber.transition = .publishing call force publication dependencies value →
        (tree.step (.constructed publication (.ok value))).1 = .failed error → caused (.refused error)) :
    Excuses caused (fiber.step tree event).2 := by
  have registers (stack : Nat) (label : Text) : Excuses caused (fiber.register stack label) := by
    unfold CapabilityFiber.register
    split
    · exact excuses.still rfl rfl rfl
    · exact excuses
  cases whole with
  | call call attached => exact excuses.request call
  | acquire index =>
    simp only [CapabilityFiber.step]
    split
    · have taken : Excuses caused { fiber with waiting := fiber.waiting.set index none } :=
        excuses.still rfl rfl rfl
      exact taken.acquire _
    · exact excuses
  | effect label =>
    simp only [CapabilityFiber.step, CapabilityFiber.effect]
    split
    · exact registers _ label
    · exact excuses
  | works works =>
    cases works with
    | go =>
      simp only [CapabilityFiber.step]
      split
      · exact excuses.drive tree _ _
      · exact excuses.publish kept ‹_› tree fun error => refuses _ _ _ _ _ error rfl ‹_›
      · exact excuses.finish kept ‹_› tree
      · exact excuses
    | returned result =>
      simp only [CapabilityFiber.step]
      split
      · exact excuses.returned kept ‹_› tree result fun reason same => fails reason (congrArg _ same)
      · exact excuses
    | cleaned result =>
      simp only [CapabilityFiber.step]
      split
      · rename_i call force purpose effect rest errors cleaning
        refine excuses.of (fun failed => ⟨failed, rfl⟩) fun _ _ _ _ _ same => .inr ?_
        cases same
        exact ⟨_, _, cleaning⟩
      · exact excuses
    | register stack label => exact registers stack label

/-- A deactivation fails nothing. -/
theorem Deactivates.excuses {detached : Option ProviderIdentity} {after : ScopeTree ν × CapabilityFiber ν}
    (deactivates : Deactivates tree fiber detached after) (excuses : Excuses caused fiber) :
    Excuses caused after.2 := by
  refine excuses.moves (fun failed => ?_) fun _ _ _ _ _ same => ?_
  · rcases deactivates.ends with ⟨_, state, _, _, error⟩ | ⟨_, _, state, _⟩
    · exact ⟨state ▸ failed, error⟩
    · rw [state] at failed
      cases failed
  · rw [deactivates.free] at same
    cases same

/-! ### Disposals -/

/-- **A fiber whose disposal was asked for** is disposed of, or its disposal is under way. -/
def Asks (fiber : CapabilityFiber ν) : Prop :=
  fiber.disposeRequested = true → fiber.state = .disposed ∨ fiber.transition.disposing = true

theorem asks_new (definition : PluginDefinition) (context : List ContextState) (config : Text) :
    Asks (CapabilityFiber.new definition context config : CapabilityFiber ν) := fun same => by cases same

/-- A fiber at rest whose disposal was asked for is disposed of. -/
theorem Asks.disposed (asks : Asks fiber) (free : fiber.transition = .free)
    (requested : fiber.disposeRequested = true) : fiber.state = .disposed := by
  refine (asks requested).resolve_right fun disposing => ?_
  rw [free] at disposing
  cases disposing

/-- What happens to a fiber while a call runs is what its holder does. -/
theorem works_of_running {event : FiberEvent ν} (running : event.running = true) : event.Works := by
  cases event with
  | go => exact .go
  | returned result => exact .returned result
  | cleaned result => exact .cleaned result
  | register stack label => exact .register stack label
  | _ => cases running

theorem Asks.step (asks : Asks fiber) (settled : Settled fiber) (tree : ScopeTree ν) {event : FiberEvent ν}
    (running : event.running = true) : Asks (fiber.step tree event).2 := by
  have works := works_of_running running
  intro requested
  rw [(goes_step fiber tree works).asked] at requested
  have concludes := concludes_step settled tree (.works works)
  generalize (fiber.step tree event).2 = next at concludes ⊢
  cases concludes with
  | goes before after listed disposing epoch =>
    exact .inr (disposing.trans ((asks requested).resolve_left before))
  | begins => cases works
  | disposes disposing errors after => exact .inl after
  | strays cleaning after => exact .inl after
  | rests before after => exact .inl after
  | repeats => cases works

/-- Only a disposal asks for one. -/
theorem request_asked (fiber : CapabilityFiber ν) {call : FiberCall} (other : call ≠ .dispose) :
    (fiber.request call).disposeRequested = fiber.disposeRequested := by
  cases call with
  | restart =>
    simp only [request]
    split
    · rfl
    · rfl
  | update config =>
    simp only [request]
    split
    · rfl
    · split
      · rfl
      · rfl
  | dispose => exact absurd rfl other
  | _ => rfl

theorem acquire_asked (fiber : CapabilityFiber ν) (call : FiberCall) :
    (fiber.acquire call).disposeRequested = fiber.disposeRequested := by
  have starts (call : FiberCall) (force : Bool) :
      (fiber.startDrive call force).disposeRequested = fiber.disposeRequested := by
    unfold startDrive
    split
    · rfl
    · split
      · rfl
      · rfl
  cases call with
  | start => exact starts _ _
  | restart => exact starts _ _
  | update config => exact starts _ _
  | deactivateForWithdrawal detached =>
    simp only [acquire]
    split
    · rfl
    · rfl
  | dispose =>
    simp only [acquire]
    split
    · rfl
    · rfl

/-- **A call begins on a fiber at rest.** -/
theorem Asks.begin (asks : Asks fiber) (attended : Attended fiber) (free : fiber.transition = .free)
    (tree : ScopeTree ν) (call : FiberCall) : Asks (fiber.begin tree call) := by
  have stays (disposed : fiber.state = .disposed) : (fiber.begin tree call).state = .disposed :=
    (concludes_step (attended.called tree call).tended.settled tree (.acquire _)).disposed
      ((concludes_request fiber call).disposed disposed)
  by_cases disposal : call = .dispose
  · subst disposal
    by_cases disposed : fiber.state = .disposed
    · exact fun _ => .inl (stays disposed)
    · rw [begin_dispose tree free disposed]
      exact fun _ => .inr rfl
  · intro requested
    have same : (fiber.begin tree call).disposeRequested = fiber.disposeRequested := by
      unfold CapabilityFiber.begin
      simp only [CapabilityFiber.step]
      split
      · exact (acquire_asked _ _).trans (request_asked fiber disposal)
      · exact request_asked fiber disposal
    exact .inl (stays (asks.disposed free (same.symm.trans requested)))

/-- An effect that is registered leaves a fiber where it stands. -/
theorem effect_keeps (fiber : CapabilityFiber ν) (label : Text) :
    (fiber.effect label).transition = fiber.transition ∧ (fiber.effect label).state = fiber.state ∧
      (fiber.effect label).disposeRequested = fiber.disposeRequested := by
  unfold CapabilityFiber.effect
  split
  · unfold register
    split
    · exact ⟨rfl, rfl, rfl⟩
    · exact ⟨rfl, rfl, rfl⟩
  · exact ⟨rfl, rfl, rfl⟩

theorem Deactivates.asks {detached : Option ProviderIdentity} {after : ScopeTree ν × CapabilityFiber ν}
    (deactivates : Deactivates tree fiber detached after) (asks : Asks fiber)
    (free : fiber.transition = .free) : Asks after.2 := by
  intro requested
  have disposed := asks.disposed free (deactivates.asked.symm.trans requested)
  rcases deactivates.ends with ⟨_, state, _⟩ | ⟨loaded, _⟩
  · exact .inl (state.trans disposed)
  · rcases loaded with active | failed
    · rw [active] at disposed
      cases disposed
    · rw [failed] at disposed
      cases disposed

/-! ### What is published -/

/-- What a fiber is bound to now depends on its context, on what it requires and on the scopes. -/
theorem currentBinding_congr {later : ScopeTree ν} (topology : later.topology = tree.topology)
    (context : next.context = fiber.context) (definition : next.definition = fiber.definition) :
    currentBinding later next = currentBinding tree fiber := by
  unfold currentBinding
  rw [topology, context, definition]

/-- A step at the head of the loop publishes nothing. -/
theorem drive_unpublishing (tree : ScopeTree ν) (fiber : CapabilityFiber ν) (call : FiberCall)
    (force : Bool) {other : FiberCall} {forced : Bool} {publication : Nat}
    {dependencies : ResolvedDependencies ν} {value : ν} : (drive tree fiber call force).2.transition ≠
      .publishing other forced publication dependencies value := by
  unfold drive
  split
  · simp only
    split
    · exact fun same => by cases same
    · exact fun same => by cases same
  · split
    · exact fun same => by cases same
    · split
      · exact fun same => by cases same
      · split
        · exact fun same => by cases same
        · exact fun same => by cases same

/-- The end of a cleanup publishes nothing. -/
theorem finish_unpublishing (tree : ScopeTree ν) (fiber : CapabilityFiber ν) (call : FiberCall)
    (force : Bool) (errors : List EffectError) (purpose : Cleanup) {other : FiberCall} {forced : Bool}
    {publication : Nat} {dependencies : ResolvedDependencies ν} {value : ν} :
    (finish tree fiber call force errors purpose).2.transition ≠
      .publishing other forced publication dependencies value := by
  have agains (next : CapabilityFiber ν) : (next.again call force .pending).transition ≠
      .publishing other forced publication dependencies value := by
    unfold again
    split
    · exact fun same => by cases same
    · exact fun same => by cases same
  cases purpose with
  | reload => exact agains _
  | staleValue => exact agains _
  | staleError => exact agains _
  | _ => exact fun same => by cases same

/-- **What is about to be published resolves now**: it was resolved when its load began, and compared when
the factory returned. -/
theorem publishing_step (intact : FiberSystem.Intact ⟨tree, fiber⟩) (unpoisoned : tree.poisoned = false)
    (before : ∀ call force publication dependencies value,
      fiber.transition = .publishing call force publication dependencies value →
        currentBinding tree fiber = some (bindingOf dependencies))
    {event : FiberEvent ν} (running : event.running = true) {call : FiberCall} {force : Bool}
    {publication : Nat} {dependencies : ResolvedDependencies ν} {value : ν}
    (publishing : (fiber.step tree event).2.transition =
      .publishing call force publication dependencies value) :
    currentBinding (fiber.step tree event).1 (fiber.step tree event).2 =
      some (bindingOf dependencies) := by
  cases event with
  | go =>
    simp only [step] at publishing ⊢
    split at publishing
    · exact absurd publishing (drive_unpublishing tree fiber _ _)
    · rename_i other forced number others worth here
      have loads : fiber.loads = some (number, others) := by
        unfold loads
        rw [here]
      have found := (intact.owns.begun number others loads).resolve_left
        (by rw [unpoisoned]; exact Bool.false_ne_true)
      have comes := ScopeTree.loaded found rfl intact.owns.live worth
      unfold CapabilityFiber.publish at publishing ⊢
      generalize tree.step (.constructed number (.ok worth)) = answer at comes publishing ⊢
      cases comes with
      | refused error =>
        cases error with
        | dependencyChanged capability dependency => cases publishing
        | _ => cases publishing
      | panicked same poisoned =>
        rw [currentBinding_congr same rfl rfl]
        exact before _ _ _ _ _ publishing
      | published generation => cases publishing
    · exact absurd publishing (finish_unpublishing tree fiber _ _ _ _)
    · exact before _ _ _ _ _ publishing
  | returned result =>
    simp only [step] at publishing ⊢
    split at publishing
    · unfold CapabilityFiber.returned at publishing ⊢
      simp only at publishing ⊢
      split at publishing
      · split at publishing
        · cases publishing
        · rename_i fresh
          cases publishing
          rw [if_neg fresh]
          by_contra other
          exact fresh (Bool.or_eq_true_iff.mpr (.inr (decide_eq_true other)))
      · cases publishing
    · exact before _ _ _ _ _ publishing
  | cleaned result =>
    simp only [step] at publishing ⊢
    split at publishing
    · cases publishing
    · exact before _ _ _ _ _ publishing
  | register stack label =>
    simp only [step, register] at publishing ⊢
    split at publishing
    · exact before _ _ _ _ _ publishing
    · exact before _ _ _ _ _ publishing
  | _ => cases running

/-- A call that begins publishes nothing. -/
theorem begin_unpublishing (tree : ScopeTree ν) (free : fiber.transition = .free) (call : FiberCall)
    {other : FiberCall} {forced : Bool} {publication : Nat} {dependencies : ResolvedDependencies ν}
    {value : ν} :
    (fiber.begin tree call).transition ≠ .publishing other forced publication dependencies value := by
  have starts (fiber : CapabilityFiber ν) (call : FiberCall) (force : Bool) :
      (fiber.startDrive call force).transition ≠
        .publishing other forced publication dependencies value := by
    unfold startDrive
    split
    · exact fun same => by cases same
    · split
      · exact fun same => by cases same
      · exact fun same => by cases same
  have requested : (fiber.request call).transition = .free := by
    cases call with
    | restart =>
      simp only [request]
      split
      · exact free
      · exact free
    | update config =>
      simp only [request]
      split
      · exact free
      · split
        · exact free
        · exact free
    | _ => exact free
  unfold begin
  simp only [step]
  split
  · rename_i taken _ _
    cases taken with
    | start => exact starts _ _ _
    | restart => exact starts _ _ _
    | update config => exact starts _ _ _
    | deactivateForWithdrawal detached =>
      simp only [acquire]
      split
      · exact fun same => by cases same
      · exact fun same => by cases same
    | dispose =>
      simp only [acquire]
      split
      · exact fun same => by cases same
      · exact fun same => by cases same
  · rw [requested]
    exact fun same => by cases same

end CapabilityFiber

end Kernis
