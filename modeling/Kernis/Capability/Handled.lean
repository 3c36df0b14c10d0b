/-
**What an event of a fiber does to what it publishes.**

* `Handles` — the six ways: nothing, a load that begins, one that ends or gets stuck, a publication, and an
  unload; `handles_step`.
* `FiberCalls` — the calls that a fiber makes on the scopes.
* `Bound` — a fiber is bound to what its publication was resolved with; `Bound.call`, `Bound.handles`.
-/

import Kernis.Capability.Owns

namespace Kernis

open Std

namespace CapabilityFiber

variable {ν : Type} {fiber next : CapabilityFiber ν} {tree : ScopeTree ν}

/-! ### One event -/

/-- A fiber keeps its context and what it publishes there. -/
structure Kin (fiber next : CapabilityFiber ν) : Prop where
  context : next.context = fiber.context
  definition : next.definition = fiber.definition

/-- A fiber keeps its publication. -/
structure Same (fiber next : CapabilityFiber ν) : Prop extends Kin fiber next where
  handle : next.handle = fiber.handle
  epoch : next.dependencyEpoch = fiber.dependencyEpoch

/-- **What one event of a fiber does** to the scopes and to its publication. -/
inductive Handles (tree : ScopeTree ν) (fiber : CapabilityFiber ν) :
    ScopeTree ν × CapabilityFiber ν → Prop
  | stays {next : CapabilityFiber ν} (same : Same fiber next)
      (loads : next.loads = none ∨ next.loads = fiber.loads) : Handles tree fiber (tree, next)
  | begins {next : CapabilityFiber ν} {dependencies : ResolvedDependencies ν} (same : Same fiber next)
      (resolved : tree.topology.contextResolve fiber.context fiber.definition.capability =
        .ok dependencies) (loads : next.loads = some (tree.pending.length, dependencies)) :
      Handles tree fiber
        ((tree.step (.load fiber.scope fiber.definition.capability fiber.context)).2, next)
  | ends {next : CapabilityFiber ν} {publication : Nat} {dependencies : ResolvedDependencies ν}
      {result : Except Text ν} (same : Same fiber next)
      (loaded : fiber.loads = some (publication, dependencies)) (loads : next.loads = none) :
      Handles tree fiber ((tree.step (.constructed publication result)).2, next)
  | sticks {publication : Nat} {dependencies : ResolvedDependencies ν} {value : ν}
      (loaded : fiber.loads = some (publication, dependencies))
      (unpublished : ∀ handle, (tree.step (.constructed publication (.ok value))).1 ≠ .published handle)
      (unfailed : ∀ error, (tree.step (.constructed publication (.ok value))).1 ≠ .failed error) :
      Handles tree fiber ((tree.step (.constructed publication (.ok value))).2, fiber)
  | publishes {next : CapabilityFiber ν} {publication : Nat} {dependencies : ResolvedDependencies ν}
      {value : ν} {handle : CapabilityHandle ν} (kin : Kin fiber next)
      (loaded : fiber.loads = some (publication, dependencies))
      (published : (tree.step (.constructed publication (.ok value))).1 = .published handle)
      (loads : next.loads = none) (held : next.handle = some handle)
      (epoch : next.dependencyEpoch = some (bindingOf dependencies)) :
      Handles tree fiber ((tree.step (.constructed publication (.ok value))).2, next)
  | releases {later : ScopeTree ν} {next : CapabilityFiber ν} (kin : Kin fiber next)
      (withdraws : later = tree ∨ ∃ capability generation,
        later = (tree.step (.withdraw fiber.scope capability generation)).2)
      (loads : next.loads = none) (empty : next.handle = none) (epoch : next.dependencyEpoch = none) :
      Handles tree fiber (later, next)

theorem handles_startDrive (tree : ScopeTree ν) (call : FiberCall) (force : Bool)
    (waiting : List (Option FiberCall)) :
    Handles tree fiber (tree, { fiber with waiting := waiting }.startDrive call force) := by
  unfold startDrive
  split
  · exact .stays ⟨⟨rfl, rfl⟩, rfl, rfl⟩ (.inl rfl)
  · split
    · exact .stays ⟨⟨rfl, rfl⟩, rfl, rfl⟩ (.inl rfl)
    · exact .stays ⟨⟨rfl, rfl⟩, rfl, rfl⟩ (.inl rfl)

theorem handles_acquire (tree : ScopeTree ν) (call : FiberCall) (waiting : List (Option FiberCall)) :
    Handles tree fiber (tree, { fiber with waiting := waiting }.acquire call) := by
  cases call with
  | start => exact handles_startDrive tree .start false waiting
  | restart => exact handles_startDrive tree .restart true waiting
  | update config => exact handles_startDrive tree (.update config) true waiting
  | deactivateForWithdrawal detached =>
    simp only [acquire]
    split
    · exact .stays ⟨⟨rfl, rfl⟩, rfl, rfl⟩ (.inl rfl)
    · exact .stays ⟨⟨rfl, rfl⟩, rfl, rfl⟩ (.inl rfl)
  | dispose =>
    simp only [acquire]
    split
    · exact .stays ⟨⟨rfl, rfl⟩, rfl, rfl⟩ (.inl rfl)
    · exact .stays ⟨⟨rfl, rfl⟩, rfl, rfl⟩ (.inl rfl)

theorem handles_request (tree : ScopeTree ν) (fiber : CapabilityFiber ν) (call : FiberCall) :
    Handles tree fiber (tree, fiber.request call) := by
  have keeps : Same fiber (fiber.request call) ∧ (fiber.request call).loads = fiber.loads := by
    cases call with
    | restart =>
      simp only [request]
      split
      · exact ⟨⟨⟨rfl, rfl⟩, rfl, rfl⟩, rfl⟩
      · exact ⟨⟨⟨rfl, rfl⟩, rfl, rfl⟩, rfl⟩
    | update config =>
      simp only [request]
      split
      · exact ⟨⟨⟨rfl, rfl⟩, rfl, rfl⟩, rfl⟩
      · split
        · exact ⟨⟨⟨rfl, rfl⟩, rfl, rfl⟩, rfl⟩
        · exact ⟨⟨⟨rfl, rfl⟩, rfl, rfl⟩, rfl⟩
    | _ => exact ⟨⟨⟨rfl, rfl⟩, rfl, rfl⟩, rfl⟩
  exact .stays keeps.1 (.inr keeps.2)

theorem handles_drive (tree : ScopeTree ν) (fiber : CapabilityFiber ν) (call : FiberCall) (force : Bool) :
    Handles tree fiber (drive tree fiber call force) := by
  unfold drive
  split
  · split
    · exact .stays ⟨⟨rfl, rfl⟩, rfl, rfl⟩ (.inl rfl)
    · exact .stays ⟨⟨rfl, rfl⟩, rfl, rfl⟩ (.inl rfl)
  · rename_i dependencies resolved
    split
    · exact .stays ⟨⟨rfl, rfl⟩, rfl, rfl⟩ (.inl rfl)
    · split
      · exact .stays ⟨⟨rfl, rfl⟩, rfl, rfl⟩ (.inl rfl)
      · split
        · exact .stays ⟨⟨rfl, rfl⟩, rfl, rfl⟩ (.inl rfl)
        · exact .begins ⟨⟨rfl, rfl⟩, rfl, rfl⟩ resolved rfl

theorem handles_returned (tree : ScopeTree ν) {call : FiberCall} {force : Bool} {publication : Nat}
    {dependencies : ResolvedDependencies ν}
    (loading : fiber.transition = .loading call force publication dependencies) (result : Except Text ν) :
    Handles tree fiber (returned tree fiber call force publication dependencies result) := by
  have loaded : fiber.loads = some (publication, dependencies) := by
    unfold CapabilityFiber.loads
    rw [loading]
  unfold returned
  simp only
  split
  · split
    · exact .ends ⟨⟨rfl, rfl⟩, rfl, rfl⟩ loaded rfl
    · exact .stays ⟨⟨rfl, rfl⟩, rfl, rfl⟩ (.inr loaded.symm)
  · exact .ends ⟨⟨rfl, rfl⟩, rfl, rfl⟩ loaded rfl

theorem handles_publish (tree : ScopeTree ν) {call : FiberCall} {force : Bool} {publication : Nat}
    {dependencies : ResolvedDependencies ν} {value : ν}
    (publishing : fiber.transition = .publishing call force publication dependencies value) :
    Handles tree fiber (publish tree fiber call force publication dependencies value) := by
  have loaded : fiber.loads = some (publication, dependencies) := by
    unfold CapabilityFiber.loads
    rw [publishing]
  generalize answered : tree.step (.constructed publication (.ok value)) = answer
  obtain ⟨answer, later⟩ := answer
  have grown : (tree.step (.constructed publication (.ok value))).2 = later := congrArg Prod.snd answered
  have said : (tree.step (.constructed publication (.ok value))).1 = answer := congrArg Prod.fst answered
  unfold publish
  rw [answered, ← grown]
  cases answer with
  | published handle => exact .publishes ⟨rfl, rfl⟩ loaded said rfl rfl rfl
  | failed error =>
    cases error with
    | dependencyChanged capability dependency => exact .ends ⟨⟨rfl, rfl⟩, rfl, rfl⟩ loaded rfl
    | _ => exact .ends ⟨⟨rfl, rfl⟩, rfl, rfl⟩ loaded rfl
  | _ =>
    exact .sticks loaded (fun handle same => by rw [said] at same; cases same)
      fun error same => by rw [said] at same; cases same

/-- What the removal of a publication does to the scopes. -/
theorem removeLocal_calls (tree : ScopeTree ν) (fiber : CapabilityFiber ν)
    (detached : Option ProviderIdentity) : (removeLocal tree fiber detached).2 = tree ∨
      ∃ capability generation, (removeLocal tree fiber detached).2 =
        (tree.step (.withdraw fiber.scope capability generation)).2 := by
  unfold removeLocal
  cases fiber.handle with
  | none => exact .inl rfl
  | some handle =>
    simp only
    split
    · exact .inl rfl
    · refine .inr ⟨handle.definition.id, handle.generation, ?_⟩
      split
      · rename_i same
        rw [same]
      · rename_i same
        rw [same]

theorem same_again (fiber : CapabilityFiber ν) (call : FiberCall) (force : Bool) (state : FiberState) :
    Same fiber (fiber.again call force state) ∧ (fiber.again call force state).loads = none := by
  unfold again
  split
  · exact ⟨⟨⟨rfl, rfl⟩, rfl, rfl⟩, rfl⟩
  · exact ⟨⟨⟨rfl, rfl⟩, rfl, rfl⟩, rfl⟩

theorem handles_finish (tree : ScopeTree ν) (fiber : CapabilityFiber ν) (call : FiberCall) (force : Bool)
    (errors : List EffectError) (purpose : Cleanup) :
    Handles tree fiber (finish tree fiber call force errors purpose) := by
  -- The second part of an unload gives the publication up.
  have releases (detached : Option ProviderIdentity) {next : CapabilityFiber ν} (kin : Kin fiber next)
      (loads : next.loads = none) (empty : next.handle = none) (epoch : next.dependencyEpoch = none) :
      Handles tree fiber ((unloaded tree fiber detached errors).2.1, next) := by
    rw [unloaded_tree]
    exact .releases kin (removeLocal_calls tree fiber detached) loads empty epoch
  have agains {next : CapabilityFiber ν} (same : Same fiber next) :
      Handles tree fiber (tree, next.again call force .pending) := by
    obtain ⟨⟨kin, handle, epoch⟩, loads⟩ := same_again next call force .pending
    exact .stays ⟨⟨kin.context.trans same.context, kin.definition.trans same.definition⟩,
      handle.trans same.handle, epoch.trans same.epoch⟩ (.inl loads)
  cases purpose with
  | reload =>
    obtain ⟨binding, effects, _, same⟩ := unloaded_eq tree fiber none errors
    simp only [finish]
    rw [same]
    have later (next : CapabilityFiber ν) := same_again next call force .pending
    exact releases none ⟨(later _).1.context, (later _).1.definition⟩ (later _).2 (later _).1.handle
      (later _).1.epoch
  | missing =>
    obtain ⟨binding, effects, _, same⟩ := unloaded_eq tree fiber none errors
    simp only [finish]
    rw [same]
    exact releases none ⟨rfl, rfl⟩ rfl rfl rfl
  | withdrawal detached =>
    obtain ⟨binding, effects, _, same⟩ := unloaded_eq tree fiber detached errors
    simp only [finish]
    rw [same]
    exact releases detached ⟨rfl, rfl⟩ rfl rfl rfl
  | disposal =>
    obtain ⟨binding, effects, _, same⟩ := unloaded_eq tree fiber none errors
    simp only [finish]
    rw [same]
    exact releases none ⟨rfl, rfl⟩ rfl rfl rfl
  | changed => exact .stays ⟨⟨rfl, rfl⟩, rfl, rfl⟩ (.inl rfl)
  | refused error => exact .stays ⟨⟨rfl, rfl⟩, rfl, rfl⟩ (.inl rfl)
  | staleValue => exact agains ⟨⟨rfl, rfl⟩, rfl, rfl⟩
  | staleError => exact agains ⟨⟨rfl, rfl⟩, rfl, rfl⟩
  | failed reason => exact .stays ⟨⟨rfl, rfl⟩, rfl, rfl⟩ (.inl rfl)

theorem handles_step (tree : ScopeTree ν) (fiber : CapabilityFiber ν) (event : FiberEvent ν) :
    Handles tree fiber (fiber.step tree event) := by
  have still : Handles tree fiber (tree, fiber) := .stays ⟨⟨rfl, rfl⟩, rfl, rfl⟩ (.inr rfl)
  have registers (stack : Nat) (label : Text) : Handles tree fiber (tree, fiber.register stack label) := by
    unfold register
    split
    · exact .stays ⟨⟨rfl, rfl⟩, rfl, rfl⟩ (.inr rfl)
    · exact still
  cases event with
  | call call => exact handles_request tree fiber call
  | acquire index =>
    simp only [step]
    split
    · exact handles_acquire tree _ _
    · exact still
  | go =>
    simp only [step]
    split
    · exact handles_drive tree fiber _ _
    · exact handles_publish tree ‹_›
    · exact handles_finish tree fiber _ _ _ _
    · exact still
  | returned result =>
    simp only [step]
    split
    · exact handles_returned tree ‹_› result
    · exact still
  | cleaned result =>
    simp only [step]
    split
    · exact .stays ⟨⟨rfl, rfl⟩, rfl, rfl⟩ (.inl rfl)
    · exact still
  | abandon =>
    simp only [step]
    split
    · rename_i publication dependencies loading
      have loaded : fiber.loads = some (publication, dependencies) := by
        unfold CapabilityFiber.loads
        rw [loading]
      exact .ends ⟨⟨rfl, rfl⟩, rfl, rfl⟩ loaded rfl
    · exact .stays ⟨⟨rfl, rfl⟩, rfl, rfl⟩ (.inl rfl)
    · exact still
  | effect label =>
    simp only [step, effect]
    split
    · exact registers _ label
    · exact still
  | register stack label => exact registers stack label
  | unlist => exact .stays ⟨⟨rfl, rfl⟩, rfl, rfl⟩ (.inr rfl)

/-- The calls that a fiber makes on the scopes. -/
inductive FiberCalls (fiber : CapabilityFiber ν) : ScopeCall ν → Prop
  | load : FiberCalls fiber (.load fiber.scope fiber.definition.capability fiber.context)
  | constructed {publication : Nat} {dependencies : ResolvedDependencies ν} (result : Except Text ν)
      (loads : fiber.loads = some (publication, dependencies)) :
      FiberCalls fiber (.constructed publication result)
  | withdraw (capability : Id) (generation : Nat) :
      FiberCalls fiber (.withdraw fiber.scope capability generation)

/-- A fiber makes one call on the scopes at most. -/
theorem Handles.calls {after : ScopeTree ν × CapabilityFiber ν} (handles : Handles tree fiber after) :
    after.1 = tree ∨ ∃ call, FiberCalls fiber call ∧ after.1 = (tree.step call).2 := by
  cases handles with
  | stays same loads => exact .inl rfl
  | begins same resolved loads => exact .inr ⟨_, .load, rfl⟩
  | ends same loaded loads => exact .inr ⟨_, .constructed _ loaded, rfl⟩
  | sticks loaded unpublished unfailed => exact .inr ⟨_, .constructed _ loaded, rfl⟩
  | publishes kin loaded published loads held epoch => exact .inr ⟨_, .constructed _ loaded, rfl⟩
  | releases kin withdraws loads empty epoch =>
    rcases withdraws with same | ⟨capability, generation, same⟩
    · exact .inl same
    · exact .inr ⟨_, .withdraw capability generation, same⟩

/-- What a fiber has begun after an event: nothing, what it had begun, or a new publication. -/
theorem Handles.loads {after : ScopeTree ν × CapabilityFiber ν} (handles : Handles tree fiber after) :
    after.2.loads = none ∨ after.2.loads = fiber.loads ∨
      ∃ dependencies, after.2.loads = some (tree.pending.length, dependencies) := by
  cases handles with
  | stays same loads => exact loads.imp_right .inl
  | begins same resolved loads => exact .inr (.inr ⟨_, loads⟩)
  | ends same loaded loads => exact .inl loads
  | sticks loaded unpublished unfailed => exact .inr (.inl rfl)
  | publishes kin loaded published loads held epoch => exact .inl loads
  | releases kin withdraws loads empty epoch => exact .inl loads

/-- A fiber keeps its context and its definition. -/
theorem Handles.kin {after : ScopeTree ν × CapabilityFiber ν} (handles : Handles tree fiber after) :
    Kin fiber after.2 := by
  cases handles with
  | stays same loads => exact same.toKin
  | begins same resolved loads => exact same.toKin
  | ends same loaded loads => exact same.toKin
  | sticks loaded unpublished unfailed => exact ⟨rfl, rfl⟩
  | publishes kin loaded published loads held epoch => exact kin
  | releases kin withdraws loads empty epoch => exact kin

/-! ### What a fiber is bound to -/

/-- **A fiber is bound to what its publication was resolved with**, and a load waits among the
publications. -/
structure Bound (tree : ScopeTree ν) (fiber : CapabilityFiber ν) : Prop where
  begun : ∀ publication dependencies, fiber.loads = some (publication, dependencies) →
    tree.poisoned = true ∨ tree.pending[publication]? =
      some (some ⟨fiber.scope, fiber.definition.capability, .new, dependencies, true⟩)
  known : ∀ handle, fiber.handle = some handle → (fiber.scope, handle) ∈ tree.published ∧
    fiber.dependencyEpoch = some (bindingOf handle.dependencies)
  bare : fiber.handle = none → fiber.dependencyEpoch = none

theorem bound_new (tree : ScopeTree ν) (definition : PluginDefinition) (context : List ContextState)
    (config : Text) : Bound tree (.new definition context config) := by
  refine ⟨fun _ _ same => ?_, fun _ same => ?_, fun _ => rfl⟩
  · cases same
  · cases same

theorem Kin.scope (kin : Kin fiber next) : next.scope = fiber.scope := by
  unfold CapabilityFiber.scope
  rw [kin.context]

/-- A call that does not complete the publication of the fiber. -/
theorem Bound.call (bound : Bound tree fiber) (sound : tree.Sound) {call : ScopeCall ν}
    (other : ∀ publication dependencies, fiber.loads = some (publication, dependencies) →
      ∀ result, call ≠ .constructed publication result) : Bound (tree.step call).2 fiber := by
  have reaches := ScopeTree.step_reaches sound.grounded sound.loads call
  refine ⟨fun publication dependencies same => ?_, fun handle held => ?_, bound.bare⟩
  · rcases bound.begun publication dependencies same with poisoned | found
    · exact .inl (ScopeTree.poisoned_step poisoned call)
    · exact .inr (ScopeTree.pending_step (other publication dependencies same) found)
  · obtain ⟨known, epoch⟩ := bound.known handle held
    exact ⟨ScopeTree.published_reaches reaches known, epoch⟩

/-- A fiber that keeps its publication. -/
theorem Bound.of (bound : Bound tree fiber) {later : ScopeTree ν} (same : Same fiber next)
    (reaches : tree.Reaches later)
    (begun : ∀ publication dependencies, next.loads = some (publication, dependencies) →
      later.poisoned = true ∨ later.pending[publication]? =
        some (some ⟨fiber.scope, fiber.definition.capability, .new, dependencies, true⟩)) :
    Bound later next := by
  refine ⟨fun publication dependencies loads => ?_, fun handle held => ?_, fun empty => ?_⟩
  · rw [same.scope, same.definition]
    exact begun publication dependencies loads
  · rw [same.handle] at held
    obtain ⟨known, epoch⟩ := bound.known handle held
    rw [same.scope, same.epoch]
    exact ⟨ScopeTree.published_reaches reaches known, epoch⟩
  · rw [same.handle] at empty
    rw [same.epoch]
    exact bound.bare empty

/-- **An event of a fiber keeps it bound.** -/
theorem Bound.handles (bound : Bound tree fiber) (sound : tree.Sound)
    (live : tree.topology.live fiber.scope = true) (unpoisoned : tree.poisoned = false)
    {after : ScopeTree ν × CapabilityFiber ν} (handles : Handles tree fiber after) :
    Bound after.1 after.2 := by
  have reaches (call : ScopeCall ν) := ScopeTree.step_reaches sound.grounded sound.loads call
  have found {publication : Nat} {dependencies : ResolvedDependencies ν}
      (loaded : fiber.loads = some (publication, dependencies)) :=
    (bound.begun publication dependencies loaded).resolve_left (by rw [unpoisoned]; exact Bool.false_ne_true)
  cases handles with
  | stays same loads =>
    refine bound.of same .refl fun publication dependencies loaded => ?_
    rcases loads with none | kept
    · rw [none] at loaded
      cases loaded
    · exact bound.begun publication dependencies (kept ▸ loaded)
  | begins same resolved loads =>
    refine bound.of same (reaches _) fun publication dependencies loaded => .inr ?_
    rw [loads] at loaded
    cases loaded
    simp only [ScopeTree.step]
    rw [if_neg (not_not.mpr live), resolved]
    show (tree.pending ++ [some _])[tree.pending.length]? = _
    rw [List.getElem?_append_right (Nat.le_refl _), Nat.sub_self]
    rfl
  | ends same loaded loads =>
    exact bound.of same (reaches _) fun _ _ loading => by rw [loads] at loading; cases loading
  | @sticks publication dependencies value loaded unpublished unfailed =>
    refine bound.of ⟨⟨rfl, rfl⟩, rfl, rfl⟩ (reaches _) fun _ _ _ => .inl ?_
    have comes := ScopeTree.loaded (found loaded) rfl live value
    generalize tree.step (.constructed publication (.ok value)) = answer at comes unpublished unfailed ⊢
    cases comes with
    | refused error => exact absurd rfl (unfailed error)
    | panicked same poisoned => exact poisoned
    | published generation => exact absurd rfl (unpublished _)
  | @publishes next publication dependencies value handle kin loaded published loads held epoch =>
    have comes := ScopeTree.loaded (found loaded) rfl live value
    generalize tree.step (.constructed publication (.ok value)) = answer at comes published ⊢
    cases comes with
    | refused error => cases published
    | panicked same poisoned => cases published
    | published generation =>
      cases published
      refine ⟨fun _ _ loading => ?_, fun other same => ?_, fun empty => ?_⟩
      · rw [loads] at loading
        cases loading
      · rw [held] at same
        cases same
        rw [kin.scope]
        exact ⟨List.mem_append_right _ (List.mem_singleton_self _), epoch⟩
      · rw [held] at empty
        cases empty
  | releases kin withdraws loads empty epoch =>
    refine ⟨fun _ _ loading => ?_, fun _ held => ?_, fun _ => epoch⟩
    · rw [loads] at loading
      cases loading
    · rw [empty] at held
      cases held

/-- What a fiber publishes after an event: what it published, nothing, or an entry with the next
identity. -/
theorem Bound.publishes (bound : Bound tree fiber) (live : tree.topology.live fiber.scope = true)
    (unpoisoned : tree.poisoned = false) {after : ScopeTree ν × CapabilityFiber ν}
    (handles : Handles tree fiber after) :
    after.2.handle = fiber.handle ∨ after.2.handle = none ∨
      ∃ handle, after.2.handle = some handle ∧ handle.entryId = tree.nextEntryId := by
  cases handles with
  | stays same loads => exact .inl same.handle
  | begins same resolved loads => exact .inl same.handle
  | ends same loaded loads => exact .inl same.handle
  | sticks loaded unpublished unfailed => exact .inl rfl
  | @publishes next publication dependencies value handle kin loaded published loads held epoch =>
    have found := (bound.begun publication dependencies loaded).resolve_left
      (by rw [unpoisoned]; exact Bool.false_ne_true)
    have comes := ScopeTree.loaded found rfl live value
    refine .inr (.inr ⟨handle, held, ?_⟩)
    generalize tree.step (.constructed publication (.ok value)) = answer at comes published
    cases comes with
    | refused error => cases published
    | panicked same poisoned => cases published
    | published generation =>
      cases published
      rfl
  | releases kin withdraws loads empty epoch => exact .inr (.inl empty)

end CapabilityFiber

end Kernis
