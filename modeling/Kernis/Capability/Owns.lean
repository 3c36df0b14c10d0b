/-
**The publications of a fiber.**

A publication has an identity that no later one gets, so an entry that is current was current since it was
published. A fiber that unloads withdraws what it holds.

* `Sound.lasting` — a current entry of an earlier publication was current all along.
* `Owns` — what a fiber published is current only while the fiber holds it; `Owns.call`, `Owns.step`.
-/

import Kernis.Capability.Identity
import Kernis.Capability.Started
import Kernis.Capability.Whole

namespace Kernis

open Std

/-! ### Entries last -/

namespace ScopeTree

variable {ν : Type} {tree next : ScopeTree ν}

/-- What was published stays published. -/
theorem published_reaches (reaches : tree.Reaches next) {publication : Nat × CapabilityHandle ν}
    (known : publication ∈ tree.published) : publication ∈ next.published := by
  induction reaches with
  | refl => exact known
  | tail _ evolves ih =>
    rcases evolves.publishes with ⟨same, _, _⟩ | ⟨_, _, _, _, _, grown, _⟩
    · exact same ▸ ih
    · rw [grown]
      exact List.mem_append_left _ ih

/-- An entry with the identity of a publication is that publication. -/
theorem Sound.entry_eq (sound : Sound tree) {scope other : Nat} {handle entry : CapabilityHandle ν}
    (known : (scope, handle) ∈ tree.published) {id : Id}
    (held : (tree.topology.level other).entries[id]? = some entry)
    (same : entry.entryId = handle.entryId) :
    other = scope ∧ entry = handle ∧ id = handle.definition.id := by
  obtain ⟨named, recorded⟩ := sound.recorded other id entry held
  have equal : (other, entry) = (scope, handle) :=
    List.inj_on_of_nodup_map sound.unique recorded known same
  cases equal
  exact ⟨rfl, rfl, named.symm⟩

/-- **A current entry of an earlier publication was current all along.** -/
theorem Sound.lasting (sound : Sound tree) (reaches : tree.Reaches next) {scope other : Nat}
    {handle entry : CapabilityHandle ν} (known : (scope, handle) ∈ tree.published) {id : Id}
    (held : (next.topology.level other).entries[id]? = some entry)
    (same : entry.entryId = handle.entryId) :
    (tree.topology.level other).entries[id]? = some entry := by
  induction reaches with
  | refl => exact held
  | tail before evolves ih =>
    rcases evolves.publishes with ⟨_, _, fewer⟩ | ⟨place, _, added, installed, _, grown, _⟩
    · exact ih (fewer _ _ _ held)
    · rw [installed] at held
      rcases Topology.entries_install held with ⟨_, _, rfl⟩ | earlier
      · -- the new entry has an identity of its own
        have unique := ((sound.reaches before).evolves evolves).unique
        rw [grown, List.map_append, List.nodup_append] at unique
        exact absurd same.symm (unique.2.2 _ (List.mem_map_of_mem (published_reaches before known))
          _ (List.mem_singleton_self _))
      · exact ih earlier

end ScopeTree

namespace CapabilityFiber

variable {ν : Type} {fiber next : CapabilityFiber ν} {tree : ScopeTree ν}

/-! ### What a fiber publishes -/

/-- **What a fiber published is current only while the fiber holds it.** -/
structure Owns (tree : ScopeTree ν) (fiber : CapabilityFiber ν) : Prop where
  placed : fiber.scope ∈ fiber.context.map ContextState.scope
  live : tree.topology.live fiber.scope = true
  begun : ∀ publication dependencies, fiber.loads = some (publication, dependencies) →
    tree.poisoned = true ∨ tree.pending[publication]? =
      some (some ⟨fiber.scope, fiber.definition.capability, .new, dependencies, true⟩)
  known : ∀ handle ∈ fiber.published, (fiber.scope, handle) ∈ tree.published
  current : ∀ handle ∈ fiber.published, ∀ (other : Nat) (id : Id) (entry : CapabilityHandle ν),
    (tree.topology.level other).entries[id]? = some entry → entry.entryId = handle.entryId →
      fiber.handle = some handle

/-- A change of the fiber that moves no publication. -/
theorem Owns.of (owns : Owns tree fiber) (context : next.context = fiber.context)
    (definition : next.definition = fiber.definition)
    (loads : next.loads = none ∨ next.loads = fiber.loads)
    (published : next.published = fiber.published) (handle : next.handle = fiber.handle) :
    Owns tree next := by
  have scope : next.scope = fiber.scope := by
    unfold CapabilityFiber.scope
    rw [context]
  refine ⟨?_, ?_, fun publication dependencies same => ?_, ?_, ?_⟩
  · rw [scope, context]
    exact owns.placed
  · rw [scope]
    exact owns.live
  · rw [scope, definition]
    rcases loads with none | kept
    · rw [none] at same
      cases same
    · exact owns.begun publication dependencies (kept ▸ same)
  · rw [published, scope]
    exact owns.known
  · rw [published, handle]
    exact owns.current

/-- **A call on the scopes** that neither releases the scope of a fiber nor ends its load. -/
theorem Owns.call (owns : Owns tree fiber) (sound : tree.Sound) {call : ScopeCall ν}
    (held : call ≠ .release fiber.scope)
    (other : ∀ publication dependencies, fiber.loads = some (publication, dependencies) →
      ∀ result, call ≠ .constructed publication result) : Owns (tree.step call).2 fiber := by
  have reaches := ScopeTree.step_reaches sound.grounded sound.loads call
  refine ⟨owns.placed, (ScopeTree.step_kept owns.live held).1, fun publication dependencies same => ?_,
    fun handle member => ScopeTree.published_reaches reaches (owns.known handle member),
    fun handle member place id entry there same => ?_⟩
  · rcases owns.begun publication dependencies same with poisoned | found
    · exact .inl (ScopeTree.poisoned_step poisoned call)
    · exact .inr (ScopeTree.pending_step (other publication dependencies same) found)
  · have before := sound.lasting reaches (owns.known handle member) there same
    exact owns.current handle member place id entry before same

/-- A load begins. -/
theorem Owns.load (owns : Owns tree fiber) (sound : tree.Sound) (call : FiberCall) (force : Bool)
    {dependencies : ResolvedDependencies ν}
    (resolved : tree.topology.contextResolve fiber.context fiber.definition.capability =
      .ok dependencies) (idle : fiber.loads = none) :
    Owns (load tree fiber call force dependencies).1 (load tree fiber call force dependencies).2 := by
  have apart : (ScopeCall.load fiber.scope fiber.definition.capability fiber.context : ScopeCall ν) ≠
      .release fiber.scope := fun same => by cases same
  have later := owns.call sound apart fun _ _ same => by rw [idle] at same; cases same
  refine ⟨later.placed, later.live, fun publication others same => .inr ?_, later.known, later.current⟩
  cases same
  show (tree.step (.load fiber.scope fiber.definition.capability fiber.context)).2.pending[_]? = _
  simp only [ScopeTree.step]
  rw [if_neg (not_not.mpr owns.live), resolved]
  show (tree.pending ++ [some _])[tree.pending.length]? = _
  rw [List.getElem?_append_right (Nat.le_refl _), Nat.sub_self]
  rfl

theorem Owns.drive (owns : Owns tree fiber) (sound : tree.Sound) {call : FiberCall} {force : Bool}
    (driving : fiber.transition = .driving call force) :
    Owns (drive tree fiber call force).1 (drive tree fiber call force).2 := by
  have idle : fiber.loads = none := by
    unfold CapabilityFiber.loads
    rw [driving]
  unfold CapabilityFiber.drive
  split
  · simp only
    split
    · exact owns.of rfl rfl (.inl rfl) rfl rfl
    · exact owns.of rfl rfl (.inl rfl) rfl rfl
  · split
    · exact owns.of rfl rfl (.inl rfl) rfl rfl
    · split
      · exact owns.of rfl rfl (.inl rfl) rfl rfl
      · split
        · exact owns.of rfl rfl (.inl rfl) rfl rfl
        · exact owns.load sound call force ‹_› idle

theorem Owns.returned (owns : Owns tree fiber) (sound : tree.Sound) {call : FiberCall} {force : Bool}
    {publication : Nat} {dependencies : ResolvedDependencies ν}
    (loading : fiber.transition = .loading call force publication dependencies)
    (result : Except Text ν) :
    Owns (returned tree fiber call force publication dependencies result).1
      (returned tree fiber call force publication dependencies result).2 := by
  have cleans (purpose : Cleanup) : Owns tree (fiber.clean call force purpose) :=
    owns.of rfl rfl (.inl rfl) rfl rfl
  unfold CapabilityFiber.returned
  simp only
  split
  · split
    · exact (cleans _).call sound nofun nofun
    · refine owns.of rfl rfl (.inr ?_) rfl rfl
      unfold CapabilityFiber.loads
      rw [loading]
  · exact (cleans _).call sound nofun nofun

/-- The publication of a load. -/
theorem Owns.publish (owns : Owns tree fiber) (sound : tree.Sound) (kept : Kept fiber)
    (unpoisoned : tree.poisoned = false) {call : FiberCall} {force : Bool} {publication : Nat}
    {dependencies : ResolvedDependencies ν} {value : ν}
    (publishing : fiber.transition = .publishing call force publication dependencies value) :
    Owns (publish tree fiber call force publication dependencies value).1
      (publish tree fiber call force publication dependencies value).2 := by
  have loads : fiber.loads = some (publication, dependencies) := by
    unfold CapabilityFiber.loads
    rw [publishing]
  have found := (owns.begun publication dependencies loads).resolve_left (by rw [unpoisoned]; nofun)
  have reaches := ScopeTree.step_reaches sound.grounded sound.loads
    (.constructed publication (.ok value))
  have cleans (purpose : Cleanup) :
      Owns (tree.step (.constructed publication (.ok value))).2 (fiber.clean call force purpose) := by
    have cleaning : Owns tree (fiber.clean call force purpose) := owns.of rfl rfl (.inl rfl) rfl rfl
    exact cleaning.call sound nofun nofun
  -- A fiber that loads holds nothing.
  have empty : fiber.handle = none := by
    have poised := kept.poised
    unfold Poised at poised
    rw [publishing] at poised
    by_contra some
    obtain ⟨handle, same⟩ := Option.ne_none_iff_exists'.mp some
    rcases kept.held handle same with state | state
    · rw [poised] at state
      cases state
    · rw [poised] at state
      cases state
  have loaded := ScopeTree.loaded found rfl owns.live value
  unfold CapabilityFiber.publish
  generalize answered : tree.step (.constructed publication (.ok value)) = answer
    at loaded reaches cleans ⊢
  cases loaded with
  | refused error =>
    cases error with
    | dependencyChanged capability dependency => exact cleans .changed
    | _ => exact cleans (.refused _)
  | panicked same poisoned =>
    refine ⟨owns.placed, ?_, fun _ _ _ => .inl poisoned, fun handle member =>
      ScopeTree.published_reaches reaches (owns.known handle member), ?_⟩
    · exact (congrArg (fun topology => Topology.live topology fiber.scope) same).trans owns.live
    · intro handle member other id entry there identity
      exact owns.current handle member other id entry
        (sound.lasting reaches (owns.known handle member) there identity) identity
  | published generation =>
    refine ⟨owns.placed, ?_, nofun, fun handle member => ?_, ?_⟩
    · exact ((Topology.sameShape_install fiber.scope _).live fiber.scope).trans owns.live
    · rcases List.mem_append.mp member with before | now
      · exact ScopeTree.published_reaches reaches (owns.known handle before)
      · cases List.mem_singleton.mp now
        exact List.mem_append_right _ (List.mem_singleton_self _)
    · intro handle member other id entry there identity
      rcases List.mem_append.mp member with before | now
      · have held := owns.current handle before other id entry
          (sound.lasting reaches (owns.known handle before) there identity) identity
        rw [empty] at held
        cases held
      · cases List.mem_singleton.mp now
        rfl

/-- The removal of a publication is a withdrawal. -/
theorem removeLocal_eq (tree : ScopeTree ν) (fiber : CapabilityFiber ν) :
    (removeLocal tree fiber none).2 = match fiber.handle with
      | none => tree
      | some handle =>
        (tree.step (.withdraw fiber.scope handle.definition.id handle.generation)).2 := by
  unfold removeLocal
  cases fiber.handle with
  | none => rfl
  | some handle =>
    simp only [reduceCtorEq, if_false]
    split
    · rename_i same
      rw [same]
    · rename_i same
      rw [same]

/-- An unload changes the scopes by its removal. -/
theorem unloaded_tree (tree : ScopeTree ν) (fiber : CapabilityFiber ν)
    (detached : Option ProviderIdentity) (errors : List EffectError) :
    (unloaded tree fiber detached errors).2.1 = (removeLocal tree fiber detached).2 := by
  unfold unloaded
  split
  · rename_i same
    rw [same]
  · rename_i same
    rw [same]

/-- **A withdrawn publication is not current.** -/
theorem Owns.withdrawn (owns : Owns tree fiber) (sound : tree.Sound)
    (unpoisoned : tree.poisoned = false) {handle : CapabilityHandle ν}
    (member : handle ∈ fiber.published) {other : Nat} {id : Id} {entry : CapabilityHandle ν}
    (there : ((tree.step (.withdraw fiber.scope handle.definition.id
      handle.generation)).2.topology.level other).entries[id]? = some entry) :
    entry.entryId ≠ handle.entryId := by
  intro same
  have known := owns.known handle member
  have reaches := ScopeTree.step_reaches sound.grounded sound.loads
    (.withdraw fiber.scope handle.definition.id handle.generation)
  have before := sound.lasting reaches known there same
  obtain ⟨rfl, rfl, rfl⟩ := sound.entry_eq known before same
  have isOpen : (tree.topology.level fiber.scope).isOpen = true := by
    by_contra closed
    rw [sound.vacant _ (Bool.eq_false_iff.mpr closed), ExtTreeMap.getElem?_empty] at before
    cases before
  rw [ScopeTree.step_withdraw owns.live unpoisoned isOpen before] at there
  rw [Topology.entry_removed] at there
  cases there

/-- **After an unload nothing that the fiber published is current.** -/
theorem Owns.unloaded (owns : Owns tree fiber) (sound : tree.Sound)
    (unpoisoned : tree.poisoned = false) (errors : List EffectError)
    (context : next.context = fiber.context) (definition : next.definition = fiber.definition)
    (loads : next.loads = none) (published : next.published = fiber.published)
    (handle : next.handle = none) : Owns (unloaded tree fiber none errors).2.1 next := by
  rw [unloaded_tree, removeLocal_eq]
  cases held : fiber.handle with
  | none => exact owns.of context definition (.inl loads) published (handle.trans held.symm)
  | some last =>
    have scope : next.scope = fiber.scope := by
      unfold CapabilityFiber.scope
      rw [context]
    have reaches := ScopeTree.step_reaches sound.grounded sound.loads
      (.withdraw fiber.scope last.definition.id last.generation)
    have unloads (publication : Nat) (dependencies : ResolvedDependencies ν) :
        next.loads ≠ some (publication, dependencies) := by
      rw [loads]
      nofun
    have kept := ScopeTree.step_kept owns.live (show ScopeCall.withdraw fiber.scope
      last.definition.id last.generation ≠ .release fiber.scope from nofun)
    refine ⟨?_, ?_, fun _ _ same => absurd same (unloads _ _), ?_, ?_⟩
    · rw [scope, context]
      exact owns.placed
    · rw [scope]
      exact kept.1
    · rw [published, scope]
      exact fun handle member => ScopeTree.published_reaches reaches (owns.known handle member)
    · rw [published]
      intro other member place id entry there same
      have before := sound.lasting reaches (owns.known other member) there same
      have current := owns.current other member place id entry before same
      rw [held, Option.some.injEq] at current
      subst current
      exact absurd same (owns.withdrawn sound unpoisoned member there)

/-- **The end of a cleanup.** -/
theorem Owns.finish (owns : Owns tree fiber) (sound : tree.Sound) (kept : Kept fiber)
    (unpoisoned : tree.poisoned = false) {call : FiberCall} {force : Bool} {purpose : Cleanup}
    {errors : List EffectError} (cleaning : fiber.transition = .cleaning call force purpose [] errors) :
    Owns (finish tree fiber call force errors purpose).1
      (finish tree fiber call force errors purpose).2 := by
  have agains {tree : ScopeTree ν} {next : CapabilityFiber ν}
      (owns : ∀ state transition answers, transition = .free ∨ transition = .driving call force →
        Owns tree { next with state := state, transition := transition, answers := answers }) :
      Owns tree (next.again call force .pending) := by
    unfold again
    split
    · exact owns next.state .free _ (.inl rfl)
    · exact owns .pending (.driving call force) next.answers (.inr rfl)
  have idle {transition : Transition ν} {next : CapabilityFiber ν}
      (rests : transition = .free ∨ transition = .driving call force)
      (same : next.transition = transition) : next.loads = none := by
    unfold CapabilityFiber.loads
    rcases rests with rfl | rfl <;> rw [same]
  cases purpose with
  | reload =>
    obtain ⟨binding, effects, _, same⟩ := unloaded_eq tree fiber none errors
    simp only [CapabilityFiber.finish]
    rw [same]
    exact agains fun _ _ _ rests =>
      owns.unloaded sound unpoisoned errors rfl rfl (idle rests rfl) rfl rfl
  | missing =>
    obtain ⟨binding, effects, _, same⟩ := unloaded_eq tree fiber none errors
    simp only [CapabilityFiber.finish]
    rw [same]
    exact owns.unloaded sound unpoisoned errors rfl rfl rfl rfl rfl
  | withdrawal detached =>
    have poised := kept.poised
    unfold Poised at poised
    rw [cleaning] at poised
    obtain rfl : detached = none := poised.2
    obtain ⟨binding, effects, _, same⟩ := unloaded_eq tree fiber none errors
    simp only [CapabilityFiber.finish]
    rw [same]
    exact owns.unloaded sound unpoisoned errors rfl rfl rfl rfl rfl
  | disposal =>
    obtain ⟨binding, effects, _, same⟩ := unloaded_eq tree fiber none errors
    simp only [CapabilityFiber.finish]
    rw [same]
    exact owns.unloaded sound unpoisoned errors rfl rfl rfl rfl rfl
  | changed => exact owns.of rfl rfl (.inl rfl) rfl rfl
  | refused error => exact owns.of rfl rfl (.inl rfl) rfl rfl
  | staleValue => exact agains fun _ _ _ rests => owns.of rfl rfl (.inl (idle rests rfl)) rfl rfl
  | staleError => exact agains fun _ _ _ rests => owns.of rfl rfl (.inl (idle rests rfl)) rfl rfl
  | failed reason => exact owns.of rfl rfl (.inl rfl) rfl rfl

theorem Owns.request (owns : Owns tree fiber) (call : FiberCall) : Owns tree (fiber.request call) := by
  cases call with
  | start => exact owns.of rfl rfl (.inr rfl) rfl rfl
  | restart =>
    simp only [CapabilityFiber.request]
    split
    · exact owns.of rfl rfl (.inr rfl) rfl rfl
    · exact owns.of rfl rfl (.inr rfl) rfl rfl
  | update config =>
    simp only [CapabilityFiber.request]
    split
    · exact owns.of rfl rfl (.inr rfl) rfl rfl
    · split
      · exact owns.of rfl rfl (.inr rfl) rfl rfl
      · exact owns.of rfl rfl (.inr rfl) rfl rfl
  | deactivateForWithdrawal detached => exact owns.of rfl rfl (.inr rfl) rfl rfl
  | dispose => exact owns.of rfl rfl (.inr rfl) rfl rfl

theorem Owns.acquire (owns : Owns tree fiber) (call : FiberCall) : Owns tree (fiber.acquire call) := by
  have starts (call : FiberCall) (force : Bool) : Owns tree (fiber.startDrive call force) := by
    unfold CapabilityFiber.startDrive
    split
    · exact owns.of rfl rfl (.inl rfl) rfl rfl
    · split
      · exact owns.of rfl rfl (.inl rfl) rfl rfl
      · exact owns.of rfl rfl (.inl rfl) rfl rfl
  cases call with
  | start => exact starts _ _
  | restart => exact starts _ _
  | update config => exact starts _ _
  | deactivateForWithdrawal detached =>
    simp only [CapabilityFiber.acquire]
    split
    · exact owns.of rfl rfl (.inl rfl) rfl rfl
    · exact owns.of rfl rfl (.inl rfl) rfl rfl
  | dispose =>
    simp only [CapabilityFiber.acquire]
    split
    · exact owns.of rfl rfl (.inl rfl) rfl rfl
    · exact owns.of rfl rfl (.inl rfl) rfl rfl

/-- **An event of a fiber keeps its publications its own.** -/
theorem Owns.step (owns : Owns tree fiber) (sound : tree.Sound) (kept : Kept fiber)
    (unpoisoned : tree.poisoned = false) {event : FiberEvent ν} (whole : event.Whole) :
    Owns (fiber.step tree event).1 (fiber.step tree event).2 := by
  have registers (stack : Nat) (label : Text) : Owns tree (fiber.register stack label) := by
    unfold CapabilityFiber.register
    split
    · exact owns.of rfl rfl (.inr rfl) rfl rfl
    · exact owns
  cases whole with
  | call call => exact owns.request call
  | acquire index =>
    simp only [CapabilityFiber.step]
    split
    · have taken : Owns tree { fiber with waiting := fiber.waiting.set index none } :=
        owns.of rfl rfl (.inr rfl) rfl rfl
      exact taken.acquire _
    · exact owns
  | effect label =>
    simp only [CapabilityFiber.step, CapabilityFiber.effect]
    split
    · exact registers _ label
    · exact owns
  | works works =>
    cases works with
    | go =>
      simp only [CapabilityFiber.step]
      split
      · exact owns.drive sound ‹_›
      · exact owns.publish sound kept unpoisoned ‹_›
      · exact owns.finish sound kept unpoisoned ‹_›
      · exact owns
    | returned result =>
      simp only [CapabilityFiber.step]
      split
      · exact owns.returned sound ‹_› result
      · exact owns
    | cleaned result =>
      simp only [CapabilityFiber.step]
      split
      · exact owns.of rfl rfl (.inl rfl) rfl rfl
      · exact owns
    | register stack label => exact registers stack label

/-- A fiber makes one call on the scopes at most. -/
theorem step_tree (fiber : CapabilityFiber ν) (tree : ScopeTree ν) (event : FiberEvent ν) :
    (fiber.step tree event).1 = tree ∨ ∃ call, (fiber.step tree event).1 = (tree.step call).2 := by
  have removes (detached : Option ProviderIdentity) :
      (removeLocal tree fiber detached).2 = tree ∨
        ∃ call, (removeLocal tree fiber detached).2 = (tree.step call).2 := by
    unfold removeLocal
    split
    · exact .inl rfl
    · split
      · exact .inl rfl
      · rename_i handle _ _
        refine .inr ⟨.withdraw fiber.scope handle.definition.id handle.generation, ?_⟩
        split
        · rename_i same
          rw [same]
        · rename_i same
          rw [same]
  cases event with
  | go =>
    simp only [step]
    split
    · unfold CapabilityFiber.drive
      split
      · exact .inl rfl
      · split
        · exact .inl rfl
        · split
          · exact .inl rfl
          · split
            · exact .inl rfl
            · exact .inr ⟨_, rfl⟩
    · rename_i call force publication dependencies value publishing
      refine .inr ⟨.constructed publication (.ok value), ?_⟩
      unfold CapabilityFiber.publish
      split <;> (rename_i same; rw [same])
    · rename_i call force purpose errors cleaning
      cases purpose with
      | reload => exact unloaded_tree tree fiber none errors ▸ removes none
      | missing => exact unloaded_tree tree fiber none errors ▸ removes none
      | withdrawal detached => exact unloaded_tree tree fiber detached errors ▸ removes detached
      | disposal => exact unloaded_tree tree fiber none errors ▸ removes none
      | _ => exact .inl rfl
    · exact .inl rfl
  | returned result =>
    simp only [step]
    split
    · unfold CapabilityFiber.returned
      simp only
      split
      · split
        · exact .inr ⟨_, rfl⟩
        · exact .inl rfl
      · exact .inr ⟨_, rfl⟩
    · exact .inl rfl
  | abandon =>
    simp only [step]
    split
    · exact .inr ⟨_, rfl⟩
    · exact .inl rfl
    · exact .inl rfl
  | acquire index =>
    simp only [step]
    split <;> exact .inl rfl
  | cleaned result =>
    simp only [step]
    split <;> exact .inl rfl
  | _ => exact .inl rfl

end CapabilityFiber

end Kernis
