/-
**The withdrawal of a provider.**

A withdrawal drains the fibers that publish the provider, that are bound to it, or that are bound to what an
affected fiber publishes; a fiber before those it depends on.

* `Affected` — the least such set; `mem_withdrawalClosure`.
* `withdrawalOrder_before` — the order of the drain.
* `Drained` — what the drain of some fibers leaves; `drained_foldl`.
* `withdrawal_drains` — the whole withdrawal.
-/

import Kernis.Capability.Coordinated

namespace Kernis

open Std

variable {ν : Type}

namespace ReactiveRuntime

variable {runtime : ReactiveRuntime ν}

/-! ### Which fibers are affected -/

/-- **The watched fibers that a withdrawal affects**: the least set that holds those that publish the
provider or are bound to it, and those that are bound to what a member publishes. -/
def Affected (runtime : ReactiveRuntime ν) (retired : ProviderIdentity) : Nat → Prop :=
  Dependent (fun id => id ∈ runtime.watched ∧ (runtime.Publishes id retired ∨ runtime.Pins id retired))
    fun id other => id ∈ runtime.watched ∧ runtime.DependsOn id other

theorem Affected.watched {retired : ProviderIdentity} {id : Nat}
    (affected : runtime.Affected retired id) : id ∈ runtime.watched := by
  cases affected with
  | start member => exact member.1
  | follows linked _ => exact linked.1

theorem mem_snapshotFibers {id : Nat} : id ∈ runtime.snapshotFibers ↔ id ∈ runtime.watched :=
  ExtTreeSet.mem_toList

/-- What the fibers note for a provider. -/
theorem noteIdentity_foldl (ids : List Nat) (identities : ProviderIdentity → Option Nat)
    (provider : ProviderIdentity) :
    (ids.foldl runtime.noteIdentity identities provider = identities provider ∧
        ∀ id ∈ ids, ¬ runtime.Publishes id provider) ∨
      ∃ id ∈ ids, runtime.Publishes id provider ∧
        ids.foldl runtime.noteIdentity identities provider = some id := by
  induction ids generalizing identities with
  | nil => exact .inl ⟨rfl, fun _ member => absurd member List.not_mem_nil⟩
  | cons id rest ih =>
    rw [List.foldl_cons]
    rcases ih (runtime.noteIdentity identities id) with ⟨same, unpublished⟩ | ⟨other, member, published⟩
    · rw [same]
      unfold noteIdentity
      cases held : runtime.handle id with
      | none =>
        refine .inl ⟨rfl, List.forall_mem_cons.mpr ⟨fun ⟨handle, published, _⟩ => ?_, unpublished⟩⟩
        rw [held] at published
        cases published
      | some handle =>
        by_cases equal : provider = handle.provider
        · subst equal
          exact .inr ⟨id, List.mem_cons_self, ⟨handle, held, rfl⟩, Function.update_self _ _ _⟩
        · refine .inl ⟨Function.update_of_ne equal _ _, List.forall_mem_cons.mpr ⟨?_, unpublished⟩⟩
          rintro ⟨other, published, rfl⟩
          rw [held] at published
          cases published
          exact equal rfl
    · exact .inr ⟨other, List.mem_cons_of_mem id member, published⟩

/-- The fiber that is noted for a provider publishes it. -/
theorem Coordinated.providerIdentities_iff (coordinated : runtime.Coordinated)
    {provider : ProviderIdentity} {id : Nat} : runtime.providerIdentities provider = some id ↔
      id ∈ runtime.watched ∧ runtime.Publishes id provider := by
  unfold providerIdentities
  rcases noteIdentity_foldl runtime.snapshotFibers (fun _ => none) provider with
    ⟨none, unpublished⟩ | ⟨other, member, published, some⟩
  · rw [none]
    refine ⟨fun equal => ?_, fun ⟨watched, published⟩ => ?_⟩
    · cases equal
    · exact absurd published (unpublished id (mem_snapshotFibers.mpr watched))
  · rw [some]
    refine ⟨fun equal => ?_, fun ⟨_, also⟩ => ?_⟩
    · cases equal
      exact ⟨mem_snapshotFibers.mp member, published⟩
    · rw [coordinated.publisher published also]

/-- **The providers of a fiber are the watched fibers that it depends on.** -/
theorem Coordinated.mem_providers (coordinated : runtime.Coordinated) {id other : Nat} :
    other ∈ runtime.providers id ↔ other ∈ runtime.watched ∧ runtime.DependsOn id other := by
  unfold providers
  rw [List.mem_filterMap]
  constructor
  · rintro ⟨provider, pinned, found⟩
    obtain ⟨watched, published⟩ := coordinated.providerIdentities_iff.mp found
    refine ⟨watched, provider, published, ?_⟩
    cases bound : runtime.dependencyBinding id with
    | none =>
      rw [bound] at pinned
      exact absurd pinned List.not_mem_nil
    | some binding =>
      rw [bound] at pinned
      exact ⟨binding, bound, pinned⟩
  · rintro ⟨watched, provider, published, binding, bound, pinned⟩
    refine ⟨provider, ?_, coordinated.providerIdentities_iff.mpr ⟨watched, published⟩⟩
    rw [bound]
    exact pinned

theorem touches_iff {retired : ProviderIdentity} {id : Nat} : runtime.touches retired id = true ↔
    runtime.Publishes id retired ∨ runtime.Pins id retired := by
  unfold touches Publishes Pins
  rw [Bool.or_eq_true, Option.any_eq_true, Option.any_eq_true]
  simp only [decide_eq_true_eq]

/-- **The closure is the set of the affected fibers.** -/
theorem Coordinated.mem_withdrawalClosure (coordinated : runtime.Coordinated)
    {retired : ProviderIdentity} {id : Nat} :
    id ∈ runtime.withdrawalClosure retired ↔ runtime.Affected retired id := by
  have start {id : Nat} :
      id ∈ ExtTreeSet.ofList (runtime.snapshotFibers.filter (runtime.touches retired)) compare ↔
        id ∈ runtime.watched ∧ (runtime.Publishes id retired ∨ runtime.Pins id retired) := by
    rw [ExtTreeSet.mem_ofList, List.contains_iff_mem, List.mem_filter, mem_snapshotFibers, touches_iff]
  unfold withdrawalClosure
  rw [mem_grow]
  constructor
  · intro dependent
    induction dependent with
    | start member => exact .start (start.mp member)
    | follows linked _ ih =>
      exact .follows ⟨mem_snapshotFibers.mp linked.1, (coordinated.mem_providers.mp linked.2).2⟩ ih
  · intro affected
    induction affected with
    | start member => exact .start (start.mpr member)
    | follows linked member ih =>
      have watched := Affected.watched member
      exact .follows ⟨mem_snapshotFibers.mpr linked.1, coordinated.mem_providers.mpr ⟨watched, linked.2⟩⟩ ih

/-! ### The order -/

theorem Coordinated.mem_affectedProviders (coordinated : runtime.Coordinated) {affected : BTreeSet Nat}
    {id other : Nat} : other ∈ runtime.affectedProviders affected id → id ∈ affected ∧
      other ∈ affected ∧ runtime.DependsOn id other := by
  unfold affectedProviders
  split
  · rename_i inside
    intro member
    obtain ⟨provider, kept⟩ := List.mem_filter.mp member
    exact ⟨inside, (of_decide_eq_true kept).1, (coordinated.mem_providers.mp provider).2⟩
  · exact fun member => absurd member List.not_mem_nil

/-- **A fiber is drained before those it depends on.** -/
theorem Coordinated.withdrawalOrder_before (coordinated : runtime.Coordinated) {affected : BTreeSet Nat}
    {id other : Nat} (watched : other ∈ runtime.watched) (member : id ∈ affected)
    (inside : other ∈ affected) (depends : runtime.DependsOn id other) :
    (runtime.withdrawalOrder affected).idxOf id < (runtime.withdrawalOrder affected).idxOf other := by
  refine drainOrder_before member inside ?_
  have lower := coordinated.rank_lt depends
  have link : other ∈ runtime.affectedProviders affected id := by
    unfold affectedProviders
    rw [if_pos member]
    refine List.mem_filter.mpr ⟨coordinated.mem_providers.mpr ⟨watched, depends⟩, ?_⟩
    refine decide_eq_true ⟨inside, ?_⟩
    rintro rfl
    exact Nat.lt_irrefl _ lower
  have falls (node next : Nat) (linked : next ∈ runtime.affectedProviders affected node) :
      runtime.rank next < runtime.rank node :=
    coordinated.rank_lt (coordinated.mem_affectedProviders linked).2.2
  refine depth_lt (fun node _ next linked => ?_) falls (ExtTreeSet.mem_toList.mpr member) link
  exact ExtTreeSet.mem_toList.mpr (coordinated.mem_affectedProviders linked).2.1

end ReactiveRuntime

/-! ### The drain -/

instance (transition : Transition ν) : Decidable (transition = .free) :=
  match transition with
  | .free => isTrue rfl
  | .driving _ _ | .loading _ _ _ _ | .publishing _ _ _ _ _ | .cleaning _ _ _ _ _ =>
    isFalse fun same => by cases same

namespace CapabilityFiber

variable {fiber : CapabilityFiber ν}

theorem unload_transition (fiber : CapabilityFiber ν) (call : FiberCall) (force : Bool) (purpose : Cleanup) :
    (fiber.unload call force purpose).transition = .cleaning call force purpose fiber.owned.reverse [] := rfl

/-- The disposers of a cleanup run until no effect is left. -/
theorem disposeAll_cleaning (tree : ScopeTree ν) {call : FiberCall} {force : Bool} {purpose : Cleanup}
    {effects : List ScopedEffect} {errors : List EffectError}
    (cleaning : fiber.transition = .cleaning call force purpose effects errors)
    (disposer : ScopedEffect → Except Text Unit) :
    ∃ last, (fiber.disposeAll tree disposer).transition = .cleaning call force purpose [] last := by
  unfold disposeAll
  rw [cleaning]
  simp only
  induction effects generalizing fiber errors with
  | nil => exact ⟨errors, cleaning⟩
  | cons effect rest ih =>
    have after : (step tree fiber (.cleaned (disposer effect))).2.transition =
        .cleaning call force purpose rest (cleaned effect errors (disposer effect)) := by
      simp only [step, cleaning]
    exact ih after

/-- The end of a withdrawal. -/
theorem go_withdrawal (tree : ScopeTree ν) {call : FiberCall} {force : Bool}
    {detached : Option ProviderIdentity} {errors : List EffectError}
    (cleaning : fiber.transition = .cleaning call force (.withdrawal detached) [] errors) :
    (step tree fiber .go).2.state = .pending := by
  obtain ⟨binding, effects, _, same⟩ := unloaded_eq tree fiber detached errors
  simp only [step, cleaning, finish]
  rw [same]
  rfl

/-- **A deactivation leaves a fiber inactive.** -/
theorem deactivateForWithdrawal_inactive (tree : ScopeTree ν) (free : fiber.transition = .free)
    (detached : Option ProviderIdentity) (disposer : ScopedEffect → Except Text Unit) :
    (fiber.deactivateForWithdrawal tree detached disposer).2.state ≠ .active := by
  unfold deactivateForWithdrawal
  rw [begin_eq tree (.deactivateForWithdrawal detached) ⟨free, rfl⟩]
  simp only [acquire]
  split
  · obtain ⟨last, cleaning⟩ := disposeAll_cleaning tree (unload_transition _ _ _ _) disposer
    rw [go_withdrawal tree cleaning]
    exact fun same => by cases same
  · rename_i inactive
    exact fun active => inactive (.inl active)

end CapabilityFiber

namespace ReactiveRuntime

variable {runtime : ReactiveRuntime ν}

/-- No transition of a fiber is under way. -/
def AtRest (runtime : ReactiveRuntime ν) : Prop :=
  ∀ fiber ∈ runtime.fibers, fiber.transition = .free

instance : Decidable runtime.AtRest := List.decidableBAll _ _

/-- **What the drain of some fibers leaves.** -/
structure Drained (ids : List Nat) (runtime after : ReactiveRuntime ν) : Prop where
  watched : after.watched = runtime.watched
  length : after.fibers.length = runtime.fibers.length
  others : ∀ id, id ∉ ids → after.fibers[id]? = runtime.fibers[id]?
  inactive : ∀ id ∈ ids, ∀ fiber, after.fibers[id]? = some fiber → fiber.state ≠ .active

/-- **The drain of one fiber after the other.** -/
theorem drained_foldl (disposer : Nat → ScopedEffect → Except Text Unit) (retired : ProviderIdentity)
    {ids : List Nat} (once : ids.Nodup) (report : WithdrawalReport)
    (free : ∀ id ∈ ids, ∃ fiber, runtime.fibers[id]? = some fiber ∧ fiber.transition = .free) :
    (ids.foldl (drain disposer retired) (report, runtime)).1.driven = report.driven ++ ids ∧
      Drained ids runtime (ids.foldl (drain disposer retired) (report, runtime)).2 := by
  induction ids generalizing report runtime with
  | nil =>
    refine ⟨(List.append_nil _).symm, rfl, rfl, fun _ _ => rfl, fun _ member => ?_⟩
    exact absurd member List.not_mem_nil
  | cons id rest ih =>
    obtain ⟨⟨fiber, found, idle⟩, others⟩ := List.forall_mem_cons.mp free
    obtain ⟨fresh, once⟩ := List.nodup_cons.mp once
    have inside := (List.getElem?_eq_some_iff.mp found).1
    generalize drained : drain disposer retired (report, runtime) id = next
    have shape : ∃ detached, next.1.driven = report.driven ++ [id] ∧ next.2 = runtime.place id
        (fiber.deactivateForWithdrawal runtime.tree detached (disposer id)) := by
      unfold drain at drained
      rw [show (report, runtime).2.fibers[id]? = some fiber from found] at drained
      subst drained
      exact ⟨_, rfl, rfl⟩
    obtain ⟨detached, driven, placed⟩ := shape
    rw [List.foldl_cons, drained]
    have untouched {other : Nat} (apart : other ≠ id) : next.2.fibers[other]? = runtime.fibers[other]? := by
      rw [placed]
      exact List.getElem?_set_ne (Ne.symm apart)
    have still : ∀ other ∈ rest, ∃ fiber, next.2.fibers[other]? = some fiber ∧ fiber.transition = .free := by
      intro other member
      obtain ⟨rival, there, rests⟩ := others other member
      have apart : other ≠ id := fun same => fresh (same ▸ member)
      exact ⟨rival, (untouched apart).trans there, rests⟩
    obtain ⟨all, kept⟩ := ih once next.1 still
    refine ⟨?_, ?_, ?_, fun other outside => ?_, fun other member rival there => ?_⟩
    · rw [all, driven, List.append_assoc]
      rfl
    · rw [kept.watched, placed]
      rfl
    · rw [kept.length, placed]
      exact List.length_set
    · have apart : other ≠ id := fun same => outside (same ▸ List.mem_cons_self)
      rw [kept.others other fun member => outside (List.mem_cons_of_mem id member), untouched apart]
    · rcases List.mem_cons.mp member with rfl | member
      · rw [kept.others other fresh, placed] at there
        rw [show (runtime.place other _).fibers[other]? = _ from List.getElem?_set_self inside] at there
        cases there
        exact CapabilityFiber.deactivateForWithdrawal_inactive runtime.tree idle detached (disposer other)
      · exact kept.inactive other member rival there

/-! ### The withdrawal -/

/-- **A withdrawal drained the affected fibers**, each once and before those it depends on, and left no
active fiber bound to what it retired. -/
structure Withdrawn (runtime : ReactiveRuntime ν) (retired : ProviderIdentity) (report : WithdrawalReport)
    (after : ReactiveRuntime ν) : Prop where
  driven : ∀ id, id ∈ report.driven ↔ runtime.Affected retired id
  once : report.driven.Nodup
  ordered : ∀ id ∈ report.driven, ∀ other ∈ report.driven, runtime.DependsOn id other →
    report.driven.idxOf id < report.driven.idxOf other
  unbound : ∀ id ∈ after.watched, ∀ fiber, after.fibers[id]? = some fiber → fiber.state = .active →
    ¬ after.Pins id retired ∧ ∀ other ∈ report.driven, ∀ provider, runtime.Publishes other provider →
      ¬ after.Pins id provider

/-- The scopes after a call, with the fibers as they are. -/
def onTree (runtime : ReactiveRuntime ν) (tree : ScopeTree ν) : ReactiveRuntime ν :=
  { runtime with contexts := { runtime.contexts with tree := tree } }

theorem Withdrawn.of_tree {tree : ScopeTree ν} {retired : ProviderIdentity} {report : WithdrawalReport}
    {after : ReactiveRuntime ν} (withdrawn : (runtime.onTree tree).Withdrawn retired report after) :
    runtime.Withdrawn retired report after :=
  ⟨withdrawn.driven, withdrawn.once, withdrawn.ordered, withdrawn.unbound⟩

theorem Coordinated.withdraw (coordinated : runtime.Coordinated) (capability : Id) (expected : Nat) :
    (runtime.onTree (runtime.tree.step (.withdraw runtime.scope capability expected)).2).Coordinated :=
  coordinated.call (show runtime.foreign (.scope (.withdraw runtime.scope capability expected)) = true from rfl)

/-- **What the drain in the order of the withdrawal comes to.** -/
theorem Coordinated.drains (coordinated : runtime.Coordinated) (rest : runtime.AtRest)
    (disposer : Nat → ScopedEffect → Except Text Unit) (retired : ProviderIdentity)
    {last : WithdrawalReport × ReactiveRuntime ν}
    (same : (runtime.withdrawalOrder (runtime.withdrawalClosure retired)).foldl (drain disposer retired)
      (⟨[], [], [], false⟩, runtime) = last) :
    runtime.Withdrawn retired { last.1 with providerFinalized := true } last.2 := by
  have once : (runtime.withdrawalOrder (runtime.withdrawalClosure retired)).Nodup := nodup_drainOrder _ _
  have member {id : Nat} : id ∈ runtime.withdrawalOrder (runtime.withdrawalClosure retired) ↔
      runtime.Affected retired id := mem_drainOrder.trans coordinated.mem_withdrawalClosure
  obtain ⟨driven, drained⟩ := drained_foldl disposer retired once ⟨[], [], [], false⟩
    fun id inside => by
      have bound := coordinated.listed id (member.mp inside).watched
      exact ⟨_, List.getElem?_eq_getElem bound, rest _ (List.getElem_mem bound)⟩
  rw [same] at driven drained
  rw [List.nil_append] at driven
  -- A fiber that is active afterwards was not driven, so it is as it was.
  have spared {id : Nat} {fiber : CapabilityFiber ν} (there : last.2.fibers[id]? = some fiber)
      (active : fiber.state = .active) (watched : id ∈ last.2.watched) :
      ¬ runtime.Affected retired id ∧ id ∈ runtime.watched ∧
        ∀ provider, last.2.Pins id provider → runtime.Pins id provider := by
    have outside : id ∉ runtime.withdrawalOrder (runtime.withdrawalClosure retired) := fun inside =>
      drained.inactive id inside fiber there active
    refine ⟨fun affected => outside (member.mpr affected), drained.watched ▸ watched, fun provider pins => ?_⟩
    obtain ⟨binding, bound, pinned⟩ := pins
    refine ⟨binding, ?_, pinned⟩
    unfold ReactiveRuntime.dependencyBinding at bound ⊢
    rw [← drained.others id outside]
    exact bound
  refine ⟨fun id => ?_, ?_, fun id (inside : id ∈ last.1.driven) other (within : other ∈ last.1.driven)
    depends => ?_, fun id watched fiber there active => ?_⟩
  · show id ∈ last.1.driven ↔ _
    rw [driven]
    exact member
  · show last.1.driven.Nodup
    rw [driven]
    exact once
  · show last.1.driven.idxOf id < last.1.driven.idxOf other
    rw [driven] at inside within ⊢
    exact coordinated.withdrawalOrder_before (member.mp within).watched (mem_drainOrder.mp inside)
      (mem_drainOrder.mp within) depends
  · obtain ⟨unaffected, known, pins⟩ := spared there active watched
    refine ⟨fun pinned => unaffected (.start ⟨known, .inr (pins retired pinned)⟩), ?_⟩
    intro other (within : other ∈ last.1.driven) provider published pinned
    rw [driven] at within
    exact unaffected (.follows ⟨known, provider, published, pins provider pinned⟩ (member.mp within))

/-- **A withdrawal that names the generation of a local entry drains exactly the affected fibers**, for
every state of a coordinator that its only user can find it in. -/
theorem withdrawal_drains (calls : List (ContextCall ν)) (context : List ContextState)
    (known : some context ∈ ((ContextTree.root : ContextTree ν).run calls).contexts)
    (events : List (ReactiveEvent ν)) (disposer : Nat → ScopedEffect → Except Text Unit)
    (capability : Id) (entry : CapabilityHandle ν) (runtime : ReactiveRuntime ν)
    (reached : runtime = (new ((ContextTree.root : ContextTree ν).run calls) context).run events)
    (rest : runtime.AtRest) (unpoisoned : runtime.tree.poisoned = false)
    (held : runtime.getLocal capability = some entry) :
    ∃ report after, runtime.withdrawAndReconcile disposer capability entry.generation =
      (some (.ok report), after) ∧ runtime.Withdrawn entry.provider report after := by
  have coordinated : runtime.Coordinated :=
    reached ▸ (coordinated_new (ContextTree.rooted_root.run calls) known).run events
  have local_ := held
  unfold getLocal at held
  split at held
  · rename_i isOpen
    have live := (coordinated.rooted.chained _ coordinated.own).live
    have withdrawn := ScopeTree.step_withdraw live unpoisoned isOpen held
    unfold withdrawAndReconcile
    rw [local_]
    simp only
    rw [show runtime.tree.step (.withdraw runtime.scope capability entry.generation) = _ from withdrawn]
    simp only
    have later := coordinated.withdraw capability entry.generation
    rw [show runtime.tree.step (.withdraw runtime.scope capability entry.generation) = _ from withdrawn]
      at later
    exact ⟨_, _, rfl, (later.drains rest disposer entry.provider rfl).of_tree⟩
  · cases held

/-- A plugin that requires the sample. -/
def sampleConsumer : PluginDefinition := ⟨sampleB, sampleDefinition sampleB [sampleA], fun _ => .ok ()⟩

/-- A fiber is created, watched and loaded. -/
def loaded (id : Nat) (definition : PluginDefinition) : List (ReactiveEvent Unit) :=
  [.create definition 0 [], .watch id, .fiber id (.call .start), .fiber id (.acquire 0), .fiber id .go,
    .fiber id (.returned (.ok ())), .fiber id .go]

/-- A coordinator over the sample and a fiber that requires it. -/
def sampleRuntime : ReactiveRuntime Unit :=
  (new ((ContextTree.root : ContextTree Unit).run []) [⟨0, ∅, ∅⟩]).run
    (loaded 0 FiberSystem.samplePlugin ++ loaded 1 sampleConsumer)

theorem withdrawal_drains_sample : ∃ entry, sampleRuntime.getLocal sampleA = some entry ∧
    ∃ report after, sampleRuntime.withdrawAndReconcile (fun _ _ => .ok ()) sampleA entry.generation =
      (some (.ok report), after) ∧ sampleRuntime.Withdrawn entry.provider report after := by
  obtain ⟨entry, held⟩ := Option.isSome_iff_exists.mp
    (show (sampleRuntime.getLocal sampleA).isSome = true by decide +kernel)
  exact ⟨entry, held, withdrawal_drains [] [⟨0, ∅, ∅⟩] (List.mem_singleton_self _) _ _ sampleA entry
    sampleRuntime rfl (by decide +kernel) (by decide +kernel) held⟩

end ReactiveRuntime

end Kernis
