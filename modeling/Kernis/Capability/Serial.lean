/-
**What holds of a coordinator whose owner drops no future.**

* `ScopeTree.Opened` — every scope in use is open, as long as none is torn down.
* `ReactiveRuntime.Whole` — the invariant of the coordinator: its fibers are intact, and no scope is closed.
* `Whole.step`, `Whole.publish`, `Whole.withdrawAndReconcile` — everything that its owner does keeps it.
-/

import Kernis.Capability.Disposal
import Kernis.Capability.Reconcile

namespace Kernis

open Std

variable {ν : Type}

/-! ### Open scopes -/

namespace ScopeTree

variable {tree : ScopeTree ν}

/-- Every scope in use is open. -/
def Opened (tree : ScopeTree ν) : Prop :=
  ∀ scope, tree.topology.live scope = true → (tree.topology.level scope).isOpen = true

theorem opened_root : Opened (root : ScopeTree ν) := by
  intro scope live
  cases scope with
  | zero => rfl
  | succ scope => cases live

/-- Scopes that stay in use and open. -/
theorem Opened.of (opened : Opened tree) {next : ScopeTree ν}
    (shape : tree.topology.SameShape next.topology)
    (level : ∀ scope, (next.topology.level scope).isOpen = (tree.topology.level scope).isOpen) :
    Opened next := by
  intro scope live
  rw [level]
  exact opened scope ((shape.live scope).symm.trans live)

theorem Opened.locked (opened : Opened tree) {scope : Nat} {call : ScopeAnswer ν × ScopeTree ν}
    (after : tree.topology.live scope = true → Opened call.2) : Opened (tree.locked scope call).2 := by
  unfold ScopeTree.locked
  by_cases live : tree.topology.live scope
  · rw [if_neg (not_not.mpr live)]
    split
    · exact opened
    · exact after live
  · rw [if_pos live]
    exact opened

theorem Opened.child (opened : Opened tree) {scope : Nat} (live : tree.topology.live scope = true) :
    Opened { tree with topology := tree.topology.child scope } := by
  intro other lives
  show ((tree.topology.child scope).level other).isOpen = true
  by_cases fresh : other = tree.topology.scopes.length
  · rw [fresh, Topology.level_child_self]
    exact opened scope live
  · rw [Topology.level_child_ne fresh]
    exact opened other ((Topology.live_child_ne fresh).symm.trans lives)

/-- **A call that is no teardown leaves every scope open.** -/
theorem Opened.step (opened : Opened tree) (sound : tree.Sound) {call : ScopeCall ν}
    (untorn : ∀ scope, call ≠ .teardown scope) : Opened (tree.step call).2 := by
  cases call with
  | child scope => exact opened.locked opened.child
  | publish scope definition expectation =>
    refine opened.locked fun _ => ?_
    split
    · exact opened
    · exact opened
  | load scope definition context =>
    simp only [ScopeTree.step]
    split
    · exact opened
    · split
      · exact opened
      · exact opened
  | constructed publication result =>
    rcases sound.constructed_cases publication result with
      ⟨same, _⟩ | ⟨begun, value, generation, rfl, installs⟩
    · intro scope live
      rw [same] at live ⊢
      exact opened scope live
    · rw [installs.result]
      exact opened.of (Topology.sameShape_install begun.scope _) fun scope =>
        Topology.isOpen_install begun.scope scope _
  | withdraw scope capability expected =>
    refine opened.locked fun _ => ?_
    unfold ScopeTree.withdraw
    split
    · exact opened
    · exact opened.of (Topology.sameShape_remove scope capability) fun other =>
        Topology.isOpen_remove scope other capability
  | teardown scope => exact absurd rfl (untorn scope)
  | release scope =>
    simp only [ScopeTree.step]
    split
    · intro other live
      show ((tree.topology.release scope).level other).isOpen = true
      rw [Topology.level_release]
      exact opened other (Topology.live_release live).2
    · exact opened
  | elsewhere =>
    simp only [ScopeTree.step]
    split
    · exact opened
    · exact opened

end ScopeTree

namespace ContextTree

variable {contexts : ContextTree ν}

/-- **A call on the contexts is a call on the scopes at most**: itself, or a new child scope. It releases
no scope of a context. -/
theorem step_calls (contexts : ContextTree ν) (call : ContextCall ν) :
    (contexts.step call).tree = contexts.tree ∨ ∃ inner,
      (contexts.step call).tree = (contexts.tree.step inner).2 ∧
        (call = .scope inner ∨ ∃ scope, inner = .child scope) ∧
          ∀ scope, inner = .release scope → contexts.refers scope = false := by
  have derives (context : Nat) (isolation : BTreeSet Id) (intercepts : BTreeMap Id Text) :
      (contexts.derive context isolation intercepts).tree = contexts.tree ∨ ∃ scope,
        (contexts.derive context isolation intercepts).tree = (contexts.tree.step (.child scope)).2 := by
    unfold derive
    split
    · rename_i current parents found
      refine .inr ⟨current.scope, ?_⟩
      split
      · rename_i answered
        rw [answered]
      · rename_i answered
        rw [answered]
    · exact .inl rfl
  have child {context : Nat} {isolation : BTreeSet Id} {intercepts : BTreeMap Id Text} :
      (contexts.derive context isolation intercepts).tree = contexts.tree ∨ ∃ inner,
        (contexts.derive context isolation intercepts).tree = (contexts.tree.step inner).2 ∧
          (call = .scope inner ∨ ∃ scope, inner = .child scope) ∧
            ∀ scope, inner = .release scope → contexts.refers scope = false := by
    refine (derives context isolation intercepts).imp_right fun ⟨scope, same⟩ =>
      ⟨.child scope, same, .inr ⟨scope, rfl⟩, fun other equal => ?_⟩
    cases equal
  cases call with
  | fromScope scope =>
    simp only [step]
    split
    · exact .inl rfl
    · exact .inl rfl
  | extend context => exact child
  | isolate context capability => exact child
  | intercept context plugin config => exact child
  | drop context => exact .inl rfl
  | scope call =>
    cases call with
    | release scope =>
      simp only [step]
      split
      · exact .inl rfl
      · rename_i unused
        refine .inr ⟨_, rfl, .inl rfl, fun other same => ?_⟩
        cases same
        exact Bool.eq_false_iff.mpr unused
    | _ => exact .inr ⟨_, rfl, .inl rfl, fun _ same => by cases same⟩

/-- Contexts over open scopes. -/
theorem Rooted.opened (rooted : Rooted contexts) (opened : contexts.tree.Opened) {call : ContextCall ν}
    (untorn : ∀ scope, call ≠ .scope (.teardown scope)) : (contexts.step call).tree.Opened := by
  rcases contexts.step_calls call with same | ⟨inner, same, comes, _⟩
  · rw [same]
    exact opened
  · rw [same]
    refine opened.step rooted.sound fun scope equal => ?_
    subst equal
    rcases comes with given | ⟨other, child⟩
    · exact untorn scope given
    · cases child

theorem opened_run (rooted : Rooted contexts) (opened : contexts.tree.Opened)
    {calls : List (ContextCall ν)} (untorn : ∀ call ∈ calls, ∀ scope, call ≠ .scope (.teardown scope)) :
    (contexts.run calls).tree.Opened := by
  induction calls generalizing contexts with
  | nil => exact opened
  | cons call rest ih =>
    obtain ⟨first, others⟩ := List.forall_mem_cons.mp untorn
    exact ih (rooted.step call) (rooted.opened opened first) others

end ContextTree

/-! ### The invariant -/

namespace ReactiveRuntime

open CapabilityFiber FiberSystem

variable {runtime : ReactiveRuntime ν} {id : Nat} {fiber : CapabilityFiber ν}

/-- **What holds of a coordinator** none of whose futures is dropped. -/
structure Whole (runtime : ReactiveRuntime ν) : Prop where
  coordinated : runtime.Coordinated
  opened : runtime.tree.Opened
  intact : ∀ fiber ∈ runtime.fibers, Intact ⟨runtime.tree, fiber⟩

theorem whole_new {contexts : ContextTree ν} (rooted : contexts.Rooted) (opened : contexts.tree.Opened)
    {context : List ContextState} (member : some context ∈ contexts.contexts) :
    (new contexts context).Whole :=
  ⟨coordinated_new rooted member, opened, fun _ member => absurd member List.not_mem_nil⟩

/-- A call on the scopes leaves a fiber intact that has its scope and its publication. -/
theorem Whole.aside (whole : runtime.Whole) (member : fiber ∈ runtime.fibers) {call : ScopeCall ν}
    (held : call ≠ .release fiber.scope)
    (other : ∀ publication dependencies, fiber.loads = some (publication, dependencies) →
      ∀ result, call ≠ .constructed publication result) :
    Intact ⟨(runtime.tree.step call).2, fiber⟩ := by
  obtain ⟨sound, attended, kept, owns⟩ := whole.intact fiber member
  exact ⟨sound.step call, attended, kept, owns.call sound held other⟩

/-- **A call on the contexts.** -/
theorem Whole.context (whole : runtime.Whole) {call : ContextCall ν}
    (foreign : runtime.foreign call = true) (untorn : ∀ scope, call ≠ .scope (.teardown scope)) :
    Whole { runtime with contexts := runtime.contexts.step call } := by
  refine ⟨whole.coordinated.call foreign, whole.coordinated.rooted.opened whole.opened untorn,
    fun fiber member => ?_⟩
  show Intact ⟨(runtime.contexts.step call).tree, fiber⟩
  rcases runtime.contexts.step_calls call with same | ⟨inner, same, comes, unused⟩
  · rw [same]
    exact whole.intact fiber member
  · rw [same]
    refine whole.aside member ?_ fun publication dependencies loads result equal => ?_
    · intro equal
      -- The scope of a fiber is one of its context.
      obtain ⟨view, inside, named⟩ := List.mem_map.mp (whole.intact fiber member).owns.placed
      have used : runtime.contexts.refers fiber.scope = true :=
        List.any_eq_true.mpr ⟨some fiber.context, whole.coordinated.placed fiber member,
          List.any_eq_true.mpr ⟨view, inside, decide_eq_true named⟩⟩
      rw [unused fiber.scope equal] at used
      cases used
    · subst equal
      rcases comes with rfl | ⟨scope, child⟩
      · have others := List.all_eq_true.mp foreign fiber member
        exact of_decide_eq_true others (begun_of_loads loads)
      · cases child

/-- **An event of a fiber** none of whose calls is dropped. -/
theorem Whole.event (whole : runtime.Whole) (unpoisoned : runtime.tree.poisoned = false)
    (found : runtime.fibers[id]? = some fiber) {event : FiberEvent ν} (here : event.Whole) :
    (runtime.place id (fiber.step runtime.tree event)).Whole := by
  have handles := handles_step runtime.tree fiber event
  have member := List.mem_of_getElem? found
  have coordinated := whole.coordinated.handles unpoisoned found handles
  refine ⟨coordinated, ?_, fun rival there => ?_⟩
  · show (fiber.step runtime.tree event).1.Opened
    rcases handles.calls with same | ⟨call, calls, same⟩
    · rw [same]
      exact whole.opened
    · rw [same]
      refine whole.opened.step whole.coordinated.rooted.sound fun scope equal => ?_
      subst equal
      cases calls
  · obtain ⟨other, place⟩ := List.mem_iff_getElem?.mp there
    rcases place_cases place with ⟨_, rfl⟩ | ⟨different, before⟩
    · have after := (whole.intact fiber member).step (.fiber here)
      unfold FiberSystem.step at after
      rw [if_neg (by rw [unpoisoned]; exact Bool.false_ne_true)] at after
      exact after
    · have inside := List.mem_of_getElem? before
      show Intact ⟨(fiber.step runtime.tree event).1, rival⟩
      rcases handles.calls with same | ⟨call, calls, same⟩
      · rw [same]
        exact whole.intact rival inside
      · rw [same]
        refine whole.aside inside ?_ fun publication dependencies loads result equal => ?_
        · rintro rfl
          cases calls
        · subst equal
          cases calls with
          | constructed _ own =>
            exact different (whole.coordinated.apart _ _ _ _ _ _ _ found before own loads)

/-- What an owner that drops no future lets happen: no teardown, and no event of a fiber but those of calls
that run to their end. -/
def Allows : ReactiveEvent ν → Prop
  | .context call => ∀ scope, call ≠ .scope (.teardown scope)
  | .fiber _ event => event.Whole
  | _ => True

/-- **Whatever happens keeps the invariant.** -/
theorem Whole.step (whole : runtime.Whole) {event : ReactiveEvent ν} (allows : Allows event) :
    (runtime.step event).Whole := by
  unfold ReactiveRuntime.step
  split
  · exact whole
  rename_i unpoisoned
  cases event with
  | context call =>
    simp only
    split
    · exact whole.context ‹_› allows
    · exact whole
  | create definition context config =>
    simp only
    split
    · rename_i views _ found _
      have known := List.mem_of_getElem? found
      refine ⟨whole.coordinated.create definition known config, whole.opened, fun fiber inside => ?_⟩
      rcases List.mem_append.mp inside with before | now
      · exact whole.intact fiber before
      · cases List.mem_singleton.mp now
        exact intact_new whole.coordinated.rooted known definition config
    · exact whole
  | watch id =>
    have coordinated := whole.coordinated.step (.watch id)
    unfold ReactiveRuntime.step at coordinated
    rw [if_neg unpoisoned] at coordinated
    simp only at coordinated ⊢
    split
    · rename_i inside
      rw [if_pos inside] at coordinated
      exact ⟨coordinated, whole.opened, whole.intact⟩
    · exact whole
  | drop id =>
    have coordinated := whole.coordinated.step (.drop id)
    unfold ReactiveRuntime.step at coordinated
    rw [if_neg unpoisoned] at coordinated
    exact ⟨coordinated, whole.opened, whole.intact⟩
  | fiber id event =>
    simp only
    split
    · exact whole.event (Bool.eq_false_iff.mpr unpoisoned) ‹_› allows
    · exact whole

/-- **A publication in the scope of the coordinator is made of calls on the scopes.** -/
theorem publish_keeps (good : ReactiveRuntime ν → Prop)
    (keeps : ∀ (runtime : ReactiveRuntime ν) (call : ScopeCall ν), good runtime →
      (∀ scope, call ≠ .teardown scope) → good (runtime.step (.context (.scope call))))
    (start : good runtime) (definition : CapabilityDefinition) (expectation : PublishExpectation)
    (construct : ResolvedDependencies ν → Except Text ν) :
    good (runtime.publish definition expectation construct) := by
  have begun := keeps runtime (.publish runtime.scope definition expectation) start
    fun _ same => by cases same
  unfold ReactiveRuntime.publish
  simp only
  split
  · split
    · exact keeps _ _ begun fun _ same => by cases same
    · exact begun
  · exact begun

theorem allows_scope {call : ScopeCall ν} (untorn : ∀ scope, call ≠ .teardown scope) :
    Allows (.context (.scope call)) := fun scope same => untorn scope (ContextCall.scope.inj same)

theorem Whole.publish (whole : runtime.Whole) (definition : CapabilityDefinition)
    (expectation : PublishExpectation) (construct : ResolvedDependencies ν → Except Text ν) :
    (runtime.publish definition expectation construct).Whole :=
  publish_keeps Whole (fun _ _ whole untorn => whole.step (allows_scope untorn)) whole definition
    expectation construct

/-- **A call on a fiber** that anybody may make. -/
theorem Whole.begin (whole : runtime.Whole) (id : Nat) {call : FiberCall} (visible : call.visible = true) :
    (runtime.begin id call).Whole := by
  unfold ReactiveRuntime.begin
  split
  · refine (whole.step ?_).step (.acquire _)
    refine .call call fun provider same => ?_
    subst same
    cases visible
  · exact whole

end ReactiveRuntime

/-! ### A deactivation -/

namespace CapabilityFiber

variable {fiber next : CapabilityFiber ν} {tree : ScopeTree ν}

/-- A call on an attended fiber, whichever it is. -/
theorem Attended.called (attended : Attended fiber) (tree : ScopeTree ν) (call : FiberCall) :
    Attended (fiber.step tree (.call call)).2 :=
  ⟨FiberSystem.tended_fiber attended.tended rfl rfl, attended.tidy.request call⟩

/-- The disposers of a cleanup change neither the publication nor the calls that wait. -/
structure Cleans (fiber next : CapabilityFiber ν) : Prop where
  context : next.context = fiber.context
  definition : next.definition = fiber.definition
  published : next.published = fiber.published
  handle : next.handle = fiber.handle
  asked : next.disposeRequested = fiber.disposeRequested
  waiting : next.waiting = fiber.waiting

theorem cleans_disposeAll (tree : ScopeTree ν) (fiber : CapabilityFiber ν)
    (disposer : ScopedEffect → Except Text Unit) :
    Cleans fiber (fiber.disposeAll tree disposer) ∧
      (Attended fiber → Attended (fiber.disposeAll tree disposer)) := by
  have still (fiber : CapabilityFiber ν) : Cleans fiber fiber := ⟨rfl, rfl, rfl, rfl, rfl, rfl⟩
  unfold disposeAll
  split
  · rename_i effects _ cleaning
    clear cleaning
    induction effects generalizing fiber with
    | nil => exact ⟨still fiber, id⟩
    | cons effect rest ih =>
      have first : Cleans fiber (step tree fiber (.cleaned (disposer effect))).2 := by
        simp only [step]
        split
        · exact ⟨rfl, rfl, rfl, rfl, rfl, rfl⟩
        · exact still fiber
      obtain ⟨others, attends⟩ := ih (step tree fiber (.cleaned (disposer effect))).2
      exact ⟨⟨others.context.trans first.context, others.definition.trans first.definition,
        others.published.trans first.published, others.handle.trans first.handle,
        others.asked.trans first.asked, others.waiting.trans first.waiting⟩,
        fun attended => attends (attended.step tree (.cleaned _))⟩
  · exact ⟨still fiber, id⟩

/-- **What a deactivation leaves**: the fiber as it was, or unloaded. -/
structure Deactivates (tree : ScopeTree ν) (fiber : CapabilityFiber ν)
    (detached : Option ProviderIdentity) (after : ScopeTree ν × CapabilityFiber ν) : Prop where
  context : after.2.context = fiber.context
  definition : after.2.definition = fiber.definition
  published : after.2.published = fiber.published
  free : after.2.transition = .free
  asked : after.2.disposeRequested = fiber.disposeRequested
  waiting : ∀ call, some call ∈ after.2.waiting → some call ∈ fiber.waiting
  ends : after.1 = tree ∧ after.2.state = fiber.state ∧ after.2.handle = fiber.handle ∧
      after.2.dependencyEpoch = fiber.dependencyEpoch ∧ after.2.error = fiber.error ∨
    (fiber.state = .active ∨ fiber.state = .failed) ∧
      after.1 = (removeLocal tree fiber detached).2 ∧ after.2.state = .pending ∧
        after.2.handle = none ∧ after.2.dependencyEpoch = none

theorem removeLocal_congr (tree : ScopeTree ν) (context : next.context = fiber.context)
    (handle : next.handle = fiber.handle) (detached : Option ProviderIdentity) :
    removeLocal tree next detached = removeLocal tree fiber detached := by
  unfold removeLocal CapabilityFiber.scope
  rw [context, handle]

theorem deactivates (tree : ScopeTree ν) (free : fiber.transition = .free)
    (detached : Option ProviderIdentity) (disposer : ScopedEffect → Except Text Unit) :
    Deactivates tree fiber detached (fiber.deactivateForWithdrawal tree detached disposer) := by
  have waits (call other : FiberCall)
      (member : some other ∈ (fiber.waiting ++ [some call]).set fiber.waiting.length none) :
      some other ∈ fiber.waiting := by
    rw [List.set_append_right _ _ (Nat.le_refl _), Nat.sub_self] at member
    rcases List.mem_append.mp member with before | now
    · exact before
    · cases List.mem_singleton.mp now
  unfold deactivateForWithdrawal
  rw [begin_eq tree (.deactivateForWithdrawal detached) ⟨free, rfl⟩]
  simp only [acquire]
  split
  · rename_i held
    generalize begun : CapabilityFiber.unload _ _ _ _ = unloading
    have same : Cleans { fiber with
        waiting := (fiber.waiting ++ [some (FiberCall.deactivateForWithdrawal detached)]).set
          fiber.waiting.length none } unloading := by
      rw [← begun]
      exact ⟨rfl, rfl, rfl, rfl, rfl, rfl⟩
    obtain ⟨cleans, _⟩ := cleans_disposeAll tree unloading disposer
    obtain ⟨errors, cleaning⟩ := disposeAll_cleaning tree
      (begun ▸ unload_transition _ _ _ _) disposer
    generalize unloading.disposeAll tree disposer = cleaned at cleans cleaning
    obtain ⟨binding, effects, _, ended⟩ := unloaded_eq tree cleaned detached errors
    have removed := unloaded_tree tree cleaned detached errors
    rw [removeLocal_congr tree (cleans.context.trans same.context) (cleans.handle.trans same.handle)]
      at removed
    simp only [step, cleaning, finish]
    rw [ended, removed]
    exact ⟨cleans.context.trans same.context, cleans.definition.trans same.definition,
      cleans.published.trans same.published, rfl, cleans.asked.trans same.asked,
      fun call member => waits _ call (cleans.waiting.trans same.waiting ▸ member),
      .inr ⟨held, rfl, rfl, rfl, rfl⟩⟩
  · exact ⟨rfl, rfl, rfl, rfl, rfl, waits _, .inl ⟨rfl, rfl, rfl, rfl, rfl⟩⟩

variable {detached : Option ProviderIdentity} {after : ScopeTree ν × CapabilityFiber ν}

theorem Deactivates.handles (deactivates : Deactivates tree fiber detached after) :
    Handles tree fiber after := by
  obtain ⟨tree, next⟩ := after
  have idle : next.loads = none := by
    unfold loads
    rw [show next.transition = .free from deactivates.free]
  rcases deactivates.ends with ⟨same, state, handle, epoch, _⟩ | ⟨_, removed, state, handle, epoch⟩
  · cases same
    exact .stays ⟨⟨deactivates.context, deactivates.definition⟩, handle, epoch⟩ (.inl idle)
  · refine .releases ⟨deactivates.context, deactivates.definition⟩ ?_ idle handle epoch
    have removed : tree = _ := removed
    rw [removed]
    exact removeLocal_calls _ fiber detached

/-- **A deactivation leaves an intact fiber intact**, when only what is gone is detached. -/
theorem Deactivates.intact (deactivates : Deactivates tree fiber detached after)
    (intact : FiberSystem.Intact ⟨tree, fiber⟩) (attended : Attended after.2) (sound : after.1.Sound)
    (free : fiber.transition = .free) (unpoisoned : tree.poisoned = false)
    (gone : ∀ provider, detached = some provider →
      (∃ handle, fiber.handle = some handle ∧ handle.provider = provider) ∧
        ∀ (other : Nat) (id : Id) (entry : CapabilityHandle ν),
          (tree.topology.level other).entries[id]? = some entry → entry.entryId ≠ provider.2.2) :
    FiberSystem.Intact ⟨after.1, after.2⟩ := by
  obtain ⟨later, next⟩ := after
  obtain ⟨settled, _, kept, owns⟩ := intact
  have idle : next.loads = none := by
    unfold loads
    rw [show next.transition = .free from deactivates.free]
  have attached (provider : ProviderIdentity) :
      some (.deactivateForWithdrawal (some provider)) ∉ next.waiting := fun member =>
    kept.attached provider (deactivates.waiting _ member)
  rcases deactivates.ends with
    ⟨same, state, handle, _, _⟩ | ⟨_, removed, state, handle, _⟩
  · cases same
    refine ⟨sound, attended, ?_, owns.of deactivates.context deactivates.definition (.inl idle)
      deactivates.published handle⟩
    exact kept.of (deactivates.free.trans free.symm) state handle (fun given => deactivates.asked.trans given)
      attached
  · have removed : later = (removeLocal tree fiber detached).2 := removed
    have empty : next.handle = none := handle
    refine ⟨sound, attended, ⟨?_, fun held same => ?_, attached⟩, ?_⟩
    · unfold Poised
      rw [show next.transition = .free from deactivates.free, show next.state = .pending from state]
      exact ⟨(fun same => by cases same), fun same => by cases same⟩
    · rw [empty] at same
      cases same
    · show Owns later next
      rw [removed]
      cases detached with
      | none =>
        rw [← unloaded_tree tree fiber none []]
        exact owns.unloaded settled unpoisoned [] deactivates.context deactivates.definition idle
          deactivates.published empty
      | some provider =>
        obtain ⟨⟨held, holds, named⟩, absent⟩ := gone provider rfl
        have still : (removeLocal tree fiber (some provider)).2 = tree := by
          unfold removeLocal
          rw [holds, ← named]
          exact congrArg Prod.snd (if_pos rfl)
        rw [still]
        -- What the fiber published and is current would be the detached publication.
        have stale (entry : CapabilityHandle ν) (member : entry ∈ fiber.published) (other : Nat) (id : Id)
            (current : CapabilityHandle ν)
            (there : (tree.topology.level other).entries[id]? = some current) :
            current.entryId ≠ entry.entryId := by
          intro same
          have own := owns.current entry member other id current there same
          rw [holds, Option.some.injEq] at own
          subst own
          exact absent other id current there (same.trans (congrArg (fun pin => pin.2.2) named))
        have kin : next.scope = fiber.scope := by
          unfold CapabilityFiber.scope
          rw [show next.context = fiber.context from deactivates.context]
        refine ⟨?_, ?_, fun _ _ same => ?_, ?_, fun entry member other id current there same => ?_⟩
        · rw [kin, show next.context = fiber.context from deactivates.context]
          exact owns.placed
        · rw [kin]
          exact owns.live
        · rw [idle] at same
          cases same
        · rw [kin, show next.published = fiber.published from deactivates.published]
          exact owns.known
        · rw [show next.published = fiber.published from deactivates.published] at member
          exact absurd same (stale entry member other id current there)

end CapabilityFiber

/-! ### A withdrawal -/

namespace ScopeTree

variable {tree : ScopeTree ν}

/-- What a withdrawal does to the tree: nothing, or one entry is removed. -/
theorem step_withdraw_cases (scope : Nat) (capability : Id) (expected : Nat) :
    ((tree.step (.withdraw scope capability expected)).2 = tree ∧
        ∀ entry, (tree.step (.withdraw scope capability expected)).1 ≠ .withdrawn entry) ∨ ∃ entry,
      tree.step (.withdraw scope capability expected) =
          (.withdrawn entry, { tree with topology := tree.topology.remove scope capability }) ∧
        (tree.topology.level scope).entries[capability]? = some entry := by
  simp only [ScopeTree.step, ScopeTree.locked]
  split
  · exact .inl ⟨rfl, fun _ same => by cases same⟩
  · split
    · exact .inl ⟨rfl, fun _ same => by cases same⟩
    · unfold ScopeTree.withdraw
      split
      · exact .inl ⟨rfl, fun _ same => by cases same⟩
      · rename_i entry found
        refine .inr ⟨entry, rfl, ?_⟩
        unfold Topology.withdrawable at found
        split at found
        · cases found
        · split at found
          · cases found
          · rename_i held there
            split at found
            · cases found
            · cases found
              exact there

/-- A publication that is current nowhere. -/
def Retired (tree : ScopeTree ν) (provider : ProviderIdentity) : Prop :=
  ∀ (other : Nat) (id : Id) (entry : CapabilityHandle ν),
    (tree.topology.level other).entries[id]? = some entry → entry.entryId ≠ provider.2.2

/-- **What is withdrawn is current nowhere.** -/
theorem Sound.retired (sound : tree.Sound) {scope : Nat} {capability : Id}
    {entry : CapabilityHandle ν} (held : (tree.topology.level scope).entries[capability]? = some entry) :
    Retired { tree with topology := tree.topology.remove scope capability } entry.provider := by
  intro other id current there same
  have there : ((tree.topology.remove scope capability).level other).entries[id]? = some current := there
  have known := (sound.recorded scope capability entry held).2
  obtain ⟨rfl, rfl, rfl⟩ := sound.entry_eq known (Topology.entries_remove there) same
  rw [(sound.recorded _ _ _ held).1, Topology.entry_removed] at there
  cases there

/-- A withdrawal poisons nothing, and what was retired stays so. -/
theorem Retired.withdraw {provider : ProviderIdentity} (retired : tree.Retired provider) (scope : Nat)
    (capability : Id) (expected : Nat) :
    (tree.step (.withdraw scope capability expected)).2.Retired provider := by
  rcases tree.step_withdraw_cases scope capability expected with ⟨same, _⟩ | ⟨entry, same, _⟩
  · rw [same]
    exact retired
  · rw [same]
    exact fun other id current there => retired other id current (Topology.entries_remove there)

theorem poisoned_withdraw (scope : Nat) (capability : Id) (expected : Nat) :
    (tree.step (.withdraw scope capability expected)).2.poisoned = tree.poisoned := by
  rcases tree.step_withdraw_cases scope capability expected with ⟨same, _⟩ | ⟨entry, same, _⟩
  · rw [same]
  · rw [same]

end ScopeTree

namespace ReactiveRuntime

open CapabilityFiber FiberSystem

variable {runtime : ReactiveRuntime ν} {id : Nat} {fiber : CapabilityFiber ν}

/-- A coordinator at rest while a retired provider is drained. -/
structure Draining (provider : ProviderIdentity) (runtime : ReactiveRuntime ν) : Prop where
  whole : runtime.Whole
  rest : runtime.AtRest
  unpoisoned : runtime.tree.poisoned = false
  retired : runtime.tree.Retired provider

/-- **A fiber that is deactivated** leaves the others intact. -/
theorem Draining.deactivates {provider : ProviderIdentity} (draining : Draining provider runtime)
    (found : runtime.fibers[id]? = some fiber) {detached : Option ProviderIdentity}
    (gone : ∀ other, detached = some other →
      (∃ handle, fiber.handle = some handle ∧ handle.provider = other) ∧ other = provider)
    (disposer : ScopedEffect → Except Text Unit) :
    Draining provider (runtime.place id (fiber.deactivateForWithdrawal runtime.tree detached disposer)) := by
  obtain ⟨whole, rest, unpoisoned, retired⟩ := draining
  have member := List.mem_of_getElem? found
  have free := rest fiber member
  have deactivates := CapabilityFiber.deactivates runtime.tree free detached disposer
  have attended : Attended (fiber.deactivateForWithdrawal runtime.tree detached disposer).2 := by
    have called := (whole.intact fiber member).attended.called runtime.tree
      (.deactivateForWithdrawal detached)
    have begun := called.whole runtime.tree (.acquire fiber.waiting.length)
    exact ((cleans_disposeAll runtime.tree _ disposer).2 begun).step runtime.tree .go
  generalize fiber.deactivateForWithdrawal runtime.tree detached disposer = after at deactivates attended ⊢
  have coordinated := whole.coordinated.handles unpoisoned found deactivates.handles
  have calls : after.1 = runtime.tree ∨ ∃ capability generation, after.1 =
      (runtime.tree.step (.withdraw fiber.scope capability generation)).2 := by
    rcases deactivates.ends with ⟨same, _⟩ | ⟨_, removed, _⟩
    · exact .inl same
    · rw [removed]
      exact removeLocal_calls runtime.tree fiber detached
  refine ⟨⟨coordinated, ?_, fun rival there => ?_⟩, fun rival there => ?_, ?_, ?_⟩
  · show after.1.Opened
    rcases calls with same | ⟨capability, generation, same⟩
    · rw [same]
      exact whole.opened
    · rw [same]
      exact whole.opened.step whole.coordinated.rooted.sound fun _ equal => by cases equal
  · obtain ⟨other, place⟩ := List.mem_iff_getElem?.mp there
    rcases place_cases place with ⟨_, rfl⟩ | ⟨different, before⟩
    · refine deactivates.intact (whole.intact fiber member) attended coordinated.rooted.sound free
        unpoisoned fun other same => ?_
      obtain ⟨held, rfl⟩ := gone other same
      exact ⟨held, retired⟩
    · have inside := List.mem_of_getElem? before
      show Intact ⟨after.1, rival⟩
      rcases calls with same | ⟨capability, generation, same⟩
      · rw [same]
        exact whole.intact rival inside
      · rw [same]
        exact whole.aside inside (fun equal => by cases equal) fun _ _ _ _ equal => by cases equal
  · obtain ⟨other, place⟩ := List.mem_iff_getElem?.mp there
    rcases place_cases place with ⟨_, rfl⟩ | ⟨_, before⟩
    · exact deactivates.free
    · exact rest rival (List.mem_of_getElem? before)
  · show after.1.poisoned = false
    rcases calls with same | ⟨capability, generation, same⟩
    · rw [same]
      exact unpoisoned
    · rw [same, ScopeTree.poisoned_withdraw]
      exact unpoisoned
  · show after.1.Retired provider
    rcases calls with same | ⟨capability, generation, same⟩
    · rw [same]
      exact retired
    · rw [same]
      exact retired.withdraw fiber.scope capability generation

theorem Draining.drain {provider : ProviderIdentity} (draining : Draining provider runtime)
    (disposer : Nat → ScopedEffect → Except Text Unit) (report : WithdrawalReport) (id : Nat) :
    Draining provider (drain disposer provider (report, runtime) id).2 := by
  unfold ReactiveRuntime.drain
  split
  · exact draining
  · rename_i fiber found
    refine draining.deactivates found (fun other same => ?_) (disposer id)
    split at same
    · rename_i holds
      cases same
      rw [Option.any_eq_true] at holds
      obtain ⟨handle, held, named⟩ := holds
      exact ⟨⟨handle, held, of_decide_eq_true named⟩, rfl⟩
    · cases same

theorem Draining.foldl {provider : ProviderIdentity} (draining : Draining provider runtime)
    (disposer : Nat → ScopedEffect → Except Text Unit) (ids : List Nat) (report : WithdrawalReport) :
    Draining provider (ids.foldl (ReactiveRuntime.drain disposer provider) (report, runtime)).2 := by
  induction ids generalizing report runtime with
  | nil => exact draining
  | cons id rest ih => exact ih (draining.drain disposer report id) _

/-- **What a withdrawal comes to**: nothing, a call on the scopes that fails, or a drain. -/
theorem withdrawAndReconcile_cases (runtime : ReactiveRuntime ν) (whole : runtime.Whole)
    (rest : runtime.AtRest) (unpoisoned : runtime.tree.poisoned = false)
    (disposer : Nat → ScopedEffect → Except Text Unit) (capability : Id) (expected : Nat) :
    (runtime.withdrawAndReconcile disposer capability expected).2 = runtime ∨
      ∃ (provider : ProviderIdentity) (tree : ScopeTree ν) (ids : List Nat),
        Draining provider (runtime.onTree tree) ∧
        (runtime.withdrawAndReconcile disposer capability expected).2 =
          (ids.foldl (drain disposer provider) (⟨[], [], [], false⟩, runtime.onTree tree)).2 := by
  unfold ReactiveRuntime.withdrawAndReconcile
  split
  · exact .inl rfl
  have after : (runtime.onTree
      (runtime.tree.step (.withdraw runtime.scope capability expected)).2).Whole :=
    whole.context (show runtime.foreign (.scope (.withdraw runtime.scope capability expected)) = true
      from rfl) fun _ same => by cases same
  rcases runtime.tree.step_withdraw_cases runtime.scope capability expected with
    ⟨same, other⟩ | ⟨entry, same, held⟩
  · generalize runtime.tree.step (.withdraw runtime.scope capability expected) = answer at same other ⊢
    obtain ⟨answer, tree⟩ := answer
    cases same
    cases answer with
    | withdrawn entry => exact absurd rfl (other entry)
    | _ => exact .inl rfl
  · rw [same] at after ⊢
    exact .inr ⟨entry.provider, _, _,
      ⟨after, rest, unpoisoned, whole.coordinated.rooted.sound.retired held⟩, rfl⟩

/-- **A withdrawal with its drain.** -/
theorem Whole.withdrawAndReconcile (whole : runtime.Whole) (rest : runtime.AtRest)
    (unpoisoned : runtime.tree.poisoned = false) (disposer : Nat → ScopedEffect → Except Text Unit)
    (capability : Id) (expected : Nat) :
    (runtime.withdrawAndReconcile disposer capability expected).2.Whole ∧
      (runtime.withdrawAndReconcile disposer capability expected).2.AtRest := by
  rcases runtime.withdrawAndReconcile_cases whole rest unpoisoned disposer capability expected with
    same | ⟨provider, tree, ids, draining, same⟩
  · rw [same]
    exact ⟨whole, rest⟩
  · rw [same]
    have last := draining.foldl disposer ids ⟨[], [], [], false⟩
    exact ⟨last.whole, last.rest⟩

end ReactiveRuntime

end Kernis
