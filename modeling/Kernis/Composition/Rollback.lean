/-
**Rolling back an activation.**

An activation holds the plugins it has registered and the fibers it has instantiated; only those that were
started are in the lists of its modules. A rollback disposes of the started fibers one by one and of the
others with the registration of their plugin.

* `Begun` — the modules that were begun are the first ones, and only they were touched.
* `Holds` — what an activation holds: fresh fibers of the registered plugins.
* `Rolls` — what is left of it in a rollback; `Rolls.sweep`.
* `rollback_complete` — an activation that fails leaves no plugin registered and no fiber undisposed.
-/

import Kernis.Capability.Attended
import Kernis.Composition.Activation
import Kernis.Composition.Planned

namespace Kernis

open Std

variable {ν : Type}

/-! ### Lists of fibers -/

theorem modify_eq_set {α : Type} {list : List α} {index : Nat} {value : α}
    (found : list[index]? = some value) (change : α → α) :
    list.modify index change = list.set index (change value) := by
  refine List.ext_getElem? fun position => ?_
  rw [List.getElem?_modify, List.getElem?_set]
  have bound := (List.getElem?_eq_some_iff.mp found).1
  by_cases same : index = position
  · subst same
    rw [if_pos rfl, if_pos bound, found]
    simp
  · rw [if_neg same]
    simp [same]

/-- What stands in a list after one of its elements has changed. -/
theorem getElem?_of_set {α : Type} {list : List α} {index position : Nat} {value held : α}
    (found : (list.set index value)[position]? = some held) :
    index = position ∧ held = value ∨ index ≠ position ∧ list[position]? = some held := by
  rw [List.getElem?_set] at found
  by_cases same : index = position
  · rw [if_pos same] at found
    split at found
    · exact .inl ⟨same, (Option.some.inj found).symm⟩
    · cases found
  · rw [if_neg same] at found
    exact .inr ⟨same, found⟩

theorem Transition.free_of_call {transition : Transition ν} (none_ : transition.call = none) :
    transition = .free := by
  cases transition with
  | free => rfl
  | driving call force => cases none_
  | loading call force publication dependencies => cases none_
  | publishing call force publication dependencies value => cases none_
  | cleaning call force purpose effects errors => cases none_

/-- A fiber at rest stays at rest while calls run on others. -/
theorem CapabilityFiber.Goes.free {fiber next : CapabilityFiber ν} (goes : fiber.Goes next)
    (free : fiber.transition = .free) : next.transition = .free := by
  rcases goes.progress with ⟨_, same⟩ | ⟨call, _, held, _, _⟩
  · rw [free] at same
    exact Transition.free_of_call same
  · rw [free] at held
    cases held

/-! ### What an activation holds -/

/-- A module and whether it has a dispose hook. -/
def ActivatedModule.face (module : ActivatedModule) : Id × Bool := (module.moduleId, module.onDispose)

/-- A module and whether it has a dispose hook. -/
def ModuleRegistration.face (registration : ModuleRegistration ν) : Id × Bool :=
  (registration.definition.id, registration.onDispose)

/-- The modules that were begun, the last of them perhaps not complete, are the first ones; nothing was
done to another. -/
structure Begun (registrations : List (ModuleRegistration ν)) (finished : List ActivatedModule)
    (rest : List (ModuleRegistration ν)) (log : List (Id × ActivationAct))
    (current : Option ActivatedModule) : Prop where
  split : (finished ++ current.toList).map ActivatedModule.face ++ rest.map ModuleRegistration.face =
    registrations.map ModuleRegistration.face
  armed : ∀ module ∈ finished, module.hookArmed = true
  unarmed : ∀ module, current = some module → module.hookArmed = false
  started : ∀ module ∈ finished, module.fibers.map Prod.fst = module.plugins
  logged : ∀ entry ∈ log,
    entry.1 ∈ (finished ++ current.toList).map ActivatedModule.moduleId

/-- **What an activation holds**: the plugins of the modules are registered, and every fiber is one of
them, fresh and at rest unless it is awaited. `pending` are the fibers that were not started. -/
structure Holds (registry : BTreeSet Id) (fibers : List (CapabilityFiber ν)) (awaited : Option Nat)
    (owned : List ActivatedModule) (pending : List (Id × Nat)) : Prop where
  registered : ∀ pluginId : Id, pluginId ∈ registry ↔
    pluginId ∈ owned.flatMap ActivatedModule.plugins
  plugins : (owned.flatMap ActivatedModule.plugins).Nodup
  attended : ∀ fiber ∈ fibers, fiber.Attended ∧ fiber.Fresh ∧
    fiber.definition.id ∈ owned.flatMap ActivatedModule.plugins
  idle : ∀ index fiber, fibers[index]? = some fiber → awaited ≠ some index →
    fiber.transition = .free
  numbered : ((owned.flatMap ActivatedModule.fibers ++ pending).map Prod.snd).Nodup
  placed : ∀ entry ∈ owned.flatMap ActivatedModule.fibers ++ pending, ∃ fiber,
    fibers[entry.2]? = some fiber ∧ fiber.definition.id = entry.1

/-- The fibers of a module that were not started. -/
def ModulePhase.pending : ModulePhase → List (Id × Nat)
  | .registering _ | .hooking => []
  | .instantiating _ fibers | .starting fibers => fibers
  | .awaiting pluginId fiber rest => (pluginId, fiber) :: rest

/-- The plugins of a module. -/
def ModuleRegistration.pluginIds (registration : ModuleRegistration ν) : List Id :=
  registration.plugins.map fun contribution => contribution.plugin.id

/-- **How far a module is.** -/
def ModulePhase.Fits (registration : ModuleRegistration ν) (current : ActivatedModule) :
    ModulePhase → Prop
  | .registering contributions => current.fibers = [] ∧
      current.plugins ++ contributions.map (fun contribution => contribution.plugin.id) =
        registration.pluginIds
  | .instantiating contributions fibers => current.fibers = [] ∧
      current.plugins = registration.pluginIds ∧
      fibers.map Prod.fst ++ contributions.map (fun contribution => contribution.plugin.id) =
        current.plugins
  | .starting fibers => current.plugins = registration.pluginIds ∧
      current.fibers.map Prod.fst ++ fibers.map Prod.fst = current.plugins
  | .awaiting pluginId _ rest => current.plugins = registration.pluginIds ∧
      current.fibers.map Prod.fst ++ pluginId :: rest.map Prod.fst = current.plugins
  | .hooking => current.plugins = registration.pluginIds ∧
      current.fibers.map Prod.fst = current.plugins

namespace Holds

variable {registry : BTreeSet Id} {fibers : List (CapabilityFiber ν)} {awaited : Option Nat}
  {owned : List ActivatedModule} {pending : List (Id × Nat)}

/-- **A fiber changes.** -/
theorem update (holds : Holds registry fibers awaited owned pending) {index : Nat}
    {held next : CapabilityFiber ν} (found : fibers[index]? = some held) (attended : next.Attended)
    (fresh : next.Fresh) (definition : next.definition = held.definition) {later : Option Nat}
    (others : ∀ other, later ≠ some other → index ≠ other → awaited ≠ some other)
    (idle : later ≠ some index → next.transition = .free) :
    Holds registry (fibers.set index next) later owned pending where
  registered := holds.registered
  plugins := holds.plugins
  attended := by
    intro fiber member
    rcases List.mem_or_eq_of_mem_set member with before | rfl
    · exact holds.attended fiber before
    · refine ⟨attended, fresh, ?_⟩
      rw [definition]
      exact (holds.attended held (List.mem_of_getElem? found)).2.2
  idle := by
    intro position fiber here unawaited
    rcases getElem?_of_set here with ⟨same, changed⟩ | ⟨apart, before⟩
    · rw [changed]
      exact idle (same ▸ unawaited)
    · exact holds.idle position fiber before (others position unawaited apart)
  numbered := holds.numbered
  placed := by
    intro entry member
    obtain ⟨fiber, here, named⟩ := holds.placed entry member
    have bound := (List.getElem?_eq_some_iff.mp found).1
    by_cases same : index = entry.2
    · subst same
      rw [found, Option.some.injEq] at here
      subst here
      exact ⟨next, List.getElem?_set_self bound, by rw [definition, named]⟩
    · exact ⟨fiber, by rw [List.getElem?_set_ne same, here], named⟩

/-- Nothing is awaited any more. -/
theorem rest (holds : Holds registry fibers awaited owned pending)
    (idle : ∀ index fiber, fibers[index]? = some fiber → awaited = some index →
      fiber.transition = .free) (later : Option Nat) : Holds registry fibers later owned pending :=
  { holds with
    idle := fun index fiber found _ => by
      by_cases here : awaited = some index
      · exact idle index fiber found here
      · exact holds.idle index fiber found here }

/-- A fiber is started. -/
theorem start (holds : Holds registry fibers none owned pending) (tree : ScopeTree ν) (index : Nat) :
    Holds registry (fibers.modify index fun held => held.begin tree .start) (some index) owned
      pending := by
  cases found : fibers[index]? with
  | none =>
    have same : fibers.modify index (fun held => held.begin tree .start) = fibers := by
      refine List.ext_getElem? fun position => ?_
      rw [List.getElem?_modify]
      by_cases here : index = position
      · subst here
        rw [found]
        rfl
      · simp [here]
    rw [same]
    exact { holds with idle := fun position fiber here _ => holds.idle position fiber here nofun }
  | some held =>
    obtain ⟨attended, fresh, _⟩ := holds.attended held (List.mem_of_getElem? found)
    have free := holds.idle index held found nofun
    rw [modify_eq_set found]
    refine holds.update found (attended.begin tree free (.inl rfl)) (fresh.begin tree free) ?_
      (fun _ _ _ => nofun) (fun other => absurd rfl other)
    rw [CapabilityFiber.begin_start tree free]
    unfold CapabilityFiber.startDrive
    split
    · rfl
    · split
      · rfl
      · rfl

/-- Something happens to a fiber while calls run. -/
theorem step (holds : Holds registry fibers awaited owned pending) {index : Nat}
    {held : CapabilityFiber ν} (found : fibers[index]? = some held) (tree : ScopeTree ν)
    {event : FiberEvent ν} (works : event.Works) :
    Holds registry (fibers.set index (held.step tree event).2) awaited owned pending := by
  obtain ⟨attended, fresh, _⟩ := holds.attended held (List.mem_of_getElem? found)
  have goes := held.goes_step tree works
  exact holds.update found (attended.step tree works) (fresh.step attended tree works)
    goes.definition (fun _ unawaited _ => unawaited)
    fun unawaited => goes.free (holds.idle index held found unawaited)

/-- **A plugin is registered.** -/
theorem register {finished : List ActivatedModule} {current : ActivatedModule}
    (holds : Holds registry fibers none (finished ++ [current]) pending) {pluginId : Id}
    (fresh : pluginId ∉ registry) :
    Holds (registry.insert pluginId) fibers none
      (finished ++ [{ current with plugins := current.plugins ++ [pluginId] }]) pending := by
  have more : (finished ++ [{ current with plugins := current.plugins ++ [pluginId] }]).flatMap
      ActivatedModule.plugins =
        (finished ++ [current]).flatMap ActivatedModule.plugins ++ [pluginId] := by
    simp [List.flatMap_append]
  have same : (finished ++ [{ current with plugins := current.plugins ++ [pluginId] }]).flatMap
      ActivatedModule.fibers = (finished ++ [current]).flatMap ActivatedModule.fibers := by
    simp [List.flatMap_append]
  refine ⟨fun other => ?_, ?_, fun fiber member => ?_, holds.idle, ?_, ?_⟩
  · rw [more, List.mem_append, List.mem_singleton, ← holds.registered other,
      ExtTreeSet.mem_insert, Std.compare_eq_iff_eq]
    exact or_comm.trans (or_congr_right eq_comm)
  · rw [more, List.nodup_append]
    refine ⟨holds.plugins, List.nodup_singleton _, fun one first other second => ?_⟩
    rw [List.mem_singleton.mp second]
    rintro rfl
    exact fresh ((holds.registered one).mpr first)
  · obtain ⟨attended, undisposed, inside⟩ := holds.attended fiber member
    refine ⟨attended, undisposed, ?_⟩
    rw [more]
    exact List.mem_append_left _ inside
  · rw [same]
    exact holds.numbered
  · rw [same]
    exact holds.placed

/-- **A fiber is instantiated.** -/
theorem instantiate (holds : Holds registry fibers none owned pending)
    {definition : PluginDefinition} (registered : definition.id ∈ registry)
    (context : List ContextState) (config : Text) :
    Holds registry (fibers ++ [.new definition context config]) none owned
      (pending ++ [(definition.id, fibers.length)]) := by
  have bound : ∀ entry ∈ owned.flatMap ActivatedModule.fibers ++ pending,
      entry.2 < fibers.length := by
    intro entry member
    obtain ⟨fiber, found, _⟩ := holds.placed entry member
    exact (List.getElem?_eq_some_iff.mp found).1
  refine ⟨holds.registered, holds.plugins, fun fiber member => ?_, fun index fiber found _ => ?_,
    ?_, fun entry member => ?_⟩
  · rcases List.mem_append.mp member with before | now
    · exact holds.attended fiber before
    · rw [List.mem_singleton.mp now]
      exact ⟨CapabilityFiber.attended_new _ _ _, CapabilityFiber.fresh_new _ _ _,
        (holds.registered _).mp registered⟩
  · rw [List.getElem?_append] at found
    split at found
    · exact holds.idle index fiber found nofun
    · rw [List.mem_singleton.mp (List.mem_of_getElem? found)]
      rfl
  · rw [← List.append_assoc, List.map_append, List.nodup_append]
    refine ⟨holds.numbered, List.nodup_singleton _, fun one first other second => ?_⟩
    obtain ⟨entry, member, rfl⟩ := List.mem_map.mp first
    rw [List.mem_singleton.mp second]
    exact Nat.ne_of_lt (bound entry member)
  · rw [← List.append_assoc] at member
    rcases List.mem_append.mp member with before | now
    · obtain ⟨fiber, found, named⟩ := holds.placed entry before
      exact ⟨fiber, by rw [List.getElem?_append_left (bound entry before), found], named⟩
    · rw [List.mem_singleton.mp now]
      refine ⟨.new definition context config, ?_, rfl⟩
      rw [List.getElem?_append_right (Nat.le_refl _), Nat.sub_self]
      rfl

/-- Modules with the same plugins, and the same fibers with those that were not started. -/
theorem regroup (holds : Holds registry fibers awaited owned pending) {others : List ActivatedModule}
    {later : List (Id × Nat)}
    (plugins : others.flatMap ActivatedModule.plugins = owned.flatMap ActivatedModule.plugins)
    (same : others.flatMap ActivatedModule.fibers ++ later =
      owned.flatMap ActivatedModule.fibers ++ pending) :
    Holds registry fibers awaited others later := by
  refine ⟨fun pluginId => ?_, ?_, fun fiber member => ?_, holds.idle, ?_, ?_⟩
  · rw [plugins]
    exact holds.registered pluginId
  · rw [plugins]
    exact holds.plugins
  · rw [plugins]
    exact holds.attended fiber member
  · rw [same]
    exact holds.numbered
  · rw [same]
    exact holds.placed

end Holds

/-! ### What is left in a rollback -/

namespace CleanupLedger

/-- The registrations that are left. -/
def plugins (ledger : CleanupLedger) : List Id :=
  ledger.queue.flatMap ActivatedModule.plugins ++ ledger.currentPlugins

/-- The started fibers that are left. -/
def fibers (ledger : CleanupLedger) : List (Id × Nat) :=
  ledger.queue.flatMap ActivatedModule.fibers ++ ledger.currentFibers

theorem plugins_new (owned : List ActivatedModule) :
    (CleanupLedger.new owned).plugins = owned.flatMap ActivatedModule.plugins :=
  List.append_nil _

theorem fibers_new (owned : List ActivatedModule) :
    (CleanupLedger.new owned).fibers = owned.flatMap ActivatedModule.fibers :=
  List.append_nil _

end CleanupLedger

namespace RollbackWait

/-- The fibers of a taken plugin that are left. -/
def left : RollbackWait → List Nat
  | .removal _ _ rest _ => rest
  | _ => []

/-- The fiber that is disposed of. -/
def disposed : RollbackWait → Option Nat
  | .fiber index | .removal _ (some index) _ _ => some index
  | _ => none

/-- The parked step that a rollback waits for. -/
def Parks (ledger : CleanupLedger) : RollbackWait → Prop
  | .nothing => ledger.inFlight = none
  | .hook => ∃ moduleId, ledger.inFlight = some (.disposeHook moduleId)
  | .fiber index => ∃ moduleId pluginId,
    ledger.inFlight = some (.fiberDisposal moduleId pluginId index)
  | .removal pluginId _ _ _ => pluginId ∉ ledger.plugins ∧
      ∃ moduleId, ledger.inFlight = some (.registrationRemoval moduleId pluginId)

end RollbackWait

/-- Where a fiber is in a rollback: gone, fresh and known to the ledger or to the removal of its plugin,
or the one that is disposed of. -/
inductive Known (ledger : CleanupLedger) (wait : RollbackWait) (index : Nat)
    (fiber : CapabilityFiber ν) : Prop
  | gone (gone : fiber.Gone)
  | fresh (fresh : fiber.Fresh) (free : fiber.transition = .free)
      (inside : fiber.definition.id ∈ ledger.plugins ∨ index ∈ wait.left)
  | disposing (disposing : fiber.Disposing) (here : wait.disposed = some index)

/-- **What is left in a rollback.** -/
structure Rolls (registry : BTreeSet Id) (fibers : List (CapabilityFiber ν))
    (trace : List CleanupEvent) (owned : List ActivatedModule) (ledger : CleanupLedger)
    (wait : RollbackWait) : Prop where
  accounts : Accounts owned trace ledger
  between : ledger.current = none → ledger.currentFibers = [] ∧ ledger.currentPlugins = []
  registered : ∀ pluginId : Id, pluginId ∈ registry ↔ pluginId ∈ ledger.plugins
  plugins : ledger.plugins.Nodup
  queued : ∀ module ∈ ledger.queue, ∀ entry ∈ module.fibers, entry.1 ∈ module.plugins
  within : ∀ entry ∈ ledger.currentFibers, entry.1 ∈ ledger.currentPlugins
  numbered : (ledger.fibers.map Prod.snd).Nodup
  placed : ∀ entry ∈ ledger.fibers, ∃ fiber,
    fibers[entry.2]? = some fiber ∧ fiber.definition.id = entry.1 ∧ fiber.Fresh ∧
      fiber.transition = .free
  parks : wait.Parks ledger
  distinct : wait.left.Nodup
  waiting : ∀ index ∈ wait.left, wait.disposed ≠ some index ∧ ∃ fiber,
    fibers[index]? = some fiber ∧ fiber.definition.id ∉ ledger.plugins ∧ fiber.Fresh ∧
      fiber.transition = .free
  known : ∀ index fiber, fibers[index]? = some fiber →
    fiber.Attended ∧ Known ledger wait index fiber

namespace Rolls

variable {registry : BTreeSet Id} {fibers : List (CapabilityFiber ν)} {trace : List CleanupEvent}
  {owned : List ActivatedModule} {ledger : CleanupLedger} {wait : RollbackWait}

/-- A started fiber is of a plugin that is left. -/
theorem plugin_left (rolls : Rolls registry fibers trace owned ledger wait) {entry : Id × Nat}
    (member : entry ∈ ledger.fibers) : entry.1 ∈ ledger.plugins := by
  rcases List.mem_append.mp member with queued | here
  · obtain ⟨module, inside, held⟩ := List.mem_flatMap.mp queued
    exact List.mem_append_left _
      (List.mem_flatMap.mpr ⟨module, inside, rolls.queued module inside entry held⟩)
  · exact List.mem_append_right _ (rolls.within entry here)

/-- **The ledger goes on without a fiber or a registration.** -/
theorem onward (rolls : Rolls registry fibers trace owned ledger wait) {next : CleanupLedger}
    {events : List CleanupEvent} {later : RollbackWait} (accounts : Accounts owned events next)
    (between : next.current = none → next.currentFibers = [] ∧ next.currentPlugins = [])
    (plugins : next.plugins = ledger.plugins) (same : next.fibers = ledger.fibers)
    (queued : ∀ module ∈ next.queue, module ∈ ledger.queue)
    (within : ∀ entry ∈ next.currentFibers, entry.1 ∈ next.currentPlugins)
    (parks : later.Parks next) (left : wait.left = [] ∧ later.left = [])
    (known : ∀ index fiber, fibers[index]? = some fiber → fiber.Disposing →
      wait.disposed ≠ some index) : Rolls registry fibers events owned next later where
  accounts := accounts
  between := between
  registered := by
    rw [plugins]
    exact rolls.registered
  plugins := by
    rw [plugins]
    exact rolls.plugins
  queued := fun module member => rolls.queued module (queued module member)
  within := within
  numbered := by
    rw [same]
    exact rolls.numbered
  placed := by
    rw [same]
    exact rolls.placed
  parks := parks
  distinct := by
    rw [left.2]
    exact List.nodup_nil
  waiting := by
    rw [left.2]
    exact fun _ member => absurd member List.not_mem_nil
  known := by
    intro index fiber found
    obtain ⟨attended, place⟩ := rolls.known index fiber found
    refine ⟨attended, ?_⟩
    cases place with
    | gone gone => exact .gone gone
    | fresh fresh free inside =>
      rw [left.1] at inside
      refine .fresh fresh free (.inl ?_)
      rw [plugins]
      exact inside.resolve_right List.not_mem_nil
    | disposing disposing here => exact absurd here (known index fiber found disposing)

/-- **A fresh fiber is disposed of**: the ledger or the removal of its plugin has given it up. -/
theorem dispose (rolls : Rolls registry fibers trace owned ledger wait) {next : CleanupLedger}
    {events : List CleanupEvent} {later : RollbackWait} {index : Nat} {held : CapabilityFiber ν}
    (found : fibers[index]? = some held) (fresh : held.Fresh) (free : held.transition = .free)
    (tree : ScopeTree ν) (accounts : Accounts owned events next)
    (between : next.current = none → next.currentFibers = [] ∧ next.currentPlugins = [])
    (plugins : next.plugins = ledger.plugins)
    (given : ∀ entry ∈ next.fibers, entry ∈ ledger.fibers ∧ entry.2 ≠ index)
    (numbered : (next.fibers.map Prod.snd).Nodup) (queued : next.queue = ledger.queue)
    (within : ∀ entry ∈ next.currentFibers, entry.1 ∈ next.currentPlugins)
    (parks : later.Parks next) (one : wait.disposed = none) (here : later.disposed = some index)
    (left : ∀ other, other ∈ later.left ↔ other ∈ wait.left ∧ other ≠ index)
    (distinct : later.left.Nodup) :
    Rolls registry (fibers.modify index fun fiber => fiber.begin tree .dispose) events owned next
      later where
  accounts := accounts
  between := between
  registered := by
    rw [plugins]
    exact rolls.registered
  plugins := by
    rw [plugins]
    exact rolls.plugins
  queued := by
    rw [queued]
    exact rolls.queued
  within := within
  numbered := numbered
  placed := by
    intro entry member
    obtain ⟨inside, apart⟩ := given entry member
    obtain ⟨fiber, there, rest⟩ := rolls.placed entry inside
    refine ⟨fiber, ?_, rest⟩
    rw [List.getElem?_modify_ne _ _ (Ne.symm apart), there]
  parks := parks
  distinct := distinct
  waiting := by
    intro other member
    obtain ⟨inside, apart⟩ := (left other).mp member
    obtain ⟨_, fiber, there, rest⟩ := rolls.waiting other inside
    refine ⟨?_, fiber, ?_, ?_⟩
    · rw [here]
      exact fun same => apart (Option.some.inj same).symm
    · rw [List.getElem?_modify_ne _ _ (Ne.symm apart), there]
    · rw [plugins]
      exact rest
  known := by
    intro position fiber there
    obtain ⟨attended, _⟩ := rolls.known index held found
    rw [modify_eq_set found] at there
    rcases getElem?_of_set there with ⟨same, changed⟩ | ⟨apart, before⟩
    · subst same
      rw [changed]
      have undisposed : held.state ≠ .disposed := by
        intro disposed
        exact absurd ((attended.tended.settled.asked disposed).symm.trans fresh.unasked) (by decide)
      exact ⟨attended.begin tree free (.inr ⟨rfl, undisposed⟩),
        .disposing (fresh.dispose attended tree free) here⟩
    · obtain ⟨kept, place⟩ := rolls.known position fiber before
      refine ⟨kept, ?_⟩
      cases place with
      | gone gone => exact .gone gone
      | fresh fresh free inside =>
        refine .fresh fresh free ?_
        rw [plugins]
        exact inside.imp_right fun member => (left position).mpr ⟨member, Ne.symm apart⟩
      | disposing disposing other =>
        rw [one] at other
        cases other

/-- **The next module of the queue.** -/
theorem begin_ (rolls : Rolls registry fibers trace owned ledger .nothing)
    (current : ledger.current = none) {next : ActivatedModule}
    (last : ledger.queue.getLast? = some next) :
    Rolls registry fibers trace owned (ledger.beginNext next) .nothing := by
  have queue : ledger.queue = ledger.queue.dropLast ++ [next] :=
    (List.dropLast_append_getLast? next last).symm
  have member : next ∈ ledger.queue := queue ▸ List.mem_append_right _ (List.mem_singleton.mpr rfl)
  obtain ⟨noFibers, noPlugins⟩ := rolls.between current
  refine rolls.onward (rolls.accounts.begin_ rolls.parks current last) nofun ?_ ?_
    (fun module inside => List.dropLast_subset _ inside) (rolls.queued next member) rolls.parks
    ⟨rfl, rfl⟩ (fun _ _ _ _ => nofun)
  · unfold CleanupLedger.plugins
    rw [noPlugins, queue]
    simp [CleanupLedger.beginNext]
  · unfold CleanupLedger.fibers
    rw [noFibers, queue]
    simp [CleanupLedger.beginNext]

/-- **Something happens to a fiber** while calls run. -/
theorem step (rolls : Rolls registry fibers trace owned ledger wait) {index : Nat}
    {held : CapabilityFiber ν} (found : fibers[index]? = some held) (tree : ScopeTree ν)
    {event : FiberEvent ν} (works : event.Works) :
    Rolls registry (fibers.set index (held.step tree event).2) trace owned ledger wait := by
  obtain ⟨attended, place⟩ := rolls.known index held found
  have goes := held.goes_step tree works
  have bound := (List.getElem?_eq_some_iff.mp found).1
  have stays {position : Nat} {fiber : CapabilityFiber ν} (there : fibers[position]? = some fiber)
      (fresh : fiber.Fresh) (free : fiber.transition = .free) : ∃ next,
        (fibers.set index (held.step tree event).2)[position]? = some next ∧
          next.definition = fiber.definition ∧ next.Fresh ∧ next.transition = .free := by
    by_cases same : index = position
    · subst same
      rw [found, Option.some.injEq] at there
      subst there
      exact ⟨_, List.getElem?_set_self bound, goes.definition, fresh.step attended tree works,
        goes.free free⟩
    · exact ⟨fiber, by rw [List.getElem?_set_ne same, there], rfl, fresh, free⟩
  refine { rolls with placed := ?_, waiting := ?_, known := ?_ }
  · intro entry member
    obtain ⟨fiber, there, named, fresh, free⟩ := rolls.placed entry member
    obtain ⟨next, here, definition, kept⟩ := stays there fresh free
    exact ⟨next, here, by rw [definition, named], kept⟩
  · intro position member
    obtain ⟨other, fiber, there, absent, fresh, free⟩ := rolls.waiting position member
    obtain ⟨next, here, definition, kept⟩ := stays there fresh free
    exact ⟨other, next, here, by rw [definition]; exact absent, kept⟩
  · intro position fiber there
    rcases getElem?_of_set there with ⟨same, changed⟩ | ⟨_, before⟩
    · subst same
      rw [changed]
      refine ⟨attended.step tree works, ?_⟩
      cases place with
      | gone gone => exact .gone (gone.step tree works)
      | fresh fresh free inside =>
        refine .fresh (fresh.step attended tree works) (goes.free free) ?_
        rw [goes.definition]
        exact inside
      | disposing disposing here =>
        rcases disposing.step tree works with still | gone
        · exact .disposing still here
        · exact .gone gone
    · exact rolls.known position fiber before

end Rolls

/-! ### Steps of the rollback -/

namespace Activation

variable {activation : Activation ν} {owned : List ActivatedModule} {ledger : CleanupLedger}

/-- What a rollback that waits has left. -/
def Rolling (activation : Activation ν) (owned : List ActivatedModule) : Prop :=
  match activation.phase with
  | .rollingBack _ ledger wait =>
    Rolls activation.registry activation.fibers activation.trace owned ledger wait
  | .failed _ report => activation.registry = ∅ ∧
    (∀ fiber ∈ activation.fibers, fiber.Attended ∧ fiber.Gone) ∧
    activation.trace.filterMap CleanupEvent.taken = cleanupPlan owned ∧
    activation.trace.filterMap CleanupEvent.starts = activation.trace.filterMap CleanupEvent.ends ∧
    (∀ step, .lost step ∈ activation.trace →
      ∃ pluginId, step.resource = .pluginRegistration pluginId) ∧
    report.failures = activation.trace.filterMap CleanupEvent.failure ∧
    ∀ moduleId, moduleId ∈ report.cleaned ↔
      moduleId ∈ owned.map ActivatedModule.moduleId ∧ failuresOf activation.trace moduleId = []
  | _ => False

/-- What the activation makes of a round of the sweep. -/
def swept (activation : Activation ν) (cause : CompositionError) (round : CleanupLedger.Round) :
    Activation ν :=
  let swept := { activation with
    registry := match round.authority with
      | .registry plugins => plugins
      | .ownerLost => activation.registry
    trace := activation.trace ++ round.events }
  if round.finished then { swept with phase := .failed cause round.ledger.report }
  else { swept with
    phase := .rollingBack cause round.ledger
      (activation.waitFor round.ledger.inFlight) }.parked round.ledger.inFlight

theorem sweep_eq (cause : CompositionError) : activation.sweep cause ledger =
    activation.swept cause (ledger.advance (.registry activation.registry)) := rfl

/-- **The disposal of a started fiber begins.** -/
theorem rolling_fiber (cause : CompositionError)
    (rolls : Rolls activation.registry activation.fibers activation.trace owned ledger .nothing)
    {moduleId : Id} (current : ledger.current = some moduleId) {entry : Id × Nat}
    (last : ledger.currentFibers.getLast? = some entry) {events : List CleanupEvent}
    (accounts : Accounts owned (activation.trace ++ events) { ledger with
      currentFibers := ledger.currentFibers.dropLast
      inFlight := some (.fiberDisposal moduleId entry.1 entry.2) }) :
    (activation.swept cause ⟨{ ledger with
      currentFibers := ledger.currentFibers.dropLast
      inFlight := some (.fiberDisposal moduleId entry.1 entry.2) },
      .registry activation.registry, events, false⟩).Rolling owned := by
  have split : ledger.currentFibers = ledger.currentFibers.dropLast ++ [entry] :=
    (List.dropLast_append_getLast? entry last).symm
  have listed : ledger.fibers =
      (ledger.queue.flatMap ActivatedModule.fibers ++ ledger.currentFibers.dropLast) ++ [entry] := by
    rw [CleanupLedger.fibers, List.append_assoc, ← split]
  have member : entry ∈ ledger.fibers := by
    rw [listed]
    exact List.mem_append_right _ (List.mem_singleton.mpr rfl)
  obtain ⟨fiber, found, named, fresh, free⟩ := rolls.placed entry member
  have numbered := rolls.numbered
  rw [listed, List.map_append, List.nodup_append] at numbered
  refine rolls.dispose found fresh free activation.tree accounts ?_ rfl ?_ numbered.1 rfl ?_
    ⟨moduleId, entry.1, rfl⟩ rfl rfl ?_ List.nodup_nil
  · exact fun none_ => absurd (none_.symm.trans current) nofun
  · intro other inside
    refine ⟨?_, ?_⟩
    · rw [listed]
      exact List.mem_append_left _ inside
    · exact numbered.2.2 _ (List.mem_map_of_mem inside) _ (List.mem_singleton.mpr rfl)
  · exact fun other inside => rolls.within other (List.dropLast_subset _ inside)
  · exact fun other => ⟨fun inside => absurd inside List.not_mem_nil,
      fun inside => absurd inside.1 List.not_mem_nil⟩

/-- **The removal of a registration begins.** Its runtime lists the fibers of the plugin that are
fresh. -/
theorem rolling_plugin (cause : CompositionError)
    (rolls : Rolls activation.registry activation.fibers activation.trace owned ledger .nothing)
    {moduleId : Id} (current : ledger.current = some moduleId) (started : ledger.currentFibers = [])
    {pluginId : Id} (last : ledger.currentPlugins.getLast? = some pluginId)
    (accounts : Accounts owned (activation.trace ++
        (ledger.unregister (.registry activation.registry) moduleId pluginId).events)
      (ledger.unregister (.registry activation.registry) moduleId pluginId).ledger) :
    (activation.swept cause
      (ledger.unregister (.registry activation.registry) moduleId pluginId)).Rolling owned := by
  have split : ledger.currentPlugins = ledger.currentPlugins.dropLast ++ [pluginId] :=
    (List.dropLast_append_getLast? pluginId last).symm
  have whole : ledger.plugins = (ledger.queue.flatMap ActivatedModule.plugins ++
      ledger.currentPlugins.dropLast) ++ [pluginId] := by
    rw [CleanupLedger.plugins, List.append_assoc, ← split]
  have member : pluginId ∈ activation.registry := by
    rw [rolls.registered, whole]
    exact List.mem_append_right _ (List.mem_singleton.mpr rfl)
  have distinct := rolls.plugins
  rw [whole, List.nodup_append] at distinct
  have absent : pluginId ∉ ledger.queue.flatMap ActivatedModule.plugins ++
      ledger.currentPlugins.dropLast :=
    fun inside => distinct.2.2 _ inside _ (List.mem_singleton.mpr rfl) rfl
  unfold CleanupLedger.unregister at accounts ⊢
  simp only [if_pos member] at accounts ⊢
  have inList : ∀ index, index ∈ activation.listed pluginId ↔ ∃ fiber,
      activation.fibers[index]? = some fiber ∧ fiber.registered = true ∧
        fiber.definition.id = pluginId := by
    intro index
    unfold listed
    rw [List.mem_filter, List.mem_range]
    cases found : activation.fibers[index]? with
    | none => simp
    | some fiber => simp [(List.getElem?_eq_some_iff.mp found).1]
  refine ⟨accounts, ?_, fun other => ?_, distinct.1, rolls.queued, ?_, ?_, ?_, ⟨absent, moduleId, rfl⟩,
    ?_, fun index inside => ?_, fun index fiber found => ?_⟩
  · exact fun none_ => absurd (none_.symm.trans current) nofun
  · change other ∈ activation.registry.erase pluginId ↔ _
    rw [ExtTreeSet.mem_erase, rolls.registered, whole, List.mem_append, List.mem_singleton]
    constructor
    · rintro ⟨apart, before | same⟩
      · exact before
      · rw [same] at apart
        exact absurd Std.ReflCmp.compare_self apart
    · intro inside
      refine ⟨fun same => ?_, .inl inside⟩
      rw [Std.compare_eq_iff_eq] at same
      exact absent (same ▸ inside)
  · intro entry inside
    change entry ∈ ledger.currentFibers at inside
    rw [started] at inside
    cases inside
  · exact rolls.numbered
  · exact rolls.placed
  · exact List.nodup_range.filter _
  · refine ⟨nofun, ?_⟩
    obtain ⟨fiber, found, registered, named⟩ := (inList index).mp inside
    obtain ⟨_, place⟩ := rolls.known index fiber found
    refine ⟨fiber, found, ?_, ?_⟩
    · rw [named]
      exact absent
    · cases place with
      | gone gone =>
        rw [gone.unlisted] at registered
        cases registered
      | fresh fresh free inside => exact ⟨fresh, free⟩
      | disposing disposing here => cases here
  · obtain ⟨attended, place⟩ := rolls.known index fiber found
    refine ⟨attended, ?_⟩
    cases place with
    | gone gone => exact .gone gone
    | disposing disposing here => cases here
    | fresh fresh free inside =>
      refine .fresh fresh free ?_
      rw [whole] at inside
      rcases inside.resolve_right List.not_mem_nil |> List.mem_append.mp with before | same
      · exact .inl before
      · exact .inr ((inList index).mpr ⟨fiber, found, fresh.listed, List.mem_singleton.mp same⟩)

/-- **A round within a module.** -/
theorem rolling_process (cause : CompositionError)
    (distinct : (owned.map ActivatedModule.moduleId).Nodup)
    (rolls : Rolls activation.registry activation.fibers activation.trace owned ledger .nothing)
    {moduleId : Id} (current : ledger.current = some moduleId) :
    (activation.swept cause (ledger.process (.registry activation.registry) moduleId)).Rolling
      owned := by
  have idle : ledger.inFlight = none := rolls.parks
  obtain ⟨accounts, _⟩ := rolls.accounts.process distinct idle current
    (.registry activation.registry)
  unfold CleanupLedger.process at accounts ⊢
  by_cases hook : ledger.currentHook = true
  · rw [if_pos hook] at accounts ⊢
    refine rolls.onward accounts ?_ rfl rfl (fun _ => id) rolls.within ⟨moduleId, rfl⟩ ⟨rfl, rfl⟩
      (fun _ _ _ _ => nofun)
    exact fun none_ => absurd (none_.symm.trans current) nofun
  · rw [if_neg hook] at accounts ⊢
    cases fibers : ledger.currentFibers.getLast? with
    | some entry =>
      rw [fibers] at accounts
      exact rolling_fiber cause rolls current fibers accounts
    | none =>
      rw [fibers] at accounts
      rw [List.getLast?_eq_none_iff] at fibers
      cases plugins : ledger.currentPlugins.getLast? with
      | some pluginId =>
        rw [plugins] at accounts
        exact rolling_plugin cause rolls current fibers plugins accounts
      | none =>
        rw [plugins] at accounts
        rw [List.getLast?_eq_none_iff] at plugins
        unfold swept
        simp only [Bool.false_eq_true, if_false]
        rw [show (ledger.finishCurrent moduleId).inFlight = none from idle]
        exact rolls.onward accounts (fun _ => ⟨fibers, plugins⟩) rfl rfl (fun _ => id) rolls.within
          idle ⟨rfl, rfl⟩ (fun _ _ _ _ => nofun)

/-- **One round of the sweep**, which is the last one when nothing is left. -/
theorem rolling_sweep (cause : CompositionError)
    (distinct : (owned.map ActivatedModule.moduleId).Nodup)
    (rolls : Rolls activation.registry activation.fibers activation.trace owned ledger .nothing) :
    (activation.sweep cause ledger).Rolling owned := by
  rw [sweep_eq]
  unfold CleanupLedger.advance
  cases current : ledger.current with
  | some moduleId => exact rolling_process cause distinct rolls current
  | none =>
    cases last : ledger.queue.getLast? with
    | some next => exact rolling_process cause distinct (rolls.begin_ current last) rfl
    | none =>
      rw [List.getLast?_eq_none_iff] at last
      have complete : ledger.isComplete = true := by
        simp [CleanupLedger.isComplete, last, current, show ledger.inFlight = none from rolls.parks]
      have none_ : ledger.plugins = [] := by
        rw [CleanupLedger.plugins, last, (rolls.between current).2]
        rfl
      obtain ⟨taken, ended, failures, cleaned⟩ := rolls.accounts.complete complete
      refine ⟨?_, fun fiber member => ?_, ?_, ?_, ?_, ?_, ?_⟩
      · refine ExtTreeSet.ext_mem fun pluginId => ?_
        change pluginId ∈ activation.registry ↔ _
        rw [rolls.registered, none_]
        simp
      · obtain ⟨index, found⟩ := List.getElem?_of_mem member
        obtain ⟨attended, place⟩ := rolls.known index fiber found
        refine ⟨attended, ?_⟩
        cases place with
        | gone gone => exact gone
        | disposing disposing here => cases here
        | fresh fresh free inside =>
          rw [none_] at inside
          rcases inside with inside | inside
          · cases inside
          · cases inside
      · change (activation.trace ++ []).filterMap CleanupEvent.taken = _
        rw [List.append_nil, taken]
      · change (activation.trace ++ []).filterMap _ = (activation.trace ++ []).filterMap _
        rw [List.append_nil, ended]
      · change ∀ step, .lost step ∈ activation.trace ++ [] → _
        rw [List.append_nil]
        exact rolls.accounts.lost
      · change ledger.report.failures = (activation.trace ++ []).filterMap _
        rw [List.append_nil, failures]
      · change ∀ moduleId, moduleId ∈ ledger.report.cleaned ↔
          moduleId ∈ owned.map ActivatedModule.moduleId ∧
            failuresOf (activation.trace ++ []) moduleId = []
        rw [List.append_nil]
        exact cleaned

/-- A fiber that has answered is at rest. -/
theorem free_of_ready (ready : activation.ready = true) {index : Nat} {fiber : CapabilityFiber ν}
    (found : activation.fibers[index]? = some fiber)
    (awaited : activation.phase.awaited = some index) : fiber.transition = .free := by
  unfold Activation.ready at ready
  rw [awaited, Option.bind_some, found] at ready
  simp only at ready
  split at ready
  · assumption
  · cases ready

/-- A fiber at rest is not disposed of. -/
theorem not_disposing {fiber : CapabilityFiber ν} (free : fiber.transition = .free) :
    ¬ fiber.Disposing := by
  rintro ⟨⟨effects, errors, cleaning⟩, _⟩
  rw [free] at cleaning
  cases cleaning

/-- **The parked step ends.** -/
theorem rolling_settle (cause : CompositionError) {wait : RollbackWait}
    (distinct : (owned.map ActivatedModule.moduleId).Nodup)
    (rolls : Rolls activation.registry activation.fibers activation.trace owned ledger wait)
    {inFlight : InFlight} (parked : ledger.inFlight = some inFlight) (left : wait.left = [])
    (known : ∀ index fiber, activation.fibers[index]? = some fiber → fiber.Disposing →
      wait.disposed ≠ some index) (result : Except Text Unit) :
    (activation.settle cause ledger result).Rolling owned := by
  unfold settle
  simp only [parked]
  have accounts := rolls.accounts.ended distinct parked result
  cases result with
  | ok value =>
    exact rolls.onward accounts rolls.between rfl rfl (fun _ => id) rolls.within rfl ⟨left, rfl⟩ known
  | error reason =>
    exact rolls.onward accounts rolls.between rfl rfl (fun _ => id) rolls.within rfl ⟨left, rfl⟩ known

/-- Nothing is left of a plugin whose fibers are gone. -/
theorem unlist_eq {pluginId : Id} (unlisted : ∀ fiber ∈ activation.fibers,
    fiber.definition.id = pluginId → fiber.registered = false) :
    activation.unlist pluginId = activation := by
  unfold unlist
  have same : activation.fibers.map (fun held =>
      if held.definition.id = pluginId then { held with registered := false } else held) =
        activation.fibers := by
    refine (List.map_congr_left fun fiber member => ?_).trans (List.map_id _)
    by_cases named : fiber.definition.id = pluginId
    · rw [if_pos named, id, ← unlisted fiber member named]
    · rw [if_neg named, id]
  rw [same]

/-- **The rollback goes on.** -/
theorem rolling_rollBack {cause : CompositionError} {wait : RollbackWait}
    (distinct : (owned.map ActivatedModule.moduleId).Nodup)
    (phase : activation.phase = .rollingBack cause ledger wait) (ready : activation.ready = true)
    (rolls : Rolls activation.registry activation.fibers activation.trace owned ledger wait) :
    (activation.rollBack cause ledger wait).Rolling owned := by
  cases wait with
  | nothing => exact rolling_sweep cause distinct rolls
  | hook =>
    unfold rollBack Rolling
    rw [phase]
    exact rolls
  | fiber fiber =>
    obtain ⟨moduleId, pluginId, parked⟩ := rolls.parks
    refine rolling_settle cause distinct rolls parked rfl (fun index held found disposing => ?_) _
    intro here
    refine not_disposing (free_of_ready ready found ?_) disposing
    rw [phase]
    exact here
  | removal pluginId fiber rest errors =>
    obtain ⟨absent, moduleId, parked⟩ := rolls.parks
    cases fiber with
    | some fiber =>
      refine { rolls with parks := ⟨absent, moduleId, parked⟩, waiting := ?_, known := ?_ }
      · exact fun index member => ⟨nofun, (rolls.waiting index member).2⟩
      · intro index held found
        obtain ⟨attended, place⟩ := rolls.known index held found
        refine ⟨attended, ?_⟩
        cases place with
        | gone gone => exact .gone gone
        | fresh fresh free inside => exact .fresh fresh free inside
        | disposing disposing here =>
          refine absurd disposing (not_disposing (free_of_ready ready found ?_))
          rw [phase]
          exact here
    | none =>
      cases rest with
      | nil =>
        have unlisted : ∀ fiber ∈ activation.fibers, fiber.definition.id = pluginId →
            fiber.registered = false := by
          intro fiber member named
          obtain ⟨index, found⟩ := List.getElem?_of_mem member
          cases (rolls.known index fiber found).2 with
          | gone gone => exact gone.unlisted
          | disposing disposing here => cases here
          | fresh fresh free inside =>
            rw [named] at inside
            rcases inside with inside | inside
            · exact absurd inside absent
            · cases inside
        change ((activation.unlist pluginId).settle cause ledger _).Rolling owned
        rw [unlist_eq unlisted]
        exact rolling_settle cause distinct rolls parked rfl (fun _ _ _ _ => nofun) _
      | cons next rest =>
        have nodup := List.nodup_cons.mp rolls.distinct
        obtain ⟨_, fiber, found, other, fresh, free⟩ := rolls.waiting next List.mem_cons_self
        refine rolls.dispose found fresh free activation.tree rolls.accounts rolls.between rfl ?_
          rolls.numbered rfl rolls.within ⟨absent, moduleId, parked⟩ rfl rfl ?_ nodup.2
        · refine fun entry member => ⟨member, fun same => ?_⟩
          obtain ⟨owner, there, named, _⟩ := rolls.placed entry member
          rw [same, found, Option.some.injEq] at there
          subst there
          exact other (named ▸ rolls.plugin_left member)
        · intro index
          constructor
          · exact fun inside => ⟨List.mem_cons_of_mem _ inside,
              fun same => nodup.1 (same ▸ inside)⟩
          · rintro ⟨inside, apart⟩
            exact (List.mem_cons.mp inside).resolve_left apart

/-! ### Steps of the activation -/

/-- The modules of an activation. -/
abbrev Begins (registrations : List (ModuleRegistration ν)) (activation : Activation ν)
    (current : Option ActivatedModule) : Prop :=
  Begun registrations activation.finished activation.rest activation.log current

/-- The module whose activation failed, if it was one. -/
def Blames (cause : CompositionError) : Option ActivatedModule → Prop
  | some current => ∃ stage, cause = .activationFailed current.moduleId stage
  | none => ∃ errors cleanupErrors, cause = .reconciliationFailed errors cleanupErrors

/-- **What holds in every state of an activation.** -/
def Stands (registrations : List (ModuleRegistration ν)) (activation : Activation ν) : Prop :=
  match activation.phase with
  | .next => Begins registrations activation none ∧ activation.trace = [] ∧
    Holds activation.registry activation.fibers none activation.finished []
  | .module registration current phase =>
    Begins registrations activation (some current) ∧ activation.trace = [] ∧
      Holds activation.registry activation.fibers activation.phase.awaited
        (activation.finished ++ [current]) phase.pending ∧ phase.Fits registration current
  | .reconciling _ _ _ | .driving _ _ _ | .activated =>
    Begins registrations activation none ∧ activation.trace = [] ∧
      Holds activation.registry activation.fibers activation.phase.awaited activation.finished [] ∧
      activation.rest = []
  | .rollingBack cause _ _ | .failed cause _ => ∃ current,
    Begins registrations activation current ∧ Blames cause current ∧ activation.Rolling (activation.finished ++ current.toList)

variable {registrations : List (ModuleRegistration ν)}

/-- **An activation fails**, and what it holds is to be rolled back. -/
theorem stands_fail {current : Option ActivatedModule} (pending : List (Id × Nat))
    {cause : CompositionError} (begun : Begins registrations activation current)
    (blames : Blames cause current) (untouched : activation.trace = [])
    (holds : Holds activation.registry activation.fibers none
      (activation.finished ++ current.toList) pending)
    (within : ∀ module, current = some module → ∀ entry ∈ module.fibers,
      entry.1 ∈ module.plugins) :
    Stands registrations (activation.fail (activation.finished ++ current.toList) cause) := by
  refine ⟨current, begun, blames, ?_⟩
  have numbered := holds.numbered
  rw [List.map_append, List.nodup_append] at numbered
  change Rolls activation.registry activation.fibers activation.trace _ _ _
  rw [untouched]
  refine ⟨.new _, fun _ => ⟨rfl, rfl⟩, fun pluginId => ?_, ?_, fun module member entry inside => ?_,
    nofun, ?_, fun entry member => ?_, rfl, List.nodup_nil,
    fun _ member => absurd member List.not_mem_nil, fun index fiber found => ?_⟩
  · rw [holds.registered, CleanupLedger.plugins_new]
  · rw [CleanupLedger.plugins_new]
    exact holds.plugins
  · rcases List.mem_append.mp member with done | here
    · rw [← begun.started module done]
      exact List.mem_map_of_mem inside
    · exact within module (Option.mem_toList.mp here) entry inside
  · rw [CleanupLedger.fibers_new]
    exact numbered.1
  · rw [CleanupLedger.fibers_new] at member
    obtain ⟨fiber, found, named⟩ := holds.placed entry (List.mem_append_left _ member)
    exact ⟨fiber, found, named, (holds.attended fiber (List.mem_of_getElem? found)).2.1,
      holds.idle entry.2 fiber found nofun⟩
  · obtain ⟨attended, fresh, inside⟩ := holds.attended fiber (List.mem_of_getElem? found)
    refine ⟨attended, .fresh fresh (holds.idle index fiber found nofun) (.inl ?_)⟩
    rw [CleanupLedger.plugins_new]
    exact inside

/-- What is done to a module is noted with it. -/
theorem logged_one {log : List (Id × ActivationAct)} {moduleId : Id} {act : ActivationAct} :
    ∀ entry ∈ log ++ [(moduleId, act)], entry ∈ log ∨ entry.1 = moduleId := by
  intro entry member
  refine (List.mem_append.mp member).imp_right fun now => ?_
  rw [List.mem_singleton.mp now]

/-- Something is done to the current module. -/
theorem begun_log {current next : ActivatedModule}
    (begun : Begins registrations activation (some current)) (same : next.face = current.face)
    (unarmed : next.hookArmed = current.hookArmed) {later : Activation ν}
    (finished : later.finished = activation.finished) (rest : later.rest = activation.rest)
    (log : ∀ entry ∈ later.log, entry ∈ activation.log ∨ entry.1 = current.moduleId) :
    Begins registrations later (some next) := by
  refine ⟨?_, ?_, ?_, ?_, ?_⟩
  · rw [← begun.split, finished, rest]
    simp [same]
  · rw [finished]
    exact begun.armed
  · rintro module ⟨⟩
    rw [unarmed]
    exact begun.unarmed current rfl
  · rw [finished]
    exact begun.started
  · intro entry member
    have named : next.moduleId = current.moduleId := congrArg Prod.fst same
    rw [finished]
    rcases log entry member with before | now
    · simpa [named] using begun.logged entry before
    · simp [named, now]

/-- **A module is complete.** -/
theorem stands_complete {current : ActivatedModule}
    (begun : Begins registrations activation (some current)) (untouched : activation.trace = [])
    (holds : Holds activation.registry activation.fibers none (activation.finished ++ [current]) [])
    (all : current.fibers.map Prod.fst = current.plugins) :
    Stands registrations (activation.complete current) := by
  refine ⟨⟨?_, ?_, nofun, ?_, ?_⟩, untouched, ?_⟩
  · rw [← begun.split]
    simp [complete, ActivatedModule.face]
  · intro module member
    rcases List.mem_append.mp member with before | now
    · exact begun.armed module before
    · rw [List.mem_singleton.mp now]
  · intro module member
    rcases List.mem_append.mp member with before | now
    · exact begun.started module before
    · rw [List.mem_singleton.mp now]
      exact all
  · intro entry member
    simpa [complete] using begun.logged entry member
  · exact holds.regroup (by simp [complete, List.flatMap_append])
      (by simp [complete, List.flatMap_append])

/-- **The next step within a module.** -/
theorem stands_inModule {registration : ModuleRegistration ν} {current : ActivatedModule}
    {phase : ModulePhase} (here : activation.phase = .module registration current phase)
    (ready : activation.ready = true) (stands : Stands registrations activation) :
    Stands registrations (activation.inModule registration current phase) := by
  unfold Stands at stands
  rw [here] at stands
  obtain ⟨begun, untouched, holds, fits⟩ := stands
  have idle : ∀ index fiber, activation.fibers[index]? = some fiber →
      (ActivationPhase.module registration current phase).awaited = some index →
        fiber.transition = .free := by
    intro index fiber found awaited
    refine free_of_ready ready found ?_
    rw [here]
    exact awaited
  have rested := holds.rest idle none
  cases phase with
  | registering contributions =>
    obtain ⟨none_, ids⟩ := fits
    cases contributions with
    | nil =>
      have all : current.plugins = registration.pluginIds := (List.append_nil _).symm.trans ids
      exact ⟨begun_log begun (by rfl) (by rfl) rfl rfl (fun _ => .inl), untouched, rested, none_, all,
        all.symm⟩
    | cons contribution rest =>
      simp only [inModule]
      split
      · exact stands_fail _ begun ⟨_, rfl⟩ untouched rested
          (by rintro module ⟨⟩ entry member; rw [none_] at member; cases member)
      · rename_i absent
        refine ⟨begun_log begun (by rfl) (by rfl) rfl rfl logged_one, untouched, rested.register absent,
          none_, ?_⟩
        rw [← ids, List.map_cons, List.append_assoc]
        rfl
  | instantiating contributions fibers =>
    obtain ⟨none_, all, ids⟩ := fits
    have bare : ∀ module, some current = some module → ∀ entry ∈ module.fibers,
        entry.1 ∈ module.plugins := by
      rintro module ⟨⟩ entry member
      rw [none_] at member
      cases member
    cases contributions with
    | nil =>
      refine ⟨begun_log begun (by rfl) (by rfl) rfl rfl (fun _ => .inl), untouched, rested, all, ?_⟩
      rw [none_, ← ids]
      exact (List.append_nil _).symm
    | cons contribution rest =>
      simp only [inModule]
      split
      · exact stands_fail _ begun ⟨_, rfl⟩ untouched rested bare
      · rename_i registered
        rw [not_not] at registered
        split
        · exact stands_fail _ begun ⟨_, rfl⟩ untouched rested bare
        · refine ⟨begun_log begun (by rfl) (by rfl) rfl rfl logged_one, untouched,
            rested.instantiate registered _ _, none_, all, ?_⟩
          rw [← ids, List.map_append, List.map_cons, List.append_assoc]
          rfl
  | starting fibers =>
    obtain ⟨all, ids⟩ := fits
    cases fibers with
    | nil =>
      have complete : current.fibers.map Prod.fst = current.plugins :=
        (List.append_nil _).symm.trans ids
      simp only [inModule]
      split
      · exact ⟨begun_log begun (by rfl) (by rfl) rfl rfl logged_one, untouched, rested, all, complete⟩
      · exact stands_complete begun untouched rested complete
    | cons entry rest =>
      exact ⟨begun_log begun (by rfl) (by rfl) rfl rfl logged_one, untouched,
        rested.start activation.tree entry.2, all, ids⟩
  | awaiting pluginId fiber rest =>
    obtain ⟨all, ids⟩ := fits
    simp only [inModule]
    split
    · refine stands_fail _ begun ⟨_, rfl⟩ untouched rested ?_
      rintro module ⟨⟩ entry member
      rw [← ids]
      exact List.mem_append_left _ (List.mem_map_of_mem member)
    · refine ⟨begun_log begun (by rfl) (by rfl) rfl rfl (fun _ => .inl), untouched,
        rested.regroup ?_ ?_, all, ?_⟩
      · simp [List.flatMap_append]
      · simp [List.flatMap_append, ModulePhase.pending]
      · rw [← ids, List.map_append, List.append_assoc]
        rfl
    · unfold Stands
      rw [here]
      exact ⟨begun, untouched, holds, all, ids⟩
  | hooking =>
    unfold Stands inModule
    rw [here]
    exact ⟨begun, untouched, holds, fits⟩

/-- **The next module**, or the reconciliation. -/
theorem stands_nextModule (here : activation.phase = .next)
    (stands : Stands registrations activation) : Stands registrations activation.nextModule := by
  unfold Stands at stands
  rw [here] at stands
  obtain ⟨begun, untouched, holds⟩ := stands
  unfold nextModule
  split
  · rename_i rest
    exact ⟨begun, untouched, holds, rest⟩
  · rename_i registration later rest
    have split := begun.split
    rw [rest, Option.toList_none, List.append_nil] at split
    refine ⟨⟨?_, begun.armed, ?_, begun.started, fun entry member => ?_⟩, untouched,
      holds.regroup ?_ ?_, rfl, ?_⟩
    · rw [← split]
      simp [ActivatedModule.face, ModuleRegistration.face]
    · rintro module ⟨⟩
      rfl
    · have before := begun.logged entry member
      rw [Option.toList_none, List.append_nil] at before
      rw [List.map_append]
      exact List.mem_append_left _ before
    · simp [List.flatMap_append]
    · simp [List.flatMap_append, ModulePhase.pending]
    · exact List.nil_append _

/-- **The reconciliation goes on.** -/
theorem stands_reconcile {snapshot : List Nat} {drove : Bool} {report : ReconcileReport}
    (here : activation.phase = .reconciling snapshot drove report)
    (stands : Stands registrations activation) :
    Stands registrations (activation.reconcile drove report snapshot) := by
  unfold Stands at stands
  rw [here] at stands
  obtain ⟨begun, untouched, holds, rest⟩ := stands
  unfold reconcile
  split
  · split
    · exact ⟨begun, untouched,
        holds.start activation.tree _, rest⟩
    · exact ⟨begun, untouched, holds, rest⟩
  · split
    · exact ⟨begun, untouched, holds, rest⟩
    · split
      · exact ⟨begun, untouched, holds,
          rest⟩
      · have fails := stands_fail [] begun ⟨report.errors.map Prod.snd,
          report.cleanupErrors.map Prod.snd, rfl⟩ untouched
          (by rw [Option.toList_none, List.append_nil]; exact holds) nofun
        rw [Option.toList_none, List.append_nil] at fails
        exact fails

/-- A driven fiber is stable. -/
theorem stands_driven {fiber : Nat} {snapshot : List Nat} {report : ReconcileReport}
    (here : activation.phase = .driving fiber snapshot report) (ready : activation.ready = true)
    (stands : Stands registrations activation) :
    Stands registrations (activation.driven fiber snapshot report) := by
  unfold Stands at stands
  rw [here] at stands
  obtain ⟨begun, untouched, holds, rest⟩ := stands
  refine ⟨begun, untouched,
    holds.rest (fun index held found awaited => ?_) none, rest⟩
  refine free_of_ready ready found ?_
  rw [here]
  exact awaited

/-- The modules of an activation are distinct when those of the plan are. -/
theorem distinct_of_begun {current : Option ActivatedModule}
    (distinct : (registrations.map fun registration => registration.definition.id).Nodup)
    (begun : Begins registrations activation current) :
    ((activation.finished ++ current.toList).map ActivatedModule.moduleId).Nodup := by
  have ids := congrArg (List.map Prod.fst) begun.split
  rw [List.map_append, List.map_map, List.map_map, List.map_map] at ids
  have nodup : (registrations.map (Prod.fst ∘ ModuleRegistration.face)).Nodup := distinct
  rw [← ids] at nodup
  exact (List.nodup_append.mp nodup).1

/-- **A rollback retreats**: it acquires nothing and keeps its cause. -/
structure Retreats (activation later : Activation ν) (cause : CompositionError) : Prop where
  finished : later.finished = activation.finished
  rest : later.rest = activation.rest
  log : later.log = activation.log
  phase : (∃ ledger wait, later.phase = .rollingBack cause ledger wait) ∨
    ∃ report, later.phase = .failed cause report

theorem retreats_settle {cause : CompositionError} {ledger : CleanupLedger} {wait : RollbackWait}
    (phase : activation.phase = .rollingBack cause ledger wait) (result : Except Text Unit) :
    Retreats activation (activation.settle cause ledger result) cause := by
  unfold settle
  split
  · exact ⟨rfl, rfl, rfl, .inl ⟨ledger, wait, phase⟩⟩
  · exact ⟨rfl, rfl, rfl, .inl ⟨_, _, rfl⟩⟩

theorem retreats_sweep (cause : CompositionError) (ledger : CleanupLedger) :
    Retreats activation (activation.sweep cause ledger) cause := by
  unfold sweep
  simp only
  split
  · exact ⟨rfl, rfl, rfl, .inr ⟨_, rfl⟩⟩
  · unfold parked
    split
    · exact ⟨rfl, rfl, rfl, .inl ⟨_, _, rfl⟩⟩
    · exact ⟨rfl, rfl, rfl, .inl ⟨_, _, rfl⟩⟩

theorem retreats_rollBack {cause : CompositionError} {ledger : CleanupLedger} {wait : RollbackWait}
    (phase : activation.phase = .rollingBack cause ledger wait) :
    Retreats activation (activation.rollBack cause ledger wait) cause := by
  cases wait with
  | nothing => exact retreats_sweep cause ledger
  | hook => exact ⟨rfl, rfl, rfl, .inl ⟨ledger, .hook, phase⟩⟩
  | fiber fiber => exact retreats_settle phase _
  | removal pluginId fiber rest errors =>
    cases fiber with
    | some fiber => exact ⟨rfl, rfl, rfl, .inl ⟨_, _, rfl⟩⟩
    | none =>
      cases rest with
      | cons next rest => exact ⟨rfl, rfl, rfl, .inl ⟨_, _, rfl⟩⟩
      | nil =>
        have settled : Retreats (activation.unlist pluginId)
            ((activation.unlist pluginId).settle cause ledger (if errors = [] then .ok ()
              else .error (RegistryError.dispose pluginId errors).render)) cause :=
          retreats_settle (by exact phase) _
        exact ⟨settled.finished, settled.rest, settled.log, settled.phase⟩

/-- **A retreat keeps what holds.** -/
theorem stands_retreat {cause : CompositionError} {later : Activation ν}
    {current : Option ActivatedModule} (begun : Begins registrations activation current)
    (blames : Blames cause current) (retreats : Retreats activation later cause)
    (rolling : later.Rolling (activation.finished ++ current.toList)) :
    Stands registrations later := by
  obtain ⟨finished, rest, log, phase⟩ := retreats
  unfold Begins at begun
  rw [← finished, ← rest, ← log] at begun
  rw [← finished] at rolling
  unfold Stands
  rcases phase with ⟨ledger, wait, same⟩ | ⟨report, same⟩
  · rw [same]
    exact ⟨current, begun, blames, rolling⟩
  · rw [same]
    exact ⟨current, begun, blames, rolling⟩

/-- **What the activation does** between two waits. -/
theorem stands_advance
    (distinct : (registrations.map fun registration => registration.definition.id).Nodup)
    (ready : activation.ready = true) (stands : Stands registrations activation) :
    Stands registrations activation.advance := by
  unfold advance
  cases here : activation.phase with
  | next => exact stands_nextModule here stands
  | module registration current phase => exact stands_inModule here ready stands
  | reconciling snapshot drove report => exact stands_reconcile here stands
  | driving fiber snapshot report => exact stands_driven here ready stands
  | failed cause report => exact stands
  | activated => exact stands
  | rollingBack cause ledger wait =>
    have known := stands
    unfold Stands at known
    rw [here] at known
    obtain ⟨current, begun, blames, rolling⟩ := known
    have rolls := rolling
    unfold Rolling at rolls
    rw [here] at rolls
    exact stands_retreat begun blames (retreats_rollBack here)
      (rolling_rollBack (distinct_of_begun distinct begun) here ready rolls)

/-- **Something happens to a fiber** while calls run. -/
theorem stands_fiberStep {index : Nat} {event : FiberEvent ν} (works : event.Works)
    (stands : Stands registrations activation) :
    Stands registrations (activation.fiberStep index event) := by
  unfold fiberStep
  cases found : activation.fibers[index]? with
  | none => exact stands
  | some held =>
    unfold Stands at stands ⊢
    simp only
    split
    · rename_i here
      rw [here] at stands
      obtain ⟨begun, untouched, holds⟩ := stands
      exact ⟨begun, untouched, holds.step found activation.tree works⟩
    · rename_i registration current phase here
      rw [here] at stands ⊢
      obtain ⟨begun, untouched, holds, fits⟩ := stands
      exact ⟨begun, untouched, holds.step found activation.tree works, fits⟩
    · rename_i here
      rw [here] at stands ⊢
      obtain ⟨begun, untouched, holds, rest⟩ := stands
      exact ⟨begun, untouched, holds.step found activation.tree works, rest⟩
    · rename_i here
      rw [here] at stands ⊢
      obtain ⟨begun, untouched, holds, rest⟩ := stands
      exact ⟨begun, untouched, holds.step found activation.tree works, rest⟩
    · rename_i here
      rw [here] at stands ⊢
      obtain ⟨begun, untouched, holds, rest⟩ := stands
      exact ⟨begun, untouched, holds.step found activation.tree works, rest⟩
    · rename_i cause ledger wait here
      rw [here] at stands
      obtain ⟨current, begun, blames, rolling⟩ := stands
      refine ⟨current, begun, blames, ?_⟩
      unfold Rolling at rolling ⊢
      rw [here] at rolling ⊢
      exact rolling.step found activation.tree works
    · rename_i cause report here
      rw [here] at stands
      obtain ⟨current, begun, blames, rolling⟩ := stands
      refine ⟨current, begun, blames, ?_⟩
      unfold Rolling at rolling ⊢
      rw [here] at rolling ⊢
      obtain ⟨empty, gone, rest⟩ := rolling
      refine ⟨empty, fun fiber member => ?_, rest⟩
      rcases List.mem_or_eq_of_mem_set member with before | rfl
      · exact gone fiber before
      · obtain ⟨attended, left⟩ := gone held (List.mem_of_getElem? found)
        exact ⟨attended.step activation.tree works, left.step activation.tree works⟩

theorem stands_awaitedStep {event : FiberEvent ν} (works : event.Works)
    (stands : Stands registrations activation) :
    Stands registrations (activation.awaitedStep event) := by
  unfold awaitedStep
  split
  · exact stands
  · split
    · exact stands
    · exact stands_fiberStep works stands

/-- **A hook returns.** -/
theorem stands_hook
    (distinct : (registrations.map fun registration => registration.definition.id).Nodup)
    (stands : Stands registrations activation) (result : Except Text Unit) :
    Stands registrations (activation.hook result) := by
  unfold hook
  split
  · rename_i registration current here
    unfold Stands at stands
    rw [here] at stands
    obtain ⟨begun, untouched, holds, all, complete⟩ := stands
    split
    · exact stands_complete begun untouched holds complete
    · refine stands_fail _ begun ⟨_, rfl⟩ untouched holds ?_
      rintro module ⟨⟩ entry member
      rw [← complete]
      exact List.mem_map_of_mem member
  · rename_i cause ledger here
    unfold Stands at stands
    rw [here] at stands
    obtain ⟨current, begun, blames, rolling⟩ := stands
    unfold Rolling at rolling
    rw [here] at rolling
    obtain ⟨moduleId, parked⟩ := rolling.parks
    exact stands_retreat begun blames (retreats_settle here result)
      (rolling_settle cause (distinct_of_begun distinct begun) rolling parked rfl
        (fun _ _ _ _ => nofun) result)
  · exact stands

/-- **One event keeps what holds.** -/
theorem stands_step
    (distinct : (registrations.map fun registration => registration.definition.id).Nodup)
    (stands : Stands registrations activation) (event : ActivationEvent ν) :
    Stands registrations (activation.step event) := by
  cases event with
  | advance =>
    simp only [step]
    split
    · exact stands_advance distinct ‹_› stands
    · exact stands_awaitedStep .go stands
  | returned result => exact stands_awaitedStep (.returned result) stands
  | cleaned result => exact stands_awaitedStep (.cleaned result) stands
  | hook result => exact stands_hook distinct stands result
  | register fiber stack label => exact stands_fiberStep (.register stack label) stands
  | scope call =>
    simp only [step]
    split
    · exact stands
    · exact stands

end Activation

/-! ### The modules of a plan -/

section Order

variable {builder : CompositionBuilder ν} {plan : CompositionPlan ν}

/-- A plan orders its modules, each once. -/
theorem Plans.order_nodup (plans : Plans builder.modules plan) : plan.order.Nodup := by
  obtain ⟨same, _⟩ := deterministicOrder_ok.mp plans.order
  rw [same]
  exact Counting.order_nodup

theorem Plans.registrations_eq (plans : Plans builder.modules plan) :
    plan.registrations.map (fun registration => registration.definition.id) = plan.order := by
  have known : ∀ moduleId ∈ plan.order, moduleId ∈ builder.modules := by
    intro moduleId member
    obtain ⟨same, _⟩ := deterministicOrder_ok.mp plans.order
    rw [same] at member
    exact mem_dependencySets.mp (Counting.mem_of_order member)
  unfold CompositionPlan.registrations
  rw [plans.registered]
  generalize plan.order = order at known
  induction order with
  | nil => rfl
  | cons moduleId rest ih =>
    obtain ⟨registration, found⟩ := exists_lookup_of_mem (known moduleId List.mem_cons_self)
    rw [List.filterMap_cons, found]
    simp only [List.map_cons]
    rw [builder.keyed moduleId registration found,
      ih fun other member => known other (List.mem_cons_of_mem _ member)]

/-- A registration of a plan is the one of its module. -/
theorem Plans.registration (plans : Plans builder.modules plan) {registration : ModuleRegistration ν}
    (member : registration ∈ plan.registrations) :
    plan.modules[registration.definition.id]? = some registration := by
  unfold CompositionPlan.registrations at member
  rw [List.mem_filterMap] at member
  obtain ⟨moduleId, _, found⟩ := member
  rw [plans.registered] at found ⊢
  rw [builder.keyed moduleId registration found]
  exact found

end Order

/-! ### A failed activation -/

/-- The module whose dispose hook a step runs. -/
def CleanupStep.hook (step : CleanupStep) : Option Id :=
  if step.resource = .disposeHook then some step.moduleId else none

/-- The dispose hooks of a plan, the last module first. -/
theorem hook_cleanupPlan (owned : List ActivatedModule) :
    (cleanupPlan owned).filterMap CleanupStep.hook =
      ((owned.filter fun module => module.hookArmed && module.onDispose).map
        ActivatedModule.moduleId).reverse := by
  have one : ∀ module : ActivatedModule, module.steps.filterMap CleanupStep.hook =
      if module.hookArmed && module.onDispose then [module.moduleId] else [] := by
    intro module
    unfold ActivatedModule.steps moduleSteps
    rw [List.filterMap_append, List.filterMap_append, List.filterMap_map, List.filterMap_map]
    have fibers : module.fibers.reverse.filterMap (CleanupStep.hook ∘
        fun fiber => ⟨module.moduleId, .fiber fiber.1⟩) = [] :=
      List.filterMap_eq_nil_iff.mpr fun _ _ => rfl
    have plugins : module.plugins.reverse.filterMap (CleanupStep.hook ∘
        fun pluginId => ⟨module.moduleId, .pluginRegistration pluginId⟩) = [] :=
      List.filterMap_eq_nil_iff.mpr fun _ _ => rfl
    rw [fibers, plugins, List.append_nil, List.append_nil]
    split
    · rfl
    · rfl
  unfold cleanupPlan
  induction owned with
  | nil => rfl
  | cons module rest ih =>
    rw [List.reverse_cons, List.flatMap_append, List.filterMap_append, ih, List.flatMap_singleton,
      one, List.filter_cons]
    split
    · rw [List.map_cons, List.reverse_cons]
    · rw [List.append_nil]

/-- A hook that is taken is started. -/
theorem hook_taken {trace : List CleanupEvent}
    (lost : ∀ step, .lost step ∈ trace → ∃ pluginId, step.resource = .pluginRegistration pluginId) :
    (trace.filterMap CleanupEvent.taken).filterMap CleanupStep.hook =
      (trace.filterMap CleanupEvent.starts).filterMap CleanupStep.hook := by
  induction trace with
  | nil => rfl
  | cons event rest ih =>
    have later := ih fun step member => lost step (List.mem_cons_of_mem _ member)
    cases event with
    | started step =>
      change (step :: rest.filterMap CleanupEvent.taken).filterMap _ =
        (step :: rest.filterMap CleanupEvent.starts).filterMap _
      rw [List.filterMap_cons, List.filterMap_cons, later]
    | ended step result => exact later
    | lost step =>
      obtain ⟨pluginId, registration⟩ := lost step List.mem_cons_self
      have other : step.hook = none := by
        unfold CleanupStep.hook
        rw [registration]
        rfl
      change (step :: rest.filterMap CleanupEvent.taken).filterMap _ = _
      rw [List.filterMap_cons, other]
      exact later

/-- **What a failed activation leaves**: no plugin registered, every fiber disposed of once with all its
effects run, and the dispose hook run once for each module that was complete and has one. The modules that
were begun are the first ones of the plan, the failing one is the last of them, they are cleaned up in
reverse order, and nothing was done to another. -/
structure RolledBack (plan : CompositionPlan ν) (activation : Activation ν)
    (cause : CompositionError) : Prop where
  unregistered : activation.registry = ∅
  disposed : ∀ fiber ∈ activation.fibers, fiber.Gone ∧ fiber.ran.Nodup ∧
    ∀ number < fiber.effectCount, number ∈ fiber.ran
  hooks : (activation.trace.filterMap CleanupEvent.ends).filterMap CleanupStep.hook =
    ((activation.finished.map ActivatedModule.moduleId).filter fun moduleId =>
      (plan.modules[moduleId]?).any ModuleRegistration.onDispose).reverse
  modules : ∃ current : Option ActivatedModule,
    (activation.finished ++ current.toList).map ActivatedModule.moduleId <+: plan.order ∧
      Activation.Blames cause current ∧
      activation.trace.filterMap CleanupEvent.taken =
        cleanupPlan (activation.finished ++ current.toList) ∧
      activation.trace.filterMap CleanupEvent.starts =
        activation.trace.filterMap CleanupEvent.ends ∧
      ∀ entry ∈ activation.log,
        entry.1 ∈ (activation.finished ++ current.toList).map ActivatedModule.moduleId

/-- What holds at the start. -/
theorem Activation.stands_start (plan : CompositionPlan ν) (tree : ScopeTree ν) :
    Stands plan.registrations (Activation.start plan tree) := by
  have none_ {α : Type} {value : α} {claim : Prop} (member : value ∈ ([] : List α)) : claim :=
    absurd member List.not_mem_nil
  have holds : Holds ∅ ([] : List (CapabilityFiber ν)) none [] [] := by
    refine ⟨fun pluginId => ?_, List.nodup_nil, fun _ => none_, fun _ _ found => ?_,
      List.nodup_nil, fun _ => none_⟩
    · simp
    · cases found
  exact ⟨⟨rfl, fun _ => none_, nofun, fun _ => none_, fun _ => none_⟩, rfl, holds⟩

/-- **A run keeps what holds.** -/
theorem Activation.stands_run {registrations : List (ModuleRegistration ν)}
    (distinct : (registrations.map fun registration => registration.definition.id).Nodup)
    {activation : Activation ν} (stands : Stands registrations activation)
    (events : List (ActivationEvent ν)) : Stands registrations (activation.run events) := by
  induction events generalizing activation with
  | nil => exact stands
  | cons event rest ih => exact ih (stands_step distinct stands event)

/-- **A failed activation is rolled back completely**, wherever it failed, whatever the host code
answers and whatever others do to the scopes meanwhile. -/
theorem rollback_complete {builder : CompositionBuilder ν} {plan : CompositionPlan ν}
    (built : builder.build = .ok plan) (tree : ScopeTree ν) (events : List (ActivationEvent ν))
    {cause : CompositionError} {rollback : RollbackReport}
    (failed : ((Activation.start plan tree).run events).phase = .failed cause rollback) :
    RolledBack plan ((Activation.start plan tree).run events) cause := by
  have plans := plans_iff.mp built
  have ids := plans.registrations_eq
  have distinct : (plan.registrations.map fun registration => registration.definition.id).Nodup := by
    rw [ids]
    exact plans.order_nodup
  have stands := Activation.stands_run distinct (Activation.stands_start plan tree) events
  generalize (Activation.start plan tree).run events = activation at failed stands
  unfold Activation.Stands at stands
  rw [failed] at stands
  obtain ⟨current, begun, blames, rolling⟩ := stands
  unfold Activation.Rolling at rolling
  rw [failed] at rolling
  obtain ⟨empty, gone, taken, ended, lost, _, _⟩ := rolling
  have faces : (activation.finished ++ current.toList).map ActivatedModule.face <+:
      plan.registrations.map ModuleRegistration.face := ⟨_, begun.split⟩
  refine ⟨empty, fun fiber member => ?_, ?_, current, ?_, blames, taken, ended, begun.logged⟩
  · obtain ⟨attended, gone⟩ := gone fiber member
    obtain ⟨nodup, all⟩ := attended.tended.ran_once
    have answered : FiberCall.dispose ∈ fiber.answers.map Prod.fst :=
      List.count_pos_iff.mp (by rw [gone.once]; exact Nat.one_pos)
    obtain ⟨⟨call, answer⟩, inside, same⟩ := List.mem_map.mp answered
    cases same
    exact ⟨gone, nodup, all answer inside⟩
  · rw [← ended, ← hook_taken lost, taken, hook_cleanupPlan]
    congr 1
    have unarmed : current.toList.filter (fun module => module.hookArmed && module.onDispose) = [] := by
      rw [List.filter_eq_nil_iff]
      intro module member
      rw [begun.unarmed module (Option.mem_toList.mp member)]
      exact Bool.false_ne_true
    rw [List.filter_append, unarmed, List.append_nil, List.filter_map]
    congr 1
    refine List.filter_congr fun module member => ?_
    have inside := faces.subset (List.mem_map_of_mem (List.mem_append_left _ member))
    obtain ⟨registration, listed, same⟩ := List.mem_map.mp inside
    have named : registration.definition.id = module.moduleId := congrArg Prod.fst same
    have hook : registration.onDispose = module.onDispose := congrArg Prod.snd same
    rw [begun.armed module member, Bool.true_and, Function.comp, ← named,
      plans.registration listed, Option.any_some, hook]
  · have prefixes := faces.map Prod.fst
    rw [List.map_map, List.map_map] at prefixes
    rw [← ids]
    exact prefixes

/-- How an activation failed. -/
def ActivationPhase.failure {ν : Type} :
    ActivationPhase ν → Option (CompositionError × RollbackReport)
  | .failed cause rollback => some (cause, rollback)
  | _ => none

/-- Some modules are registered. -/
def CompositionBuilder.registerAll {ν : Type} (registrations : List (ModuleRegistration ν)) :
    Except CompositionError (CompositionBuilder ν) :=
  registrations.foldlM register .new

/-- A module with both hooks that needs some modules and contributes some plugins, each with its slot. -/
def sampleModule (id : Id) (dependencies : List Id) (plugins : List PluginDefinition) :
    ModuleRegistration Unit :=
  ⟨⟨id, dependencies, [], plugins.map fun plugin => .reactive
      ⟨plugin.capability.id, plugin.capability.kind, ⟨plugin.capability.replayIdentity⟩⟩, []⟩,
    [], plugins.map fun plugin => ⟨plugin, []⟩, true, true⟩

/-- A module without plugins, and one that needs it and has a plugin. -/
def sampleModules : List (ModuleRegistration Unit) :=
  [sampleModule sampleA [] [], sampleModule sampleB [sampleA] [FiberSystem.samplePlugin]]

/-- The first module is activated, the factory of the plugin registers an effect and fails, and the hook
of the first module returns. -/
def sampleFailure : List (ActivationEvent Unit) :=
  .replicate 5 .advance ++ [.hook (.ok ())] ++ .replicate 10 .advance ++
    [.register 0 0 [], .returned (.error []), .cleaned (.ok ())] ++ .replicate 10 .advance ++
    [.hook (.ok ())] ++ .replicate 2 .advance

/-- The activation fails, and what it did is rolled back. -/
theorem rollback_complete_sample :
    ∃ builder plan, CompositionBuilder.registerAll sampleModules = .ok builder ∧
      builder.build = .ok plan ∧
      ∃ rollback, ((Activation.start plan .root).run sampleFailure).phase =
          .failed (.activationFailed sampleB (.fiberStart sampleA
            (.initializationFailed sampleA (some (.factory [])) []))) rollback ∧
        RolledBack plan ((Activation.start plan .root).run sampleFailure)
          (.activationFailed sampleB (.fiberStart sampleA
            (.initializationFailed sampleA (some (.factory [])) []))) := by
  obtain ⟨builder, made, built⟩ := exists_ok_of_any
    (show ((CompositionBuilder.registerAll sampleModules).toOption.any fun builder =>
      builder.build.toOption.any fun plan =>
        ((Activation.start plan .root).run sampleFailure).phase.failure.map Prod.fst =
          some (.activationFailed sampleB (.fiberStart sampleA
            (.initializationFailed sampleA (some (.factory [])) [])))) = true by decide +kernel)
  obtain ⟨plan, built, failed⟩ := exists_ok_of_any built
  have failed := of_decide_eq_true failed
  generalize ended : ((Activation.start plan .root).run sampleFailure).phase = phase at failed
  cases phase with
  | failed cause rollback =>
    cases failed
    exact ⟨builder, plan, made, built, rollback, ended,
      rollback_complete built .root sampleFailure ended⟩
  | _ => cases failed

end Kernis
