/-
**The plugin registry.**

A plugin runtime lists the fibers that were made for it. A registry holds one runtime for each plugin; a
runtime that is taken out of it is disposed of fiber by fiber, while everybody else goes on.

* `Sweep` — a disposal of the fibers of a runtime, from its first poll to its return or its drop.
* `PluginSystem.step` — the registry, the sweeps, and whatever else happens to the contexts and the fibers.
* `careful` — whether a runtime is swept only once it is out of the registry for good.
-/

import Kernis.Capability.Reconcile
import Kernis.Composition.Module

namespace Kernis

open Std

/-! ### Sweeps -/

/-- Where a sweep stands: about to go on, waiting for the lock of a fiber, in the disposal of one, or at its
end. -/
inductive SweepPhase
  | next
  | parked (fiber ticket : Nat)
  | inside (fiber : Nat)
  | returned (answer : Except RegistryError Unit)
  | dropped

/-- Whether a disposal reported a success. -/
def SweepPhase.succeeded : SweepPhase → Bool
  | .returned (.ok ()) => true
  | _ => false

theorem SweepPhase.returned_of_succeeded {phase : SweepPhase} (ended : phase.succeeded = true) :
    phase = .returned (.ok ()) := by
  unfold succeeded at ended
  split at ended
  · rfl
  · cases ended

/-- **A disposal of the fibers of a runtime**: those that are left of the ones it listed at first. `snapshot`
and `heard` are history: the fibers that it listed, and the answers so far. -/
structure Sweep where
  runtime : Nat
  snapshot : List Nat
  left : List Nat
  errors : List FiberError
  heard : List (Nat × FiberAnswer)
  phase : SweepPhase

namespace Sweep

/-- The errors of a sweep after an answer. -/
def noted (errors : List FiberError) : FiberAnswer → List FiberError
  | .failed error => errors ++ [error]
  | _ => errors

/-- Goes on when the fiber that is disposed of has answered. -/
def settle {ν : Type} (fibers : List (CapabilityFiber ν)) (sweep : Sweep) : Sweep :=
  match sweep.phase with
  | .inside id =>
    match fibers[id]? with
    | some fiber =>
      match fiber.transition, fiber.lastAnswer with
      | .free, some answer => { sweep with
          errors := noted sweep.errors answer
          heard := sweep.heard ++ [(id, answer)]
          phase := .next }
      | _, _ => sweep
    | none => sweep
  | _ => sweep

/-- Whether a sweep waits at this place of a queue. -/
def waits (sweep : Sweep) (id index : Nat) : Bool :=
  match sweep.phase with
  | .parked fiber ticket => fiber = id ∧ ticket = index
  | _ => false

/-- Whether a sweep disposes of a fiber. -/
def holds (sweep : Sweep) (id : Nat) : Bool :=
  match sweep.phase with
  | .inside fiber => fiber = id
  | _ => false

end Sweep

/-! ### The registry -/

/-- **A registry among contexts and fibers.** A runtime's identity is its place in the list; `owners` has the
runtime of each fiber. -/
structure PluginSystem (ν : Type) where
  coordinator : ReactiveRuntime ν
  runtimes : List PluginDefinition
  owners : List Nat
  registry : BTreeMap Id Nat
  sweeps : List Sweep

/-- What can happen. `sweep` and `drop` are a poll of a sweep and the drop of its future. -/
inductive PluginEvent (ν : Type)
  | new (definition : PluginDefinition)
  | register (runtime : Nat)
  | instantiate (plugin : Id) (context : Nat) (config : Text)
  | take (plugin : Id)
  | disposeTaken (runtime : Nat)
  | remove (plugin : Id)
  | sweep (sweep : Nat)
  | drop (sweep : Nat)
  | other (event : ReactiveEvent ν)

namespace PluginSystem

variable {ν : Type}

/-- An empty registry. -/
def new (contexts : ContextTree ν) (context : List ContextState) : PluginSystem ν :=
  ⟨.new contexts context, [], [], ∅, []⟩

/-- The fibers that a runtime lists. -/
def listed (system : PluginSystem ν) (runtime : Nat) : List Nat :=
  (List.range system.coordinator.fibers.length).filter fun id =>
    system.owners[id]? = some runtime ∧ system.coordinator.fibers[id]?.any CapabilityFiber.registered

/-- The registered runtime of a plugin, and its definition. -/
def get (system : PluginSystem ν) (plugin : Id) : Option (Nat × PluginDefinition) :=
  system.registry[plugin]?.bind fun runtime => system.runtimes[runtime]?.map fun definition =>
    (runtime, definition)

/-- Registers a runtime, unless its plugin has one. -/
def register (system : PluginSystem ν) (runtime : Nat) : Except RegistryError Unit × PluginSystem ν :=
  match system.runtimes[runtime]? with
  | none => (.ok (), system)
  | some definition =>
    if definition.id ∈ system.registry then (.error (.duplicate definition.id), system)
    else (.ok (), { system with registry := system.registry.insert definition.id runtime })

/-- **Makes a fiber of a registered plugin.** -/
def instantiate (system : PluginSystem ν) (plugin : Id) (context : Nat) (config : Text) :
    Except RegistryError Nat × PluginSystem ν :=
  match system.get plugin with
  | none => (.error (.unknown plugin), system)
  | some (runtime, definition) =>
    match definition.validator config with
    | .error reason => (.error (.fiber (.invalidConfig definition.id reason)), system)
    | .ok _ => (.ok system.coordinator.fibers.length, { system with
        coordinator := system.coordinator.step (.create definition context config)
        owners := system.owners ++ [runtime] })

/-- Takes a runtime out of the registry. -/
def take (system : PluginSystem ν) (plugin : Id) : Option Nat × PluginSystem ν :=
  (system.registry[plugin]?, { system with registry := system.registry.erase plugin })

/-- **A sweep begins** with the fibers that its runtime lists. -/
def disposeTaken (system : PluginSystem ν) (runtime : Nat) : PluginSystem ν :=
  if runtime < system.runtimes.length then { system with
    sweeps := system.sweeps ++ [⟨runtime, system.listed runtime, system.listed runtime, [], [], .next⟩] }
  else system

/-- Takes a runtime out of the registry and begins to sweep it. -/
def remove (system : PluginSystem ν) (plugin : Id) : PluginSystem ν :=
  match system.take plugin with
  | (none, _) => system
  | (some runtime, taken) => taken.disposeTaken runtime

/-- Something happens to the coordinator; a sweep whose fiber has answered goes on. -/
def moves (system : PluginSystem ν) (event : ReactiveEvent ν) : PluginSystem ν :=
  let after := system.coordinator.step event
  { system with coordinator := after, sweeps := system.sweeps.map (Sweep.settle after.fibers) }

/-- A runtime lists no fiber any more. -/
def unlist (system : PluginSystem ν) (runtime : Nat) : PluginSystem ν :=
  (system.listed runtime).foldl (fun system id => system.moves (.fiber id .unlist)) system

/-- What a sweep returns. -/
def answer (system : PluginSystem ν) (sweep : Sweep) : Except RegistryError Unit :=
  match sweep.errors, system.runtimes[sweep.runtime]? with
  | error :: errors, some definition => .error (.dispose definition.id (error :: errors))
  | _, _ => .ok ()

/-- **A poll of a sweep.** -/
def sweep (system : PluginSystem ν) (index : Nat) : PluginSystem ν :=
  match system.sweeps[index]? with
  | none => system
  | some sweep =>
    match sweep.phase, sweep.left with
    | .next, id :: rest =>
      match system.coordinator.fibers[id]? with
      | none => system
      | some fiber =>
        { system with sweeps := system.sweeps.set index { sweep with
            left := rest
            phase := .parked id fiber.waiting.length } }.moves (.fiber id (.call .dispose))
    | .next, [] =>
      let cleared := system.unlist sweep.runtime
      { cleared with sweeps := cleared.sweeps.set index { sweep with
          phase := .returned (cleared.answer sweep) } }
    | .parked id ticket, _ =>
      if system.coordinator.resting id then
        { system with sweeps := system.sweeps.set index { sweep with phase := .inside id } }.moves
          (.fiber id (.acquire ticket))
      else system
    | _, _ => system

/-- **The future of a sweep is dropped**, at an await. -/
def drop (system : PluginSystem ν) (index : Nat) : PluginSystem ν :=
  match system.sweeps[index]? with
  | none => system
  | some sweep =>
    match sweep.phase with
    | .parked _ _ => { system with sweeps := system.sweeps.set index { sweep with phase := .dropped } }
    | .inside id =>
      if (system.coordinator.step (.fiber id .abandon)).resting id then
        { system with sweeps := system.sweeps.set index { sweep with phase := .dropped } }.moves
          (.fiber id .abandon)
      else system
    | _ => system

/-- Whether something else can happen: fibers are made and taken off the list by their runtimes, and the
calls of the sweeps are theirs. -/
def foreign (system : PluginSystem ν) : ReactiveEvent ν → Bool
  | .create _ _ _ => false
  | .fiber _ .unlist => false
  | .fiber id (.acquire index) => system.sweeps.all fun sweep => !sweep.waits id index
  | .fiber id .abandon => system.sweeps.all fun sweep => !sweep.holds id
  | _ => true

/-- **What happens.** A poisoned topology lock ends the run. -/
def step (system : PluginSystem ν) (event : PluginEvent ν) : PluginSystem ν :=
  if system.coordinator.tree.poisoned then system
  else
    match event with
    | .new definition => { system with runtimes := system.runtimes ++ [definition] }
    | .register runtime => (system.register runtime).2
    | .instantiate plugin context config =>
      -- A caller holds the context.
      match system.coordinator.contexts.contexts[context]? with
      | some (some _) => (system.instantiate plugin context config).2
      | _ => system
    | .take plugin => (system.take plugin).2
    | .disposeTaken runtime => system.disposeTaken runtime
    | .remove plugin => system.remove plugin
    | .sweep index => system.sweep index
    | .drop index => system.drop index
    | .other event => if system.foreign event then system.moves event else system

/-- A run of events. -/
def run (system : PluginSystem ν) (events : List (PluginEvent ν)) : PluginSystem ν :=
  events.foldl step system

/-- **Whether a runtime is swept only once it is out of the registry**, and never registered again then. -/
def careful (system : PluginSystem ν) : PluginEvent ν → Bool
  | .register runtime => system.sweeps.all fun sweep => sweep.runtime ≠ runtime
  | .disposeTaken runtime => system.registry.toList.all fun entry => entry.2 ≠ runtime
  | _ => true

/-- A run of careful events. -/
def Careful : PluginSystem ν → List (PluginEvent ν) → Prop
  | _, [] => True
  | system, event :: rest => system.careful event = true ∧ Careful (system.step event) rest

instance decidableCareful : (system : PluginSystem ν) → (events : List (PluginEvent ν)) →
    Decidable (Careful system events)
  | _, [] => .isTrue trivial
  | system, event :: rest =>
    have := decidableCareful (system.step event) rest
    inferInstanceAs (Decidable (system.careful event = true ∧ Careful (system.step event) rest))

end PluginSystem

end Kernis
