/-
**Plugin fibers.**

A fiber loads a plugin in its context, publishes the value, and unloads it again. Its transitions are
serialized by a lock, and each is cut where it awaits: at its factory, and at the disposers of its
effects. Between two cuts anything else may happen, to the fiber's flags and to the scopes.

* `CapabilityFiber` — the fields of a fiber, with the position of the call that holds its lock
  (`Transition`).
* `drive`, `returned`, `publish`, `finish` — what the holder does from one cut to the next.
* `CapabilityFiber.step` — every event of a fiber; `FiberSystem.step` — a fiber among the other users of
  its scopes.
-/

import Kernis.Capability.Sound

namespace Kernis

open Std

/-! ### The data -/

/-- A plugin: its identity, what its fibers publish and require, and its check of a configuration. -/
structure PluginDefinition where
  id : Id
  capability : CapabilityDefinition
  validator : Text → Except Text Unit

/-- The state of a fiber. -/
inductive FiberState
  | pending
  | loading
  | active
  | failed
  | unloading
  | disposed
deriving DecidableEq

/-- One exact provider: its capability, its generation and its entry. -/
abbrev ProviderIdentity := Id × Nat × Nat

/-- The exact providers that a fiber is bound to. -/
abbrev DependencyBinding := List ProviderIdentity

/-- The identity of a publication. -/
def CapabilityHandle.provider {ν : Type} (handle : CapabilityHandle ν) : ProviderIdentity :=
  (handle.definition.id, handle.generation, handle.entryId)

/-- The binding to some resolved dependencies. -/
def bindingOf {ν : Type} (dependencies : ResolvedDependencies ν) : DependencyBinding :=
  dependencies.map fun dependency =>
    (dependency.1, dependency.2.generation, dependency.2.entryId)

/-- An effect, numbered by its registration. -/
structure ScopedEffect where
  number : Nat
  label : Text
deriving DecidableEq

/-- The effects of one load. Once closed it takes no further ones. -/
structure EffectStack where
  effects : List ScopedEffect
  closed : Bool
deriving DecidableEq

/-- What goes wrong in a cleanup: a disposer, or the removal of the publication. -/
inductive EffectError
  | disposer (label : Text) (reason : Text)
  | scope (error : ScopeError)
deriving DecidableEq

/-- Why a load failed: its factory, or the admission of its publication. -/
inductive LoadFailure
  | factory (reason : Text)
  | refused (error : ScopeError)
deriving DecidableEq

/-- How a call on a fiber fails. A missing reason is the default text. -/
inductive FiberError
  | disposed
  | invalidConfig (plugin : Id) (reason : Text)
  | initializationFailed (plugin : Id) (reason : Option LoadFailure) (cleanupErrors : List EffectError)
  | scope (error : ScopeError)
  | cleanup (errors : List EffectError)
deriving DecidableEq

/-- The calls that take the transition lock. -/
inductive FiberCall
  | start
  | restart
  | update (config : Text)
  | deactivateForWithdrawal (detached : Option ProviderIdentity)
  | dispose
deriving DecidableEq

/-- How a call on a fiber ends. -/
inductive FiberAnswer
  | state (state : FiberState)
  | done
  | failed (error : FiberError)
deriving DecidableEq

/-- What a cleanup is for. The first four unload the fiber; the others discard what a load made. -/
inductive Cleanup
  | reload
  | missing
  | withdrawal (detached : Option ProviderIdentity)
  | disposal
  | changed
  | refused (error : ScopeError)
  | staleValue
  | staleError
  | failed (reason : Text)
deriving DecidableEq

/-- Where the holder of the transition lock stands: at the head of its loop, at its factory, before its
publication, or in a cleanup with the effects that are left, in the order of their disposal. -/
inductive Transition (ν : Type)
  | free
  | driving (call : FiberCall) (force : Bool)
  | loading (call : FiberCall) (force : Bool) (publication : Nat)
      (dependencies : ResolvedDependencies ν)
  | publishing (call : FiberCall) (force : Bool) (publication : Nat)
      (dependencies : ResolvedDependencies ν) (value : ν)
  | cleaning (call : FiberCall) (force : Bool) (purpose : Cleanup) (effects : List ScopedEffect)
      (errors : List EffectError)

/-- **A fiber.** `effects` is the stack of its last load; `none` is a new one that no load has.
`registered` says whether its plugin runtime lists it. The rest are history variables: the stacks of all
loads, the effects that were registered and those that were run, what was published, the cleanup errors
of the last epoch, and the answers of the calls. -/
structure CapabilityFiber (ν : Type) where
  definition : PluginDefinition
  context : List ContextState
  config : Text
  state : FiberState
  disposeRequested : Bool
  forceReload : Bool
  transition : Transition ν
  waiting : List (Option FiberCall)
  handle : Option (CapabilityHandle ν)
  dependencyEpoch : Option DependencyBinding
  loadingBinding : Option DependencyBinding
  effects : Option Nat
  lastCleanupErrors : List EffectError
  error : Option LoadFailure
  registered : Bool
  effectStacks : List EffectStack
  effectCount : Nat
  ran : List Nat
  published : List (CapabilityHandle ν)
  epochErrors : List EffectError
  answers : List (FiberCall × FiberAnswer)

/-- What can happen to a fiber. A load context registers in the stack of its load; `abandon` is a drop of
the future that holds the lock. -/
inductive FiberEvent (ν : Type)
  | call (call : FiberCall)
  | acquire (index : Nat)
  | go
  | returned (result : Except Text ν)
  | cleaned (result : Except Text Unit)
  | abandon
  | effect (label : Text)
  | register (stack : Nat) (label : Text)
  | unlist

namespace CapabilityFiber

variable {ν : Type}

/-- A new fiber. -/
def new (definition : PluginDefinition) (context : List ContextState) (config : Text) :
    CapabilityFiber ν :=
  ⟨definition, context, config, .pending, false, false, .free, [], none, none, none, none, [], none,
    true, [], 0, [], [], [], []⟩

/-- The scope in which a fiber publishes. -/
def scope (fiber : CapabilityFiber ν) : Nat := (fiber.context.head?.map ContextState.scope).getD 0

/-! ### Effects -/

/-- The effects of the last load. -/
def owned (fiber : CapabilityFiber ν) : List ScopedEffect :=
  match fiber.effects.bind fun stack => fiber.effectStacks[stack]? with
  | some stack => stack.effects
  | none => []

/-- Registers an effect in the stack of a load, unless that is closed. -/
def register (fiber : CapabilityFiber ν) (stack : Nat) (label : Text) : CapabilityFiber ν :=
  match fiber.effectStacks[stack]? with
  | some ⟨effects, false⟩ => { fiber with
      effectStacks := fiber.effectStacks.set stack ⟨effects ++ [⟨fiber.effectCount, label⟩], false⟩
      effectCount := fiber.effectCount + 1 }
  | _ => fiber

/-- Registers an effect of an active fiber. -/
def effect (fiber : CapabilityFiber ν) (label : Text) : CapabilityFiber ν :=
  match fiber.state, fiber.effects with
  | .active, some stack => fiber.register stack label
  | _, _ => fiber

/-- Closes the stack of the last load and begins to run its effects, the last one first. -/
def clean (fiber : CapabilityFiber ν) (call : FiberCall) (force : Bool) (purpose : Cleanup) :
    CapabilityFiber ν :=
  { fiber with
    effectStacks := match fiber.effects with
      | some stack => fiber.effectStacks.set stack ⟨[], true⟩
      | none => fiber.effectStacks
    transition := .cleaning call force purpose fiber.owned.reverse [] }

/-- The first part of an unload, up to its effects. -/
def unload (fiber : CapabilityFiber ν) (call : FiberCall) (force : Bool) (purpose : Cleanup) :
    CapabilityFiber ν :=
  { fiber with state := .unloading }.clean call force purpose

/-! ### Calls -/

/-- A call ends and releases the lock. -/
def reply (fiber : CapabilityFiber ν) (call : FiberCall) (answer : FiberAnswer) :
    CapabilityFiber ν :=
  { fiber with transition := .free, answers := fiber.answers ++ [(call, answer)] }

/-- A call ends before it takes the lock. -/
def refuse (fiber : CapabilityFiber ν) (call : FiberCall) (error : FiberError) :
    CapabilityFiber ν :=
  { fiber with answers := fiber.answers ++ [(call, .failed error)] }

/-- A call waits for the lock. -/
def wait (fiber : CapabilityFiber ν) (call : FiberCall) : CapabilityFiber ν :=
  { fiber with waiting := fiber.waiting ++ [some call] }

/-- What a call does before it waits for the lock. -/
def request (fiber : CapabilityFiber ν) : FiberCall → CapabilityFiber ν
  | .start => fiber.wait .start
  | .restart =>
    if fiber.state = .disposed then fiber.refuse .restart .disposed
    else { fiber with forceReload := true }.wait .restart
  | .update config =>
    if fiber.state = .disposed then fiber.refuse (.update config) .disposed
    else
      match fiber.definition.validator config with
      | .error reason => fiber.refuse (.update config) (.invalidConfig fiber.definition.id reason)
      | .ok _ => { fiber with config := config, forceReload := true }.wait (.update config)
  | .deactivateForWithdrawal detached => fiber.wait (.deactivateForWithdrawal detached)
  | .dispose => { fiber with disposeRequested := true }.wait .dispose

/-- The beginning of `drive`, up to its loop. -/
def startDrive (fiber : CapabilityFiber ν) (call : FiberCall) (force : Bool) : CapabilityFiber ν :=
  if fiber.disposeRequested then fiber.reply call (.failed .disposed)
  else if ¬ force ∧ fiber.state = .failed then
    fiber.reply call
      (.failed (.initializationFailed fiber.definition.id fiber.error fiber.lastCleanupErrors))
  else { fiber with
    forceReload := false
    lastCleanupErrors := if fiber.state = .pending then [] else fiber.lastCleanupErrors
    transition := .driving call (force || fiber.forceReload) }

/-- What a call does when it has the lock. -/
def acquire (fiber : CapabilityFiber ν) : FiberCall → CapabilityFiber ν
  | .start => fiber.startDrive .start false
  | .restart => fiber.startDrive .restart true
  | .update config => fiber.startDrive (.update config) true
  | .deactivateForWithdrawal detached =>
    if fiber.state = .active ∨ fiber.state = .failed then
      fiber.unload (.deactivateForWithdrawal detached) false (.withdrawal detached)
    else fiber.reply (.deactivateForWithdrawal detached) (.state fiber.state)
  | .dispose =>
    if fiber.state = .disposed then fiber.reply .dispose .done
    else fiber.unload .dispose false .disposal

/-! ### The holder of the lock -/

/-- Begins a load: a new stack of effects and a snapshot of the dependencies. -/
def load (tree : ScopeTree ν) (fiber : CapabilityFiber ν) (call : FiberCall) (force : Bool)
    (dependencies : ResolvedDependencies ν) : ScopeTree ν × CapabilityFiber ν :=
  ((tree.step (.load fiber.scope fiber.definition.capability fiber.context)).2, { fiber with
    state := .loading
    effectStacks := fiber.effectStacks ++ [⟨[], false⟩]
    effects := some fiber.effectStacks.length
    error := none
    loadingBinding := some (bindingOf dependencies)
    epochErrors := []
    transition := .loading call force tree.pending.length dependencies })

/-- **One round of the loop of `drive`.** -/
def drive (tree : ScopeTree ν) (fiber : CapabilityFiber ν) (call : FiberCall) (force : Bool) :
    ScopeTree ν × CapabilityFiber ν :=
  match tree.topology.contextResolve fiber.context fiber.definition.capability with
  | .error _ =>
    (tree, if fiber.state = .active then fiber.unload call force .missing
      else { fiber with state := .pending }.reply call (.state .pending))
  | .ok dependencies =>
    if ¬ force ∧ fiber.state = .active ∧ fiber.dependencyEpoch = some (bindingOf dependencies) then
      (tree, fiber.reply call (.state .active))
    else if fiber.state = .active ∨ fiber.state = .failed then
      (tree, fiber.unload call force .reload)
    else if fiber.disposeRequested then (tree, fiber.reply call (.failed .disposed))
    else load tree fiber call force dependencies

/-- The binding that a fiber would have now. -/
def currentBinding (tree : ScopeTree ν) (fiber : CapabilityFiber ν) : Option DependencyBinding :=
  ((tree.topology.contextResolve fiber.context fiber.definition.capability).map bindingOf).toOption

/-- **The factory returns.** A load is stale when a disposal or a reload was requested meanwhile, or the
binding changed. -/
def returned (tree : ScopeTree ν) (fiber : CapabilityFiber ν) (call : FiberCall) (force : Bool)
    (publication : Nat) (dependencies : ResolvedDependencies ν) (result : Except Text ν) :
    ScopeTree ν × CapabilityFiber ν :=
  let stale := fiber.disposeRequested || fiber.forceReload ||
    currentBinding tree fiber ≠ some (bindingOf dependencies)
  match result with
  | .ok value =>
    if stale then
      ((tree.step (.constructed publication (.error []))).2, fiber.clean call force .staleValue)
    else (tree, { fiber with
      transition := .publishing call force publication dependencies value })
  | .error reason =>
    ((tree.step (.constructed publication (.error reason))).2,
      fiber.clean call force (if stale then .staleError else .failed reason))

/-- **The publication of a load.** -/
def publish (tree : ScopeTree ν) (fiber : CapabilityFiber ν) (call : FiberCall) (force : Bool)
    (publication : Nat) (dependencies : ResolvedDependencies ν) (value : ν) :
    ScopeTree ν × CapabilityFiber ν :=
  match tree.step (.constructed publication (.ok value)) with
  | (.published handle, tree) => (tree, { fiber with
      handle := some handle
      dependencyEpoch := some (bindingOf dependencies)
      loadingBinding := none
      state := .active
      published := fiber.published ++ [handle] }.reply call (.state .active))
  | (.failed (.dependencyChanged _ _), tree) => (tree, fiber.clean call force .changed)
  | (.failed error, tree) => (tree, fiber.clean call force (.refused error))
  | (_, tree) => (tree, fiber)

/-- The removal of the publication, unless it was detached before. -/
def removeLocal (tree : ScopeTree ν) (fiber : CapabilityFiber ν)
    (detached : Option ProviderIdentity) : Option ScopeError × ScopeTree ν :=
  match fiber.handle with
  | none => (none, tree)
  | some handle =>
    if detached = some handle.provider then (none, tree)
    else
      match tree.step (.withdraw fiber.scope handle.definition.id handle.generation) with
      | (.failed error, tree) => (some error, tree)
      | (_, tree) => (none, tree)

/-- The second part of an unload, after its effects. -/
def unloaded (tree : ScopeTree ν) (fiber : CapabilityFiber ν) (detached : Option ProviderIdentity)
    (errors : List EffectError) : List EffectError × ScopeTree ν × CapabilityFiber ν :=
  match removeLocal tree fiber detached with
  | (some error, tree) => (errors ++ [.scope error], tree, { fiber with
      handle := none
      dependencyEpoch := none
      state := .pending
      epochErrors := fiber.epochErrors ++ errors ++ [.scope error] })
  | (none, tree) => (errors, tree, { fiber with
      handle := none
      dependencyEpoch := none
      loadingBinding := none
      effects := none
      state := .pending
      epochErrors := fiber.epochErrors ++ errors })

/-- The loop goes round again, unless a disposal was requested. -/
def again (fiber : CapabilityFiber ν) (call : FiberCall) (force : Bool) (state : FiberState) :
    CapabilityFiber ν :=
  if fiber.disposeRequested then fiber.reply call (.failed .disposed)
  else { fiber with state := state, transition := .driving call force }

/-- **The end of a cleanup.** -/
def finish (tree : ScopeTree ν) (fiber : CapabilityFiber ν) (call : FiberCall) (force : Bool)
    (errors : List EffectError) : Cleanup → ScopeTree ν × CapabilityFiber ν
  | .reload =>
    match unloaded tree fiber none errors with
    | (errors, tree, fiber) =>
      (tree, { fiber with lastCleanupErrors := errors }.again call force .pending)
  | .missing =>
    match unloaded tree fiber none errors with
    | (errors, tree, fiber) =>
      (tree, { fiber with lastCleanupErrors := errors }.reply call (.state .pending))
  | .withdrawal detached =>
    match unloaded tree fiber detached errors with
    | (errors, tree, fiber) =>
      (tree, { fiber with lastCleanupErrors := errors }.reply call (.state .pending))
  | .disposal =>
    match unloaded tree fiber none errors with
    | (errors, tree, fiber) =>
      (tree, { fiber with state := .disposed, registered := false }.reply call
        (if errors = [] then .done else .failed (.cleanup errors)))
  | .changed =>
    (tree, { fiber with
      lastCleanupErrors := errors
      epochErrors := fiber.epochErrors ++ errors
      loadingBinding := none
      state := .pending
      transition := .driving call force })
  | .refused error =>
    (tree, { fiber with
      loadingBinding := none
      error := some (.refused error)
      lastCleanupErrors := errors
      epochErrors := fiber.epochErrors ++ errors
      state := .failed }.reply call (.failed (.scope error)))
  | .staleValue =>
    (tree, { fiber with
      loadingBinding := none
      forceReload := false
      lastCleanupErrors := errors
      epochErrors := fiber.epochErrors ++ errors }.again call force .pending)
  | .staleError =>
    (tree, { fiber with
      loadingBinding := none
      forceReload := false
      error := none
      lastCleanupErrors := errors
      epochErrors := fiber.epochErrors ++ errors
      -- Here the load disposes the fiber itself.
      state := if fiber.disposeRequested then .disposed else fiber.state }.again call force .pending)
  | .failed reason =>
    (tree, { fiber with
      loadingBinding := none
      error := some (.factory reason)
      lastCleanupErrors := errors
      epochErrors := fiber.epochErrors ++ errors
      state := .failed }.reply call
        (.failed (.initializationFailed fiber.definition.id (some (.factory reason)) errors)))

/-- The disposer of one effect runs to its end. -/
def cleaned (effect : ScopedEffect) (errors : List EffectError) :
    Except Text Unit → List EffectError
  | .ok _ => errors
  | .error reason => errors ++ [.disposer effect.label reason]

/-- **What happens to a fiber.** An event that cannot happen changes nothing. -/
def step (tree : ScopeTree ν) (fiber : CapabilityFiber ν) :
    FiberEvent ν → ScopeTree ν × CapabilityFiber ν
  | .call call => (tree, fiber.request call)
  | .acquire index =>
    match fiber.transition, fiber.waiting[index]? with
    | .free, some (some call) =>
      (tree, { fiber with waiting := fiber.waiting.set index none }.acquire call)
    | _, _ => (tree, fiber)
  | .go =>
    match fiber.transition with
    | .driving call force => drive tree fiber call force
    | .publishing call force publication dependencies value =>
      publish tree fiber call force publication dependencies value
    | .cleaning call force purpose [] errors => finish tree fiber call force errors purpose
    | _ => (tree, fiber)
  | .returned result =>
    match fiber.transition with
    | .loading call force publication dependencies =>
      returned tree fiber call force publication dependencies result
    | _ => (tree, fiber)
  | .cleaned result =>
    match fiber.transition with
    | .cleaning call force purpose (effect :: rest) errors => (tree, { fiber with
        ran := fiber.ran ++ [effect.number]
        transition := .cleaning call force purpose rest (cleaned effect errors result) })
    | _ => (tree, fiber)
  | .abandon =>
    match fiber.transition with
    | .loading _ _ publication _ =>
      ((tree.step (.constructed publication (.error []))).2, { fiber with transition := .free })
    | .cleaning _ _ _ (_ :: _) _ => (tree, { fiber with transition := .free })
    | _ => (tree, fiber)
  | .effect label => (tree, fiber.effect label)
  | .register stack label => (tree, fiber.register stack label)
  | .unlist => (tree, { fiber with registered := false })

/-- The publication that a fiber has begun. -/
def begun (fiber : CapabilityFiber ν) : Option Nat :=
  match fiber.transition with
  | .loading _ _ publication _ | .publishing _ _ publication _ _ => some publication
  | _ => none

/-! ### Calls from outside -/

/-- A call takes the lock at once. -/
def begin (tree : ScopeTree ν) (fiber : CapabilityFiber ν) (call : FiberCall) : CapabilityFiber ν :=
  (step tree (step tree fiber (.call call)).2 (.acquire fiber.waiting.length)).2

/-- The answer of the last call. -/
def lastAnswer (fiber : CapabilityFiber ν) : Option FiberAnswer :=
  fiber.answers.getLast?.map Prod.snd

/-- Whether a reconciliation drives a fiber. -/
def needsReconciliation (tree : ScopeTree ν) (fiber : CapabilityFiber ν) : Bool :=
  match fiber.state with
  | .active => currentBinding tree fiber ≠ fiber.dependencyEpoch
  | .loading => currentBinding tree fiber ≠ fiber.loadingBinding
  | .pending =>
    !fiber.definition.capability.dependencies.isEmpty && (currentBinding tree fiber).isSome
  | .failed | .disposed => false
  | .unloading => true

/-- Whether the next step of a fiber would take the topology lock. -/
def locks (fiber : CapabilityFiber ν) : Bool :=
  match fiber.transition with
  | .publishing _ _ _ _ _ => true
  | .cleaning _ _ _ [] _ => fiber.handle.isSome
  | _ => false

end CapabilityFiber

/-! ### A fiber among others -/

/-- A fiber and the scopes. -/
structure FiberSystem (ν : Type) where
  tree : ScopeTree ν
  fiber : CapabilityFiber ν

/-- What can happen: to the fiber, or to the scopes by anybody else. -/
inductive FiberSystemEvent (ν : Type)
  | fiber (event : FiberEvent ν)
  | scope (call : ScopeCall ν)

namespace FiberSystem

variable {ν : Type}

/-- Whether a call is left to others: they release no scope of the fiber's context, and they do not
complete its publication. -/
def foreign (system : FiberSystem ν) : ScopeCall ν → Bool
  | .release scope => system.fiber.context.all fun view => view.scope ≠ scope
  | .constructed publication _ => system.fiber.begun ≠ some publication
  | _ => true

/-- **What happens.** A poisoned topology lock ends the run. -/
def step (system : FiberSystem ν) (event : FiberSystemEvent ν) : FiberSystem ν :=
  if system.tree.poisoned then system
  else
    match event with
    | .fiber event =>
      ⟨(system.fiber.step system.tree event).1, (system.fiber.step system.tree event).2⟩
    | .scope call =>
      if system.foreign call then { system with tree := (system.tree.step call).2 } else system

/-- A run of events. -/
def run (system : FiberSystem ν) (events : List (FiberSystemEvent ν)) : FiberSystem ν :=
  events.foldl step system

end FiberSystem

end Kernis
