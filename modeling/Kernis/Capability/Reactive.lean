/-
**The reactive coordinator.**

A coordinator watches fibers, publishes providers in the scope of its context, and drains whatever depends
on a provider before it gives the provider up.

* `ReactiveRuntime.step` — the contexts and their scopes, the fibers, and which of them are watched.
* `withdrawalClosure`, `withdrawalOrder` — which fibers a withdrawal drains, and in which order.
* `withdrawAndReconcile` — a withdrawal by the only user of the coordinator and its fibers.
-/

import Kernis.Capability.Context
import Kernis.Capability.Started
import Kernis.Lib.Dependents

namespace Kernis

open Std

/-! ### The coordinator -/

/-- **A coordinator** over a context, among all contexts and fibers. A fiber's identity is its place in
the list. -/
structure ReactiveRuntime (ν : Type) where
  contexts : ContextTree ν
  context : List ContextState
  fibers : List (CapabilityFiber ν)
  watched : BTreeSet Nat

/-- What can happen. `drop` is the end of the last handle of a watched fiber. -/
inductive ReactiveEvent (ν : Type)
  | context (call : ContextCall ν)
  | create (definition : PluginDefinition) (context : Nat) (config : Text)
  | watch (fiber : Nat)
  | drop (fiber : Nat)
  | fiber (fiber : Nat) (event : FiberEvent ν)

/-- What a withdrawal reports: the fibers that it drove, their errors, the cleanup errors that they showed,
and whether it finalized the provider. -/
structure WithdrawalReport where
  driven : List Nat
  errors : List (Nat × FiberError)
  cleanupErrors : List (Nat × List EffectError)
  providerFinalized : Bool

namespace CapabilityFiber

variable {ν : Type}

/-- The providers that a fiber is bound to: those it was published with, else those it loads with. -/
def dependencyBinding (fiber : CapabilityFiber ν) : Option DependencyBinding :=
  match fiber.dependencyEpoch with
  | some binding => some binding
  | none => fiber.loadingBinding

/-- The disposers of a cleanup run to their ends. -/
def disposeAll (tree : ScopeTree ν) (fiber : CapabilityFiber ν)
    (disposer : ScopedEffect → Except Text Unit) : CapabilityFiber ν :=
  match fiber.transition with
  | .cleaning _ _ _ effects _ => effects.foldl (fun fiber effect =>
      (step tree fiber (.cleaned (disposer effect))).2) fiber
  | _ => fiber

/-- A deactivation from the call to its return. -/
def deactivateForWithdrawal (tree : ScopeTree ν) (fiber : CapabilityFiber ν)
    (detached : Option ProviderIdentity) (disposer : ScopedEffect → Except Text Unit) :
    ScopeTree ν × CapabilityFiber ν :=
  step tree ((fiber.begin tree (.deactivateForWithdrawal detached)).disposeAll tree disposer) .go

end CapabilityFiber

namespace ReactiveRuntime

variable {ν : Type}

/-- A new coordinator. -/
def new (contexts : ContextTree ν) (context : List ContextState) : ReactiveRuntime ν :=
  ⟨contexts, context, [], ∅⟩

/-- The scopes of all contexts. -/
def tree (runtime : ReactiveRuntime ν) : ScopeTree ν := runtime.contexts.tree

/-- The scope in which a coordinator publishes. -/
def scope (runtime : ReactiveRuntime ν) : Nat := (runtime.context.head?.map ContextState.scope).getD 0

/-- Whether the coordinator or a fiber refers to a context. -/
def refers (runtime : ReactiveRuntime ν) (context : Nat) : Bool :=
  match runtime.contexts.contexts[context]? with
  | some (some views) => (runtime.context :: runtime.fibers.map CapabilityFiber.context).any
      fun other => other.map ContextState.scope = views.map ContextState.scope
  | _ => false

/-- Whether a call is left to the users of the contexts: it drops no context of the coordinator or of a
fiber, and it completes no publication of a fiber. -/
def foreign (runtime : ReactiveRuntime ν) : ContextCall ν → Bool
  | .drop context => !runtime.refers context
  | .scope (.constructed publication _) =>
    runtime.fibers.all fun fiber => fiber.begun ≠ some publication
  | _ => true

/-- Puts a fiber back after an event. -/
def place (runtime : ReactiveRuntime ν) (id : Nat) (after : ScopeTree ν × CapabilityFiber ν) :
    ReactiveRuntime ν :=
  { runtime with
    contexts := { runtime.contexts with tree := after.1 }
    fibers := runtime.fibers.set id after.2 }

/-- **What happens.** A poisoned topology lock ends the run. -/
def step (runtime : ReactiveRuntime ν) (event : ReactiveEvent ν) : ReactiveRuntime ν :=
  if runtime.tree.poisoned then runtime
  else
    match event with
    | .context call =>
      if runtime.foreign call then { runtime with contexts := runtime.contexts.step call } else runtime
    | .create definition context config =>
      match runtime.contexts.contexts[context]?, definition.validator config with
      | some (some views), .ok _ =>
        { runtime with fibers := runtime.fibers ++ [.new definition views config] }
      | _, _ => runtime
    | .watch id =>
      if id < runtime.fibers.length then { runtime with watched := runtime.watched.insert id }
      else runtime
    | .drop id => { runtime with watched := runtime.watched.erase id }
    | .fiber id event =>
      match runtime.fibers[id]? with
      | some fiber => runtime.place id (fiber.step runtime.tree event)
      | none => runtime

/-- A run of events. -/
def run (runtime : ReactiveRuntime ν) (events : List (ReactiveEvent ν)) : ReactiveRuntime ν :=
  events.foldl step runtime

/-! ### The withdrawal of a provider -/

/-- The watched fibers, by their identities. -/
def snapshotFibers (runtime : ReactiveRuntime ν) : List Nat := runtime.watched.toList

/-- What a fiber publishes now. -/
def handle (runtime : ReactiveRuntime ν) (id : Nat) : Option (CapabilityHandle ν) :=
  runtime.fibers[id]?.bind CapabilityFiber.handle

/-- What a fiber is bound to. -/
def dependencyBinding (runtime : ReactiveRuntime ν) (id : Nat) : Option DependencyBinding :=
  runtime.fibers[id]?.bind CapabilityFiber.dependencyBinding

/-- Notes what a fiber publishes. -/
def noteIdentity (runtime : ReactiveRuntime ν) (identities : ProviderIdentity → Option Nat) (id : Nat) :
    ProviderIdentity → Option Nat :=
  match runtime.handle id with
  | some handle => Function.update identities handle.provider (some id)
  | none => identities

/-- The fiber that publishes a provider; a later one of two wins. -/
def providerIdentities (runtime : ReactiveRuntime ν) : ProviderIdentity → Option Nat :=
  runtime.snapshotFibers.foldl runtime.noteIdentity fun _ => none

/-- The fibers whose publications a fiber is bound to. -/
def providers (runtime : ReactiveRuntime ν) (id : Nat) : List Nat :=
  ((runtime.dependencyBinding id).getD []).filterMap runtime.providerIdentities

/-- Whether a fiber publishes a provider or is bound to it. -/
def touches (runtime : ReactiveRuntime ν) (retired : ProviderIdentity) (id : Nat) : Bool :=
  (runtime.handle id).any (fun handle => handle.provider = retired) ||
    (runtime.dependencyBinding id).any fun binding => retired ∈ binding

/-- **The fibers that a withdrawal affects**: those that touch the provider, and in passes those that
depend on one of them. -/
def withdrawalClosure (runtime : ReactiveRuntime ν) (retired : ProviderIdentity) : BTreeSet Nat :=
  grow runtime.providers runtime.snapshotFibers
    (.ofList (runtime.snapshotFibers.filter (runtime.touches retired)))

/-- The affected fibers that an affected fiber depends on. -/
def affectedProviders (runtime : ReactiveRuntime ν) (affected : BTreeSet Nat) (id : Nat) : List Nat :=
  if id ∈ affected then (runtime.providers id).filter fun other => other ∈ affected ∧ other ≠ id
  else []

/-- How deep an affected fiber lies over the others. -/
def dependencyDepth (runtime : ReactiveRuntime ν) (affected : BTreeSet Nat) (id : Nat) : Nat :=
  depth (runtime.affectedProviders affected) (affected.toList.length + 1) id []

/-- **The order of the drain**: the deepest first. -/
def withdrawalOrder (runtime : ReactiveRuntime ν) (affected : BTreeSet Nat) : List Nat :=
  drainOrder (runtime.dependencyDepth affected) affected

/-- One fiber is drained. Its own publication is the retired one when it was detached already. -/
def drain (disposer : Nat → ScopedEffect → Except Text Unit) (retired : ProviderIdentity)
    (current : WithdrawalReport × ReactiveRuntime ν) (id : Nat) :
    WithdrawalReport × ReactiveRuntime ν :=
  match current.2.fibers[id]? with
  | none => current
  | some fiber =>
    let detached := if fiber.handle.any (fun handle => handle.provider = retired) then some retired
      else none
    let after := fiber.deactivateForWithdrawal current.2.tree detached (disposer id)
    (⟨current.1.driven ++ [id],
      current.1.errors ++ (match after.2.lastAnswer with
        | some (.failed error) => [(id, error)]
        | _ => []),
      current.1.cleanupErrors ++ (if after.2.lastCleanupErrors = [] then []
        else [(id, after.2.lastCleanupErrors)]), false⟩, current.2.place id after)

/-- The local entry of a capability. -/
def getLocal (runtime : ReactiveRuntime ν) (capability : Id) : Option (CapabilityHandle ν) :=
  if (runtime.tree.topology.level runtime.scope).isOpen then
    (runtime.tree.topology.level runtime.scope).entries[capability]?
  else none

/-- **Withdraws a provider and drains its dependents.** A poisoned lock panics: there is no answer. -/
def withdrawAndReconcile (runtime : ReactiveRuntime ν)
    (disposer : Nat → ScopedEffect → Except Text Unit) (capability : Id) (expected : Nat) :
    Option (Except ScopeError WithdrawalReport) × ReactiveRuntime ν :=
  match runtime.getLocal capability with
  | none => (some (.ok ⟨[], [], [], true⟩), runtime)
  | some _ =>
    match runtime.tree.step (.withdraw runtime.scope capability expected) with
    | (.withdrawn retired, tree) =>
      let runtime := { runtime with contexts := { runtime.contexts with tree := tree } }
      let ordered := runtime.withdrawalOrder (runtime.withdrawalClosure retired.provider)
      let last := ordered.foldl (drain disposer retired.provider) (⟨[], [], [], false⟩, runtime)
      (some (.ok { last.1 with providerFinalized := true }), last.2)
    | (.failed error, tree) =>
      (some (.error error), { runtime with contexts := { runtime.contexts with tree := tree } })
    | (_, tree) => (none, { runtime with contexts := { runtime.contexts with tree := tree } })

end ReactiveRuntime

end Kernis
