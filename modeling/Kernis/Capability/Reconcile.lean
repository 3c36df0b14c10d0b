/-
**A coordinator with one owner, and its reconciliation.**

One owner uses a coordinator, its contexts and its fibers, one call after the other. A reconciliation drives
the watched fibers that are out of date, by their identities, in passes until a pass drives none.

* `SerialRuntime.step` — the calls of the owner, and what happens while it awaits one of them.
* `reconcile` — the passes; `SerialRuntime.returns`: the last one is over.
* `Throughout`, `Succeeds` — checks of a run; `OwnerEvent.kept`: the owner drops no future.
-/

import Kernis.Capability.Withdrawal

namespace Kernis

open Std

/-! ### The data -/

/-- What an owner calls. `context` is a call that changes no provider. -/
inductive OwnerCall (ν : Type)
  | context (call : ContextCall ν)
  | provide (definition : CapabilityDefinition) (construct : ResolvedDependencies ν → Except Text ν)
  | replace (definition : CapabilityDefinition) (expected : Nat)
      (construct : ResolvedDependencies ν → Except Text ν)
  | withdrawAndReconcile (capability : Id) (expected : Nat)
      (disposer : Nat → ScopedEffect → Except Text Unit)
  | instantiate (definition : PluginDefinition) (context : Nat) (config : Text)
  | watch (fiber : Nat)
  | drop (fiber : Nat)
  | effect (fiber : Nat) (label : Text)
  | fiber (fiber : Nat) (call : FiberCall)
  | reconcile

/-- What an owner awaits: nothing, a call on a fiber, or a reconciliation with the rest of its pass, whether
the pass drove a fiber, and its report. -/
inductive OwnerPhase
  | idle
  | calling (fiber : Nat)
  | reconciling (snapshot : List Nat) (drove : Bool) (report : WithdrawalReport)
  | driving (fiber : Nat) (snapshot : List Nat) (report : WithdrawalReport)

/-- What can happen: the owner calls, its reconciliation goes on, something happens to the fiber that it
awaits, or it drops the future. -/
inductive OwnerEvent (ν : Type)
  | call (call : OwnerCall ν)
  | advance
  | fiber (event : FiberEvent ν)
  | abandon

/-- **A coordinator with its owner.** `reports` is a history variable: what the reconciliations reported. -/
structure SerialRuntime (ν : Type) where
  runtime : ReactiveRuntime ν
  phase : OwnerPhase
  reports : List WithdrawalReport

/-- Whether a call changes no provider. -/
def ContextCall.plain {ν : Type} : ContextCall ν → Bool
  | .scope (.child _) | .scope (.release _) | .scope .elsewhere => true
  | .scope _ => false
  | _ => true

/-- Whether anybody may make a call on a fiber: only the coordinator knows what is detached. -/
def FiberCall.visible : FiberCall → Bool
  | .deactivateForWithdrawal (some _) => false
  | _ => true

/-- Whether something happens to a fiber while a call on it runs. -/
def FiberEvent.running {ν : Type} : FiberEvent ν → Bool
  | .go | .returned _ | .cleaned _ | .register _ _ => true
  | _ => false

/-- Whether an owner drops no future. -/
def OwnerEvent.kept {ν : Type} : OwnerEvent ν → Bool
  | .abandon => false
  | _ => true

/-- The fiber that an owner awaits. -/
def OwnerPhase.awaited : OwnerPhase → Option Nat
  | .calling fiber | .driving fiber _ _ => some fiber
  | _ => none

/-- Whether a load is about to be published. -/
def Transition.publishes {ν : Type} : Transition ν → Bool
  | .publishing _ _ _ _ _ => true
  | _ => false

/-- Whether a scope would see a publication in another. -/
def Topology.sees {ν : Type} (topology : Topology ν) (scope : Nat) (capability : Id) (other : Nat) : Bool :=
  topology.live other && (topology.level other).isOpen &&
    topology.candidateAffects scope capability (other :: topology.ancestors other)

/-- **Whether all other definitions of a graph are complete** beside a candidate: they require one another and
the candidate only, and there is no cycle of them. -/
def CapabilityGraph.completes (graph : CapabilityGraph) (candidate : CapabilityDefinition) : Bool :=
  (graph.validateCandidate { candidate with dependencies := ∅ }).toOption.isSome

namespace ReactiveRuntime

variable {ν : Type}

/-- A publication in the scope of a coordinator, from the call to its return. -/
def publish (runtime : ReactiveRuntime ν) (definition : CapabilityDefinition)
    (expectation : PublishExpectation) (construct : ResolvedDependencies ν → Except Text ν) :
    ReactiveRuntime ν :=
  let begun := runtime.step (.context (.scope (.publish runtime.scope definition expectation)))
  match (runtime.tree.step (.publish runtime.scope definition expectation)).1 with
  | .constructs publication =>
    match begun.tree.pending[publication]? with
    | some (some waiting) =>
      begun.step (.context (.scope (.constructed publication (construct waiting.dependencies))))
    | _ => begun
  | _ => begun

/-- A call on a fiber that has the lock at once. -/
def begin (runtime : ReactiveRuntime ν) (id : Nat) (call : FiberCall) : ReactiveRuntime ν :=
  match runtime.fibers[id]? with
  | some fiber => (runtime.step (.fiber id (.call call))).step (.fiber id (.acquire fiber.waiting.length))
  | none => runtime

/-- Whether a fiber has no transition under way. -/
def resting (runtime : ReactiveRuntime ν) (id : Nat) : Bool :=
  runtime.fibers[id]?.all fun fiber => fiber.transition = .free

/-- Whether a reconciliation drives a fiber. -/
def needsReconciliation (runtime : ReactiveRuntime ν) (id : Nat) : Bool :=
  runtime.fibers[id]?.any (CapabilityFiber.needsReconciliation runtime.tree)

/-- **Whether another publication stands in the way of a fiber**: a scope that would see what the fiber
publishes sees others that are not complete beside it. -/
def blocked (runtime : ReactiveRuntime ν) (fiber : CapabilityFiber ν) : Bool :=
  (List.range runtime.tree.topology.scopes.length).any fun other =>
    runtime.tree.topology.sees fiber.scope fiber.definition.capability.id other &&
      !(runtime.tree.topology.view other).visibleGraph.completes fiber.definition.capability

/-- What a driven fiber adds to a report. -/
def note (runtime : ReactiveRuntime ν) (id : Nat) (report : WithdrawalReport) : WithdrawalReport :=
  match runtime.fibers[id]? with
  | none => report
  | some fiber => { report with
      errors := report.errors ++ (match fiber.lastAnswer with
        | some (.failed error) => [(id, error)]
        | _ => [])
      cleanupErrors := report.cleanupErrors ++
        (if fiber.lastCleanupErrors = [] then [] else [(id, fiber.lastCleanupErrors)]) }

end ReactiveRuntime

namespace SerialRuntime

variable {ν : Type}

/-! ### Calls -/

/-- A new coordinator and its owner. -/
def new (contexts : ContextTree ν) (context : List ContextState) : SerialRuntime ν :=
  ⟨.new contexts context, .idle, []⟩

/-- Goes on when the fiber that is awaited has answered. -/
def settle (owner : SerialRuntime ν) : SerialRuntime ν :=
  match owner.phase with
  | .calling id => if owner.runtime.resting id then { owner with phase := .idle } else owner
  | .driving id snapshot report =>
    if owner.runtime.resting id then
      { owner with phase := .reconciling snapshot true (owner.runtime.note id report) }
    else owner
  | _ => owner

/-- **The next step of a reconciliation**: the next fiber of the pass is looked at, and driven when it is
out of date. A pass that drove a fiber is followed by another. -/
def reconcile (owner : SerialRuntime ν) (drove : Bool) (report : WithdrawalReport) :
    List Nat → SerialRuntime ν
  | id :: rest =>
    if owner.runtime.needsReconciliation id then
      { owner with
        runtime := owner.runtime.begin id .start
        phase := .driving id rest { report with driven := report.driven ++ [id] } }.settle
    else { owner with phase := .reconciling rest drove report }
  | [] =>
    if drove then { owner with phase := .reconciling owner.runtime.snapshotFibers false report }
    else { owner with phase := .idle, reports := owner.reports ++ [report] }

/-- **A call of an owner that awaits nothing.** -/
def call (owner : SerialRuntime ν) : OwnerCall ν → SerialRuntime ν
  | .context call =>
    if call.plain then { owner with runtime := owner.runtime.step (.context call) } else owner
  | .provide definition construct =>
    { owner with runtime := owner.runtime.publish definition .new construct }
  | .replace definition expected construct =>
    { owner with runtime := owner.runtime.publish definition (.replace expected) construct }
  | .withdrawAndReconcile capability expected disposer =>
    { owner with runtime := (owner.runtime.withdrawAndReconcile disposer capability expected).2 }
  | .instantiate definition context config =>
    { owner with runtime := owner.runtime.step (.create definition context config) }
  | .watch id => { owner with runtime := owner.runtime.step (.watch id) }
  | .drop id => { owner with runtime := owner.runtime.step (.drop id) }
  | .effect id label => { owner with runtime := owner.runtime.step (.fiber id (.effect label)) }
  | .fiber id call =>
    if call.visible then
      { owner with runtime := owner.runtime.begin id call, phase := .calling id }.settle
    else owner
  | .reconcile =>
    { owner with phase := .reconciling owner.runtime.snapshotFibers false ⟨[], [], [], false⟩ }

/-- Something happens to the fiber that is awaited. -/
def work (owner : SerialRuntime ν) (id : Nat) (event : FiberEvent ν) : SerialRuntime ν :=
  if event.running then { owner with runtime := owner.runtime.step (.fiber id event) }.settle else owner

/-- The future of a call is dropped at an await. -/
def abandon (owner : SerialRuntime ν) (id : Nat) : SerialRuntime ν :=
  let dropped := owner.runtime.step (.fiber id .abandon)
  if dropped.resting id then { owner with runtime := dropped, phase := .idle } else owner

/-- **What happens.** A poisoned topology lock ends the run; an event that cannot happen changes nothing. -/
def step (owner : SerialRuntime ν) (event : OwnerEvent ν) : SerialRuntime ν :=
  if owner.runtime.tree.poisoned then owner
  else
    match owner.phase, event with
    | .idle, .call call => owner.call call
    | .reconciling snapshot drove report, .advance => owner.reconcile drove report snapshot
    | .calling id, .fiber event | .driving id _ _, .fiber event => owner.work id event
    | .calling id, .abandon | .driving id _ _, .abandon => owner.abandon id
    | _, _ => owner

/-- A run of events. -/
def run (owner : SerialRuntime ν) (events : List (OwnerEvent ν)) : SerialRuntime ν :=
  events.foldl step owner

/-! ### Runs -/

/-- The pass is over, and it drove no fiber: the reconciliation returns. -/
def returns (owner : SerialRuntime ν) : Bool :=
  match owner.phase with
  | .reconciling [] false _ => true
  | _ => false

/-- **A check of every state of a run.** -/
def Throughout (check : SerialRuntime ν → Bool) (owner : SerialRuntime ν) : List (OwnerEvent ν) → Bool
  | [] => check owner
  | event :: rest => check owner && Throughout check (owner.step event) rest

/-- Whether what happens is no failure of the factory of a fiber. -/
def succeeds (id : Nat) (owner : SerialRuntime ν) : OwnerEvent ν → Bool
  | .fiber (.returned (.error _)) => owner.phase.awaited ≠ some id
  | _ => true

/-- **The factory of a fiber never fails in a run.** -/
def Succeeds (id : Nat) (owner : SerialRuntime ν) : List (OwnerEvent ν) → Bool
  | [] => true
  | event :: rest => succeeds id owner event && Succeeds id (owner.step event) rest

/-- **Whether nobody else publishes the capability of a fiber in its scope.** -/
def sole (id : Nat) (owner : SerialRuntime ν) : Bool :=
  owner.runtime.fibers[id]?.all fun fiber =>
    (owner.runtime.tree.topology.level fiber.scope).entries[fiber.definition.capability.id]?.all
      fun entry => fiber.handle.map CapabilityHandle.entryId = some entry.entryId

/-- **Whether nothing stands in the way of a fiber that is about to publish.** -/
def unblocked (owner : SerialRuntime ν) : Bool :=
  owner.runtime.fibers.all fun fiber => !fiber.transition.publishes || !owner.runtime.blocked fiber

end SerialRuntime

end Kernis
