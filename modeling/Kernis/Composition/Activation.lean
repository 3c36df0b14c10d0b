/-
**Activating a composition.**

An activation takes the modules in order. It registers the plugins of a module, instantiates a fiber for
each, starts the fibers one after the other, and runs the activate hook of the module; in the end it drives
the fibers whose dependencies came later. When something fails it rolls back what it acquired. It waits
for fibers and hooks, and where it waits others may use the scopes.

* `CompositionPlan.validateHost`, `CompositionPlan.construct` — what comes before the modules.
* `Activation` — the runtime's scopes, registry and fibers, with the position of the activation.
* `Activation.advance` — what the activation does between two waits.
* `Activation.step` — every event; `Activation.run`.
-/

import Kernis.Composition.Cleanup
import Kernis.Composition.Plan

namespace Kernis

open Std Fallible

/-! ### The texts of the errors -/

/-- The rendered error. -/
def CapabilityGraphError.render : CapabilityGraphError → Text
  | .unknownCapability id => "unknown capability: ".toList ++ id.asStr
  | .missingDependency capability dependency => "capability ".toList ++ capability.asStr ++
      " requires missing dependency ".toList ++ dependency.asStr
  | .cycle path =>
    "capability dependency cycle: ".toList ++ " -> ".toList.intercalate (path.map Id.asStr)

/-- The rendered error. -/
def ScopeError.render : ScopeError → Text
  | .graphAdmission error => "runtime graph admission rejected: ".toList ++ error.render
  | .missingDependency capability dependency => "capability ".toList ++ capability.asStr ++
      " requires missing dependency ".toList ++ dependency.asStr
  | .constructionFailed capability reason =>
    "failed to construct capability ".toList ++ capability.asStr ++ ": ".toList ++ reason
  | .alreadyProvided capability generation => "capability ".toList ++ capability.asStr ++
      " already has local generation ".toList ++ digits generation
  | .noLocalEntry capability =>
    "capability ".toList ++ capability.asStr ++ " has no local entry to replace".toList
  | .replacementConflict capability expected actual =>
    "replacement conflict for ".toList ++ capability.asStr ++ ": expected generation ".toList ++
      digits expected ++ ", actual ".toList ++ digits actual
  | .dependencyChanged capability dependency => "dependency ".toList ++ dependency.asStr ++
      " changed while initializing ".toList ++ capability.asStr
  | .generationExhausted capability =>
    "generation exhausted for capability ".toList ++ capability.asStr
  | .closed => "scope is already closing or closed".toList

/-- The rendered reason of a failed load. -/
def LoadFailure.render : LoadFailure → Text
  | .factory reason => reason
  | .refused error => error.render

/-- The rendered error. -/
def FiberError.render : FiberError → Text
  | .disposed => "fiber is disposed".toList
  | .invalidConfig plugin reason =>
    "invalid config for plugin ".toList ++ plugin.asStr ++ ": ".toList ++ reason
  | .initializationFailed plugin reason _ => "plugin ".toList ++ plugin.asStr ++
      " initialization failed: ".toList ++
      (reason.map LoadFailure.render).getD "plugin initialization failed".toList
  | .scope error => error.render
  | .cleanup errors =>
    "fiber cleanup failed with ".toList ++ digits errors.length ++ " error(s)".toList

/-- The rendered error. -/
def RegistryError.render : RegistryError → Text
  | .duplicate plugin => "plugin runtime already registered: ".toList ++ plugin.asStr
  | .unknown plugin => "unknown plugin runtime: ".toList ++ plugin.asStr
  | .fiber error => error.render
  | .dispose plugin errors => "disposing plugin ".toList ++ plugin.asStr ++
      " failed with ".toList ++ digits errors.length ++ " error(s)".toList

/-! ### Before the modules -/

namespace CompositionPlan

variable {σ ν : Type}

/-- Every required configuration key is provided. -/
def validateHost (plan : CompositionPlan ν) (config : HostConfig) : Except CompositionError Unit :=
  (contributed plan.modules fun registration => registration.definition.configRequirements).forM
    fun entry =>
      if entry.2.required ∧ ¬ config.contains entry.2.key then
        .error (.missingConfiguration entry.1 entry.2.key)
      else .ok ()

/-- The modules in the order of their activation. -/
def registrations (plan : CompositionPlan ν) : List (ModuleRegistration ν) :=
  plan.order.filterMap (plan.modules[·]?)

/-- Constructs the runtime of a fresh run. -/
def startRuntime [DurableStore σ] (plan : CompositionPlan ν) (runId : RunId) (config : HostConfig)
    (firstEntry : Nat) : Fallible σ CompositionError (Runtime σ ν) := do
  lift (plan.validateHost config)
  fun store => match Runtime.startFromDefinitionWithStore runId plan.definition plan.factories
      firstEntry store with
    | (.error source, store) => (.error (.runtimeConstructionFailed .start source), store)
    | (.ok runtime, store) => (.ok runtime, store)

/-- Constructs the runtime of a durable run. -/
def restoreRuntime [DurableStore σ] (plan : CompositionPlan ν) (runId : RunId) (config : HostConfig)
    (firstEntry : Nat) (store : σ) : Except CompositionError (Runtime σ ν) := do
  plan.validateHost config
  (Runtime.restoreFromDefinition runId plan.definition plan.factories firstEntry store).mapError
    (.runtimeConstructionFailed .restore)

end CompositionPlan

/-! ### The data -/

/-- What the activation of one module does next: it registers plugins, instantiates fibers, starts them,
waits for one of them, or waits for the hook. -/
inductive ModulePhase
  | registering (contributions : List PluginContribution)
  | instantiating (contributions : List PluginContribution) (fibers : List (Id × Nat))
  | starting (fibers : List (Id × Nat))
  | awaiting (pluginId : Id) (fiber : Nat) (rest : List (Id × Nat))
  | hooking

/-- What a rollback waits for: the hook, a fiber, or the fibers of a plugin that was taken from the
registry, with the one that is disposed of, those that are left and the errors so far. -/
inductive RollbackWait
  | nothing
  | hook
  | fiber (fiber : Nat)
  | removal (pluginId : Id) (fiber : Option Nat) (rest : List Nat) (errors : List FiberError)

/-- What a reconciliation has found. -/
structure ReconcileReport where
  driven : List Nat
  errors : List (Nat × FiberError)
  cleanupErrors : List (Nat × List EffectError)

/-- Whether nothing failed. -/
def ReconcileReport.isSuccess (report : ReconcileReport) : Bool :=
  report.errors.isEmpty && report.cleanupErrors.isEmpty

/-- Where an activation stands. -/
inductive ActivationPhase (ν : Type)
  | next
  | module (registration : ModuleRegistration ν) (current : ActivatedModule) (phase : ModulePhase)
  | reconciling (snapshot : List Nat) (drove : Bool) (report : ReconcileReport)
  | driving (fiber : Nat) (snapshot : List Nat) (report : ReconcileReport)
  | rollingBack (cause : CompositionError) (ledger : CleanupLedger) (wait : RollbackWait)
  | failed (cause : CompositionError) (rollback : RollbackReport)
  | activated

/-- What an activation does to a module: a plugin is registered, a fiber instantiated or started, or the
activate hook invoked. -/
inductive ActivationAct
  | registered (pluginId : Id)
  | instantiated (pluginId : Id) (fiber : Nat)
  | started (pluginId : Id) (fiber : Nat)
  | hooked
deriving DecidableEq

/-- **An activation.** `rest` are the modules that were not begun and `finished` those that are complete.
`log` and `trace` are history variables: what was done to which module, and the cleanup steps. -/
structure Activation (ν : Type) where
  tree : ScopeTree ν
  context : List ContextState
  registry : BTreeSet Id
  fibers : List (CapabilityFiber ν)
  rest : List (ModuleRegistration ν)
  finished : List ActivatedModule
  phase : ActivationPhase ν
  log : List (Id × ActivationAct)
  trace : List CleanupEvent

/-- What can happen: the activation runs on, a factory or a disposer or a hook that it waits for returns,
a load context registers an effect, or anybody uses the scopes. -/
inductive ActivationEvent (ν : Type)
  | advance
  | returned (result : Except Text ν)
  | cleaned (result : Except Text Unit)
  | hook (result : Except Text Unit)
  | register (fiber stack : Nat) (label : Text)
  | scope (call : ScopeCall ν)

namespace ActivationPhase

variable {ν : Type}

/-- The fiber that an activation waits for. -/
def awaited : ActivationPhase ν → Option Nat
  | .module _ _ (.awaiting _ fiber _) | .driving fiber _ _ | .rollingBack _ _ (.fiber fiber)
  | .rollingBack _ _ (.removal _ (some fiber) _ _) => some fiber
  | _ => none

end ActivationPhase

/-- The scopes of a runtime, whose one scope is a root. -/
def ScopeTree.ofScope {ν : Type} (scope : Scope ν) (nextEntryId : Nat) : ScopeTree ν :=
  ⟨⟨[⟨[], scope.own.entries, .opened, true⟩]⟩, [], nextEntryId, false, [], []⟩

namespace Activation

variable {ν : Type}

/-- The modules of a plan are activated on the scopes of a runtime. -/
def start (plan : CompositionPlan ν) (tree : ScopeTree ν) : Activation ν :=
  ⟨tree, [⟨0, ∅, ∅⟩], ∅, [], plan.registrations, [], .next, [], []⟩

/-! ### Fibers -/

/-- The answer of the last call on a fiber. -/
def answerOf (activation : Activation ν) (fiber : Nat) : Option FiberAnswer :=
  activation.fibers[fiber]?.bind CapabilityFiber.lastAnswer

/-- Calls a fiber. -/
def call (activation : Activation ν) (fiber : Nat) (call : FiberCall) : Activation ν :=
  { activation with
    fibers := activation.fibers.modify fiber fun held => held.begin activation.tree call }

/-- The fibers that the runtime of a plugin lists, by number. -/
def listed (activation : Activation ν) (pluginId : Id) : List Nat :=
  (List.range activation.fibers.length).filter fun fiber =>
    activation.fibers[fiber]?.any fun held => held.registered && held.definition.id = pluginId

/-- The runtime of a plugin forgets its fibers. -/
def unlist (activation : Activation ν) (pluginId : Id) : Activation ν :=
  { activation with
    fibers := activation.fibers.map fun held =>
      if held.definition.id = pluginId then { held with registered := false } else held }

/-! ### Modules -/

/-- Something failed: what the modules acquired is rolled back. -/
def fail (activation : Activation ν) (owned : List ActivatedModule) (cause : CompositionError) :
    Activation ν :=
  { activation with phase := .rollingBack cause (.new owned) .nothing }

/-- The fibers that a reconciliation looks at. -/
def snapshot (activation : Activation ν) : List Nat := List.range activation.fibers.length

/-- The next module, or the reconciliation after the last one. -/
def nextModule (activation : Activation ν) : Activation ν :=
  match activation.rest with
  | [] => { activation with phase := .reconciling activation.snapshot false ⟨[], [], []⟩ }
  | registration :: rest => { activation with
      rest := rest
      phase := .module registration ⟨registration.definition.id, [], [], registration.onDispose, false⟩
        (.registering registration.plugins) }

/-- A module is complete, which arms its dispose hook. -/
def complete (activation : Activation ν) (current : ActivatedModule) : Activation ν :=
  { activation with
    finished := activation.finished ++ [{ current with hookArmed := true }]
    phase := .next }

/-- **The next step within a module.** -/
def inModule (activation : Activation ν) (registration : ModuleRegistration ν)
    (current : ActivatedModule) : ModulePhase → Activation ν
  | .registering [] =>
    { activation with
      phase := .module registration current (.instantiating registration.plugins []) }
  | .registering (contribution :: rest) =>
    let pluginId := contribution.plugin.id
    if pluginId ∈ activation.registry then
      activation.fail (activation.finished ++ [current])
        (.activationFailed current.moduleId (.pluginRegistration pluginId (.duplicate pluginId)))
    else { activation with
      registry := activation.registry.insert pluginId
      log := activation.log ++ [(current.moduleId, .registered pluginId)]
      phase := .module registration { current with plugins := current.plugins ++ [pluginId] }
        (.registering rest) }
  | .instantiating [] fibers =>
    { activation with phase := .module registration current (.starting fibers) }
  | .instantiating (contribution :: rest) fibers =>
    let pluginId := contribution.plugin.id
    let refused (reason : RegistryError) := activation.fail (activation.finished ++ [current])
      (.activationFailed current.moduleId (.fiberInstantiate pluginId reason))
    if pluginId ∉ activation.registry then refused (.unknown pluginId)
    else
      match contribution.plugin.validator contribution.config with
      | .error reason => refused (.fiber (.invalidConfig pluginId reason))
      | .ok _ => { activation with
          fibers := activation.fibers ++
            [.new contribution.plugin activation.context contribution.config]
          log := activation.log ++
            [(current.moduleId, .instantiated pluginId activation.fibers.length)]
          phase := .module registration current
            (.instantiating rest (fibers ++ [(pluginId, activation.fibers.length)])) }
  | .starting ((pluginId, fiber) :: rest) =>
    { activation with
      log := activation.log ++ [(current.moduleId, ActivationAct.started pluginId fiber)]
      phase := .module registration current (.awaiting pluginId fiber rest) }.call fiber .start
  | .starting [] =>
    if registration.onActivate then { activation with
      log := activation.log ++ [(current.moduleId, .hooked)]
      phase := .module registration current .hooking }
    else activation.complete current
  | .awaiting pluginId fiber rest =>
    match activation.answerOf fiber with
    | some (.failed reason) => activation.fail (activation.finished ++ [current])
        (.activationFailed current.moduleId (.fiberStart pluginId reason))
    | some _ => { activation with
        phase := .module registration
          { current with fibers := current.fibers ++ [(pluginId, fiber)] } (.starting rest) }
    | none => activation
  | .hooking => activation

/-! ### The reconciliation -/

/-- The next fiber of a snapshot. A fiber is driven when its binding is not the current one; after a round
that drove one there is another. -/
def reconcile (activation : Activation ν) (drove : Bool) (report : ReconcileReport) :
    List Nat → Activation ν
  | fiber :: snapshot =>
    if activation.fibers[fiber]?.any (CapabilityFiber.needsReconciliation activation.tree) then
      { activation with
        phase := .driving fiber snapshot
          { report with driven := report.driven ++ [fiber] } }.call fiber .start
    else { activation with phase := .reconciling snapshot drove report }
  | [] =>
    if drove then { activation with phase := .reconciling activation.snapshot false report }
    else if report.isSuccess then { activation with phase := .activated }
    else activation.fail activation.finished
      (.reconciliationFailed (report.errors.map Prod.snd) (report.cleanupErrors.map Prod.snd))

/-- The cleanup errors that a driven fiber adds to the report. -/
def cleanupErrorsOf (activation : Activation ν) (fiber : Nat) : List (Nat × List EffectError) :=
  match activation.fibers[fiber]? with
  | some held => if held.lastCleanupErrors = [] then [] else [(fiber, held.lastCleanupErrors)]
  | none => []

/-- A driven fiber is stable. -/
def driven (activation : Activation ν) (fiber : Nat) (snapshot : List Nat)
    (report : ReconcileReport) : Activation ν :=
  { activation with
    phase := .reconciling snapshot true { report with
      errors := match activation.answerOf fiber with
        | some (.failed error) => report.errors ++ [(fiber, error)]
        | _ => report.errors
      cleanupErrors := report.cleanupErrors ++ activation.cleanupErrorsOf fiber } }

/-! ### The rollback -/

/-- The parked step ends. -/
def settle (activation : Activation ν) (cause : CompositionError) (ledger : CleanupLedger)
    (result : Except Text Unit) : Activation ν :=
  match ledger.inFlight with
  | none => activation
  | some inFlight => { activation with
      trace := activation.trace ++ [.ended inFlight.step result]
      phase := .rollingBack cause (ledger.ended inFlight.step result) .nothing }

/-- What a rollback waits for once a step has started. -/
def waitFor (activation : Activation ν) : Option InFlight → RollbackWait
  | none => .nothing
  | some (.disposeHook _) => .hook
  | some (.fiberDisposal _ _ fiber) => .fiber fiber
  | some (.registrationRemoval _ pluginId) =>
    .removal pluginId none (activation.listed pluginId) []

/-- A step that started begins: the disposal of a fiber is called at once. -/
def parked (activation : Activation ν) : Option InFlight → Activation ν
  | some (.fiberDisposal _ _ fiber) => activation.call fiber .dispose
  | _ => activation

/-- **One round of the sweep.** -/
def sweep (activation : Activation ν) (cause : CompositionError) (ledger : CleanupLedger) :
    Activation ν :=
  let round := ledger.advance (.registry activation.registry)
  let swept := { activation with
    registry := match round.authority with
      | .registry plugins => plugins
      | .ownerLost => activation.registry
    trace := activation.trace ++ round.events }
  if round.finished then { swept with phase := .failed cause round.ledger.report }
  else { swept with
    phase := .rollingBack cause round.ledger
      (activation.waitFor round.ledger.inFlight) }.parked round.ledger.inFlight

/-- The result of a disposal. -/
def disposalResult : Option FiberAnswer → Except Text Unit
  | some (.failed error) => .error error.render
  | _ => .ok ()

/-- The errors of the disposals of a plugin's fibers. -/
def disposalErrors (errors : List FiberError) : Option FiberAnswer → List FiberError
  | some (.failed error) => errors ++ [error]
  | _ => errors

/-- **The rollback goes on.** -/
def rollBack (activation : Activation ν) (cause : CompositionError) (ledger : CleanupLedger) :
    RollbackWait → Activation ν
  | .nothing => activation.sweep cause ledger
  | .hook => activation
  | .fiber fiber => activation.settle cause ledger (disposalResult (activation.answerOf fiber))
  | .removal pluginId (some fiber) rest errors => { activation with
      phase := .rollingBack cause ledger
        (.removal pluginId none rest (disposalErrors errors (activation.answerOf fiber))) }
  | .removal pluginId none (fiber :: rest) errors => { activation with
      phase := .rollingBack cause ledger (.removal pluginId (some fiber) rest errors) }.call
        fiber .dispose
  | .removal pluginId none [] errors => (activation.unlist pluginId).settle cause ledger
      (if errors = [] then .ok () else .error (RegistryError.dispose pluginId errors).render)

/-! ### Steps -/

/-- **What the activation does** when it waits for nothing. -/
def advance (activation : Activation ν) : Activation ν :=
  match activation.phase with
  | .next => activation.nextModule
  | .module registration current phase => activation.inModule registration current phase
  | .reconciling snapshot drove report => activation.reconcile drove report snapshot
  | .driving fiber snapshot report => activation.driven fiber snapshot report
  | .rollingBack cause ledger wait => activation.rollBack cause ledger wait
  | .failed _ _ | .activated => activation

/-- Something happens to a fiber. -/
def fiberStep (activation : Activation ν) (fiber : Nat) (event : FiberEvent ν) : Activation ν :=
  match activation.fibers[fiber]? with
  | none => activation
  | some held => { activation with
      tree := (held.step activation.tree event).1
      fibers := activation.fibers.set fiber (held.step activation.tree event).2 }

/-- Something happens to the fiber that the activation waits for. A fiber that needs the topology lock does
not get beyond a poisoned one. -/
def awaitedStep (activation : Activation ν) (event : FiberEvent ν) : Activation ν :=
  match activation.phase.awaited with
  | none => activation
  | some fiber =>
    if activation.tree.poisoned ∧ activation.fibers[fiber]?.any CapabilityFiber.locks then activation
    else activation.fiberStep fiber event

/-- Whether the fiber that the activation waits for, if any, has answered. -/
def ready (activation : Activation ν) : Bool :=
  match activation.phase.awaited.bind fun fiber => activation.fibers[fiber]? with
  | none => true
  | some held =>
    match held.transition with
    | .free => true
    | _ => false

/-- The hook that the activation waits for returns. -/
def hook (activation : Activation ν) (result : Except Text Unit) : Activation ν :=
  match activation.phase with
  | .module _ current .hooking =>
    match result with
    | .ok _ => activation.complete current
    | .error reason => activation.fail (activation.finished ++ [current])
        (.activationFailed current.moduleId (.activateHook reason))
  | .rollingBack cause ledger .hook => activation.settle cause ledger result
  | _ => activation

/-- Whether a call is left to others: they release no scope of the runtime's context and do not complete
the publication of a fiber. -/
def foreign (activation : Activation ν) : ScopeCall ν → Bool
  | .release scope => activation.context.all fun view => view.scope ≠ scope
  | .constructed publication _ =>
    activation.fibers.all fun fiber => fiber.begun ≠ some publication
  | _ => true

/-- **What happens.** An event that cannot happen changes nothing. -/
def step (activation : Activation ν) : ActivationEvent ν → Activation ν
  | .advance => if activation.ready then activation.advance else activation.awaitedStep .go
  | .returned result => activation.awaitedStep (.returned result)
  | .cleaned result => activation.awaitedStep (.cleaned result)
  | .hook result => activation.hook result
  | .register fiber stack label => activation.fiberStep fiber (.register stack label)
  | .scope call =>
    if activation.foreign call then { activation with tree := (activation.tree.step call).2 }
    else activation

/-- A run of events. -/
def run (activation : Activation ν) (events : List (ActivationEvent ν)) : Activation ν :=
  events.foldl step activation

end Activation

end Kernis
