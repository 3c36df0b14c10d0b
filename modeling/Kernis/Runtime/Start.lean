/-
**Starting and restoring a runtime.**

* `startFromDefinitionWithStore`, `startRunWithStore` — create the run, record its identity, and
  build an empty runtime. A start consumes the store, so the store it leaves is part of the result.
* `restoreFromDefinition`, `restoreRun` — load the durable facts, check the identity, and rebuild
  every view of them. A restore writes nothing.
* `reconstructScope` — a fresh root scope in construction order.
-/

import Kernis.Runtime.Operations

namespace Kernis

open Std Fallible

/-! ### Inputs -/

/-- Completions must come from the durable authority. -/
def ensureUnfinishedWorkflow (workflow : WorkflowGraph) : Except RuntimeError Unit :=
  match workflow.completionLog.head? with
  | some completion => .error (.precompletedWorkflow completion.taskId)
  | none => .ok ()

/-- The runtime configuration of a declared task. -/
def TaskDefinition.config (task : TaskDefinition) : TaskConfig :=
  { task.requiredCapabilities.foldl (fun config requirement =>
      config.requireCapabilityWithIdentity requirement.capabilityId
        requirement.definitionIdentity.text) TaskConfig.new with effect := task.effect }

/-- The workflow and the task configurations of a validated definition. -/
def runtimeInputs (definition : ValidatedRunDefinition) :
    Except RuntimeError (WorkflowGraph × BTreeMap Id TaskConfig) :=
  let configs := (valuesOf definition.tasks).foldl
    (fun configs task => configs.insert task.id task.config) (∅ : BTreeMap Id TaskConfig)
  if workflowMutations definition.tasks = [] then .ok (.empty, configs)
  else
    match WorkflowGraph.empty.applyBatch 0 (workflowMutations definition.tasks) with
    | .error error => .error (.workflow error)
    | .ok (_, workflow) => .ok (workflow, configs)

section Reconstruct

variable {ν : Type} (definition : ValidatedRunDefinition) (factories : FactoryRegistry ν)

/-- How a refused publication is reported. -/
def publicationError (capability : CapabilityDeclaration) : ScopeError → RuntimeError
  | .constructionFailed _ reason => .factory
      (.constructionFailed capability.id capability.definitionIdentity reason)
  | error => .reconstruction (.capabilityPublication capability.id error)

/-- Publishes one resolved capability through its factory. -/
def reconstructCapability (scope : Scope ν) (entryId : Nat) (capabilityId : Id) :
    Except RuntimeError (Scope ν) :=
  match definition.capabilities[capabilityId]? with
  | none => .error (.reconstruction (.reconstructionInvariantViolation
      ("resolved unknown capability ".toList ++ capabilityId.asStr)))
  | some capability =>
    match factories.factoryFor capability.id capability.definitionIdentity with
    | none => .error (.reconstruction (.reconstructionInvariantViolation
        ("prevalidated factory disappeared for capability ".toList ++ capability.id.asStr ++
          " definition ".toList ++ capability.definitionIdentity.text)))
    | some factory =>
      match scope.provide capability.definition factory entryId with
      | .error error => .error (publicationError capability error)
      | .ok (_, next) => .ok next

/-- Publishes capabilities in order, each under the next entry identity. -/
def reconstructCapabilities (scope : Scope ν) (entryId : Nat) :
    List Id → Except RuntimeError (Scope ν)
  | [] => .ok scope
  | capabilityId :: rest =>
    match reconstructCapability definition factories scope entryId capabilityId with
    | .error error => .error error
    | .ok next => reconstructCapabilities next (entryId + 1) rest

/-- A fresh root scope with every declared capability. -/
def reconstructScope (firstEntry : Nat) : Except RuntimeError (Scope ν) :=
  match (capabilityGraph definition.capabilities).resolve with
  | .error error => .error (.reconstruction (.capabilityGraph error))
  | .ok order => reconstructCapabilities definition factories Scope.root firstEntry order

end Reconstruct

/-- Task configurations by task; every task must exist. -/
def collectTaskConfigs (workflow : WorkflowGraph) :
    BTreeMap Id TaskConfig → List (Id × TaskConfig) →
      Except RuntimeError (BTreeMap Id TaskConfig)
  | configs, [] => .ok configs
  | configs, (taskId, config) :: rest =>
    if (workflow.task taskId).isNone then .error (.unknownTask taskId)
    else collectTaskConfigs workflow (configs.insert taskId config) rest

/-- Whether an identity was written by the refused `v1` canonicalization. -/
def isLegacyRunDefinitionIdentity (identity : Text) : Bool :=
  identity = legacyRunDefinitionFormatV1 ∨
    (legacyRunDefinitionFormatV1 ++ ":".toList).isPrefixOf identity

/-- The gate for restoring a declarative run. -/
def ensureRestorableDefinitionIdentity (computed : WorkflowReplayIdentity) :
    Option WorkflowReplayIdentity → Except RuntimeError Unit
  | none => .error (.definitionMismatch computed none)
  | some durable =>
    if isLegacyRunDefinitionIdentity durable.text.val then
      .error (.legacyDefinitionIdentityUnsupported durable runDefinitionFormat)
    else if durable ≠ computed then .error (.definitionMismatch computed (some durable))
    else .ok ()

/-- A workflow that does not accept the durable completions violates a store invariant. -/
def completionReplayError : WorkflowGraphError → StoreInvariant
  | .unknownTask taskId => .completionUnknownTask taskId
  | .incompletePrerequisite task dependency => .completionPrerequisiteMismatch task dependency
  | .taskAlreadyCompleted taskId =>
    .completionReplayRejected (some taskId) "task completion was replayed twice".toList
  | other => .completionReplayRejected none other.render

/-- The supplied topology with the durable completions. -/
def replayWorkflow (supplied : WorkflowGraph) (completions : List CompletionRecord) :
    Except RuntimeError WorkflowGraph :=
  match WorkflowGraph.replayWithFacts supplied.mutationLog
      (completions.map fun completion => ⟨completion.taskId⟩) with
  | .error error => .error (.store (.invariantViolation (completionReplayError error)))
  | .ok workflow => .ok workflow

/-! ### Building -/

namespace Runtime

variable {σ ν : Type}

/-- Static identifiers of the observation streams. -/
def executionStream : Id := ⟨"runtime-events".toList, by decide⟩

def progressStream : Id := ⟨"runtime-progress".toList, by decide⟩

def telemetryStream : Id := ⟨"runtime-telemetry".toList, by decide⟩

/-- A runtime with fresh streams and no attempts. -/
def build (runId : RunId) (workflow : WorkflowGraph) (scope : Scope ν)
    (taskConfigs : BTreeMap Id TaskConfig) (journal : DurableJournal) (store : σ)
    (storeRevision : Nat) (identityProvenance : IdentityProvenance) : Runtime σ ν where
  runId := runId
  workflow := workflow
  scope := scope
  journal := journal
  store := store
  storeRevision := storeRevision
  identityProvenance := identityProvenance
  taskConfigs := taskConfigs
  attempts := []
  pendingStarted := none
  cancelled := ∅
  nextAttemptNumber := 1
  executionSequencer := .new executionStream
  progressSequencer := .new progressStream
  telemetrySequencer := .new telemetryStream
  executionEvents := ⟨128, [], by decide, by decide⟩
  progressEvents := ⟨8, [], by decide, by decide⟩
  telemetryEvents := ⟨1, [], by decide, by decide⟩

/-- The attempts of the durable admissions, each with fresh pins of the admitted capabilities. -/
def restoreAttempts (scope : Scope ν) (taskConfigs : BTreeMap Id TaskConfig)
    (admissions : List AttemptAdmission) : Except RuntimeError (List TaskAttempt) :=
  admissions.mapM fun admission =>
    match captureCapabilityPins scope taskConfigs admission.taskId
        (some admission.capabilities) with
    | .error error => .error error
    | .ok pins => .ok ⟨admission.runId, admission.taskId, admission.attemptId,
        admission.operationId, pins⟩

/-- Rebuilds every view of loaded durable facts. -/
def restoreLoaded (runId : RunId) (workflow : WorkflowGraph) (scope : Scope ν)
    (taskConfigs : BTreeMap Id TaskConfig) (store : σ) (identityProvenance : IdentityProvenance)
    (state : DurableRunState) : Except RuntimeError (Runtime σ ν) := do
  let replayed ← replayWorkflow workflow state.completionHistory
  let journal ← (DurableJournal.fromDurableState state).mapError .journal
  let attempts ← restoreAttempts scope taskConfigs state.admissionHistory
  .ok { build runId replayed scope taskConfigs journal store state.revision identityProvenance with
    cancelled := (valuesOf state.cancellations).foldl (fun cancelled cancellation =>
      cancelled.insert cancellation.taskId) ∅
    attempts := attempts
    nextAttemptNumber := state.admissionHistory.length + 1 }

variable [DurableStore σ]

/-! ### Starting -/

/-- Creates the run, or takes over an untouched bootstrap of it; the revision to commit at. -/
def bootstrapRun (runId : RunId) : Fallible σ RuntimeError Nat :=
  fun store =>
    match DurableStore.createRun runId store with
    | (.ok revision, reached) => (.ok revision, reached)
    | (.error (.runAlreadyExists existing), reached) =>
      match DurableStore.loadRun runId reached with
      | .error error => (.error (.store error), reached)
      | .ok state =>
        if state.isPristineBootstrap then (.ok 0, reached)
        else (.error (.store (.runAlreadyExists existing)), reached)
    | (.error error, reached) => (.error (.store error), reached)

/-- Records the replay identity of a new run. -/
def recordIdentity (runId : RunId) (revision : Nat) (replayIdentity : WorkflowReplayIdentity) :
    Fallible σ RuntimeError Nat :=
  fun store =>
    match DurableStore.commit (.single runId revision
        ⟨⟨"workflow-replay-identity".toList, by decide⟩⟩
        (.recordWorkflowReplayIdentity replayIdentity)) store with
    | (.error error, reached) => (.error (.store error), reached)
    | (.ok result, reached) => (.ok result.revision, reached)

/-- Starts a run under a replay identity. -/
def startWithIdentity (runId : RunId) (workflow : WorkflowGraph) (scope : Scope ν)
    (taskConfigs : BTreeMap Id TaskConfig) (replayIdentity : WorkflowReplayIdentity)
    (identityProvenance : IdentityProvenance) : Fallible σ RuntimeError (Runtime σ ν) := do
  lift (ensureUnfinishedWorkflow workflow)
  let created ← bootstrapRun runId
  let revision ← recordIdentity runId created replayIdentity
  let store ← get
  pure (build runId workflow scope taskConfigs .new store revision identityProvenance)

/-- Starts a run from a declarative definition. -/
def startFromDefinitionWithStore (runId : RunId) (definition : RunDefinition)
    (factories : FactoryRegistry ν) (firstEntry : Nat) :
    Fallible σ RuntimeError (Runtime σ ν) := do
  let validated ← lift (definition.validated.mapError .definition)
  lift ((factories.validate validated).mapError .factory)
  let (workflow, taskConfigs) ← lift (runtimeInputs validated)
  let scope ← lift (reconstructScope validated factories firstEntry)
  startWithIdentity runId workflow scope taskConfigs validated.identity .declarativeDefinition

/-- Starts a run from live objects. -/
def startRunWithStore (runId : RunId) (workflow : WorkflowGraph) (scope : Scope ν)
    (taskConfigs : List (Id × TaskConfig)) : Fallible σ RuntimeError (Runtime σ ν) := do
  lift (ensureUnfinishedWorkflow workflow)
  let configs ← lift (collectTaskConfigs workflow ∅ taskConfigs)
  let replayIdentity ← lift ((legacyWorkflowReplayIdentity workflow configs).mapError .store)
  startWithIdentity runId workflow scope configs replayIdentity .legacyLiveObject

/-! ### Restoring -/

/-- Restores a runtime from a declarative definition and the durable facts. -/
def restoreFromDefinition (runId : RunId) (definition : RunDefinition)
    (factories : FactoryRegistry ν) (firstEntry : Nat) (store : σ) :
    Except RuntimeError (Runtime σ ν) := do
  let validated ← definition.validated.mapError .definition
  (factories.validate validated).mapError .factory
  let state ← (DurableStore.loadRun runId store).mapError .store
  ensureRestorableDefinitionIdentity validated.identity state.workflowReplayIdentity
  let (workflow, taskConfigs) ← runtimeInputs validated
  let scope ← reconstructScope validated factories firstEntry
  restoreLoaded runId workflow scope taskConfigs store .declarativeDefinition state

/-- Restores a runtime from live objects and the durable facts. -/
def restoreRun (runId : RunId) (workflow : WorkflowGraph) (scope : Scope ν)
    (taskConfigs : List (Id × TaskConfig)) (store : σ) : Except RuntimeError (Runtime σ ν) := do
  ensureUnfinishedWorkflow workflow
  let configs ← collectTaskConfigs workflow ∅ taskConfigs
  let state ← (DurableStore.loadRun runId store).mapError .store
  let expected ← (legacyWorkflowReplayIdentity workflow configs).mapError .store
  if state.workflowReplayIdentity ≠ some expected then
    .error (.workflowReplayIdentityMismatch expected state.workflowReplayIdentity)
  else restoreLoaded runId workflow scope configs store .legacyLiveObject state

end Runtime

/-! ### A sample workflow of one task -/

/-- One task without prerequisites. -/
def sampleWorkflow : WorkflowGraph where
  topology := ⟨(∅ : BTreeMap Id Task).insert sampleTask ⟨sampleTask, "label".toList⟩, ∅⟩
  facts := ⟨∅, []⟩
  topologyRevision := 1
  mutationLog := [⟨0, 1, [.addTask ⟨sampleTask, "label".toList⟩]⟩]

/-- The sample workflow is what its one batch builds. -/
theorem sampleWorkflow_built : WorkflowGraph.empty.applyBatch 0
    [.addTask ⟨sampleTask, "label".toList⟩] =
      .ok (⟨0, 1, [.addTask ⟨sampleTask, "label".toList⟩]⟩, sampleWorkflow) := by
  decide +kernel

/-- A run of the sample workflow over a new store, without capabilities. -/
def sampleStarted [Postcard] : Except RuntimeError (Runtime InMemoryDurableStore Unit) :=
  (Runtime.startRunWithStore sampleRun sampleWorkflow Scope.root [] InMemoryDurableStore.new).1

end Kernis
