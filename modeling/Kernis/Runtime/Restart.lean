/-
**Restarting a declarative run.**

A declarative run never changes its definition: not the topology, not the configurations, not the
identity. What it does change is committed first and viewed second, so a restore from the same
definition rebuilds the same views.

* `Declared` — what stays and what grows in a run of a definition.
* `performAll_synced` — the induction rule for a sequence of operations.
* `declarative_restart` — stopped after any operations, the run restores to equal views.
-/

import Kernis.Runtime.Described
import Kernis.Runtime.Reconstructed
import Kernis.Runtime.Reordered

namespace Kernis

open Std Fallible

namespace Runtime

variable {σ ν : Type} [Postcard] [FaithfulStore σ]

/-- **What a sequence of operations keeps.** -/
theorem performAll_synced (Inv : Runtime σ ν → DurableRunState → Prop)
    (step : ∀ {runtime reached state next action result}, Allowed runtime action →
      Synced runtime state → Acted runtime state action result reached next →
      Inv runtime state → Inv reached next)
    (quiet : ∀ {runtime reached state}, Quiet runtime reached → Inv runtime state →
      Inv reached state)
    (operations : List (Operation ν)) {runtime : Runtime σ ν} {state : DurableRunState}
    (synced : Synced runtime state) (before : Inv runtime state) :
    ∃ next, Synced (runtime.performAll operations) next ∧
      Inv (runtime.performAll operations) next := by
  induction operations generalizing runtime state with
  | nil => exact ⟨state, synced, before⟩
  | cons operation rest ih =>
    obtain ⟨middle, between, after⟩ := perform_synced Inv step quiet operation synced before
    exact ih between after

/-- **A run of a definition**: its topology, its configurations and its identity are those of the
definition, and every admission pinned the identities that the definition asks for. -/
structure Declared (runId : RunId) (identity : WorkflowReplayIdentity) (base : WorkflowGraph)
    (configs : BTreeMap Id TaskConfig) (runtime : Runtime σ ν) (state : DurableRunState) : Prop where
  runId : runtime.runId = runId
  provenance : runtime.identityProvenance = .declarativeDefinition
  taskConfigs : runtime.taskConfigs = configs
  topology : runtime.workflow.unfinished = base.unfinished
  identity : state.workflowReplayIdentity = some identity
  follows : Follows runtime state
  admitted : ∀ admission ∈ state.admissionHistory,
    admission.capabilities = (requiredCapabilities configs admission.taskId).map askedIdentity

section Declared

variable {runId : RunId} {identity : WorkflowReplayIdentity} {base : WorkflowGraph}
  {configs : BTreeMap Id TaskConfig}

omit [Postcard] [FaithfulStore σ] in
theorem Quiet.declared {runtime reached : Runtime σ ν} {state : DurableRunState}
    (quiet : Quiet runtime reached)
    (declared : Declared runId identity base configs runtime state) :
    Declared runId identity base configs reached state where
  runId := quiet.runId.trans declared.runId
  provenance := quiet.identityProvenance.trans declared.provenance
  taskConfigs := quiet.taskConfigs.trans declared.taskConfigs
  topology := by
    rw [quiet.workflow]
    exact declared.topology
  identity := declared.identity
  follows := quiet.follows declared.follows
  admitted := declared.admitted

/-- **Every action keeps the definition.** -/
theorem Acted.declared {runtime reached : Runtime σ ν} {state next : DurableRunState}
    {action : Action} {result : Except RuntimeError Unit}
    (configured : ∀ taskId, ∀ requirement ∈ requiredCapabilities configs taskId,
      requirement.2.isSome = true)
    (acted : Acted runtime state action result reached next) (allowed : runtime.Allowed action)
    (synced : Synced runtime state)
    (declared : Declared runId identity base configs runtime state) :
    Declared runId identity base configs reached next := by
  have follows := acted.follows allowed synced declared.follows
  have provenance := acted.keeps.1.trans declared.provenance
  have sameRun := acted.runId.trans declared.runId
  have admitted : ∀ admission ∈ next.admissionHistory,
      admission.capabilities = (requiredCapabilities configs admission.taskId).map askedIdentity := by
    cases acted with
    | refused => exact declared.admitted
    | replayed => exact declared.admitted
    | fresh room own newKey accepted =>
      cases action with
      | admission attempt =>
        obtain ⟨taskId, operationId, pins, captured, rfl⟩ := allowed
        rw [declared.taskConfigs] at captured
        cases accepted
        exact DurableRunState.forall_mem_push declared.admitted
          (capture_asked (configured taskId) captured)
      | _ => cases accepted <;> exact declared.admitted
  rcases acted.changes allowed synced with changed | same
  · cases action with
    | configure taskConfigs other => exact absurd declared.provenance allowed.1
    | mutate workflow other => exact absurd declared.provenance allowed.1
    | complete fact workflow =>
      refine ⟨sameRun, provenance, changed.taskConfigs.trans declared.taskConfigs, ?_,
        changed.identity.trans declared.identity, follows, admitted⟩
      rw [changed.workflow, ← declared.topology]
      obtain ⟨_, _, after⟩ := WorkflowGraph.complete_eq_ok allowed.1
      rw [Action.workflowAfter, after]
      rfl
    | _ =>
      refine ⟨sameRun, provenance, changed.taskConfigs.trans declared.taskConfigs, ?_,
        changed.identity.trans declared.identity, follows, admitted⟩
      rw [changed.workflow]
      exact declared.topology
  · refine ⟨sameRun, provenance, same.taskConfigs.trans declared.taskConfigs, ?_,
      same.identity.trans declared.identity, follows, admitted⟩
    rw [same.workflow]
    exact declared.topology

end Declared

/-! ### Restoring -/

/-- Two runtimes in step with the same state have the same views of it. -/
theorem Synced.same_views {runtime other : Runtime σ ν} {state : DurableRunState}
    (synced : Synced runtime state) (second : Synced other state) :
    other.journal = runtime.journal ∧ other.cancelled = runtime.cancelled ∧
      other.storeRevision = runtime.storeRevision ∧
      other.nextAttemptNumber = runtime.nextAttemptNumber := by
  refine ⟨?_, ?_, ?_, ?_⟩
  · rw [second.coherent.journal, synced.coherent.journal]
  · refine ExtTreeSet.ext_mem fun taskId => ?_
    rw [second.coherent.cancelled, synced.coherent.cancelled]
  · rw [second.coherent.revision, synced.coherent.revision]
  · rw [second.coherent.number, synced.coherent.number]

section Restore

variable {runtime : Runtime σ ν} {state : DurableRunState} {supplied : WorkflowGraph}
  {scope : Scope ν} {configs : BTreeMap Id TaskConfig} {store : σ}
  {provenance : IdentityProvenance}

/-- **Over the live topology, a restore succeeds exactly when every admission can be pinned.** -/
theorem restoreLoaded_iff (synced : Synced runtime state) (follows : Follows runtime state)
    (built : supplied.Built) (topology : supplied.unfinished = runtime.workflow.unfinished) :
    (∃ restored, restoreLoaded runtime.runId supplied scope configs store provenance state =
        .ok restored) ↔
      ∀ admission ∈ state.admissionHistory, ∃ pins,
        captureCapabilityPins scope configs admission.taskId (some admission.capabilities) =
          .ok pins := by
  have pinned : (∃ attempts, restoreAttempts scope configs state.admissionHistory = .ok attempts) ↔
      ∀ admission ∈ state.admissionHistory, ∃ pins,
        captureCapabilityPins scope configs admission.taskId (some admission.capabilities) =
          .ok pins := by
    unfold restoreAttempts
    rw [exists_mapM_ok_iff]
    refine forall₂_congr fun admission _ => ?_
    cases captureCapabilityPins scope configs admission.taskId (some admission.capabilities) with
    | error error => simp
    | ok pins => simp
  rw [← pinned]
  simp only [restoreLoaded_ok]
  constructor
  · rintro ⟨_, _, _, attempts, _, _, restored, _⟩
    exact ⟨attempts, restored⟩
  · rintro ⟨attempts, restored⟩
    exact ⟨_, _, _, attempts, follows.replays built topology,
      DurableRunState.fromDurableState_eq synced.coherent.owned.lineage, restored, rfl⟩

/-- **What a restore over the live topology reproduces.** -/
theorem restoreLoaded_reproduces {restored : Runtime σ ν} (synced : Synced runtime state)
    (follows : Follows runtime state) (built : supplied.Built)
    (topology : supplied.unfinished = runtime.workflow.unfinished)
    (same : FaithfulStore.content store = FaithfulStore.content runtime.store)
    (restores : restoreLoaded runtime.runId supplied scope configs store provenance state =
      .ok restored) :
    restored.workflow = runtime.workflow ∧ restored.journal = runtime.journal ∧
      restored.cancelled = runtime.cancelled ∧ restored.storeRevision = runtime.storeRevision ∧
      restored.nextAttemptNumber = runtime.nextAttemptNumber := by
  have held : (FaithfulStore.content store).runs[runtime.runId]? = some state := by
    rw [same]
    exact synced.backed
  have again := restoreLoaded_synced synced.coherent.owned held synced.coherent.runId restores
  refine ⟨?_, synced.same_views again⟩
  obtain ⟨replayed, _, _, replay, _, _, rfl⟩ := restoreLoaded_ok.mp restores
  exact Except.ok.inj (replay.symm.trans (follows.replays built topology))

/-- The state that a restore over the same content loads. -/
theorem Synced.restorable (synced : Synced runtime state)
    (same : FaithfulStore.content store = FaithfulStore.content runtime.store) :
    DurableStore.loadRun runtime.runId store = .ok state := by
  rw [FaithfulStore.load, same, InMemoryDurableStore.loadRun, synced.backed]

end Restore

omit [Postcard] [FaithfulStore σ] in
/-- The identity of a definition has the current format. -/
theorem current_identity {definition : RunDefinition}
    {declared : BTreeMap Id CapabilityDeclaration} {validated : ValidatedRunDefinition}
    (checks : Validates definition declared validated) :
    isLegacyRunDefinitionIdentity validated.identity.text.val = false := by
  have text := checks.identity.trans (canonicalText_eq _ _)
  have differ : ∀ other : Text, validated.identity.text.val ≠ legacyRunDefinitionFormatV1 ++ other := by
    intro other
    rw [text]
    exact append_ne_of_take 24 (by decide) (by decide) (by decide) _ _
  unfold isLegacyRunDefinitionIdentity
  refine decide_eq_false ?_
  rintro (same | front)
  · exact differ [] (same.trans (List.append_nil _).symm)
  · obtain ⟨rest, same⟩ := List.isPrefixOf_iff_prefix.mp front
    rw [List.append_assoc] at same
    exact differ _ same.symm

/-- **Declarative restart equivalence.** A run is started from a definition over a store whose other
runs are reachable, performs any operations, with any failures of the store, and stops. A restore
from the same definition over the same durable content, with any registry whose factories succeed,
returns a runtime with the same workflow, journal, cancelled set, revision and attempt counter. -/
theorem declarative_restart (runId : RunId) (definition : RunDefinition)
    (factories : FactoryRegistry ν) (firstEntry : Nat) (store reached : σ)
    (started : Runtime σ ν) (clean : (FaithfulStore.content store).AllReachable)
    (starts : startFromDefinitionWithStore runId definition factories firstEntry store =
      (.ok started, reached))
    (operations : List (Operation ν)) (others : FactoryRegistry ν) (otherEntry : Nat)
    (serves : ∀ validated, definition.validated = .ok validated → others.Serves validated)
    (opened : σ)
    (same : FaithfulStore.content opened =
      FaithfulStore.content (started.performAll operations).store) :
    ∃ restored, restoreFromDefinition runId definition others otherEntry opened = .ok restored ∧
      restored.workflow = (started.performAll operations).workflow ∧
      restored.journal = (started.performAll operations).journal ∧
      restored.cancelled = (started.performAll operations).cancelled ∧
      restored.storeRevision = (started.performAll operations).storeRevision ∧
      restored.nextAttemptNumber = (started.performAll operations).nextAttemptNumber := by
  obtain ⟨validated, workflow, configs, scope, valid, available, inputs, reconstructed, inner⟩ :=
    startFromDefinition_ok.mp starts
  obtain ⟨declarations, checks⟩ := validated_iff.mp valid
  have built := built_of_runtimeInputs inputs
  obtain ⟨synced, first, empty⟩ := startWithIdentity_synced clean built inner
  have configured : ∀ taskId, ∀ requirement ∈ requiredCapabilities configs taskId,
      requirement.2.isSome = true := by
    rintro taskId ⟨capabilityId, configured⟩ required
    obtain ⟨capability, _, rfl⟩ := declared_requirement checks inputs required
    rfl
  have initial : Declared runId validated.identity workflow configs started
      (.started runId validated.identity) := by
    have follows := (Started.fromDefinition starts).follows clean synced
    subst empty
    exact ⟨rfl, rfl, rfl, rfl, rfl, follows, fun _ member => by cases member⟩
  obtain ⟨state, live, declared⟩ := performAll_synced
    (Declared runId validated.identity workflow configs)
    (fun allowed synced acted before => acted.declared configured allowed synced before)
    (fun quiet before => quiet.declared before) operations synced initial
  generalize started.performAll operations = runtime at same live declared ⊢
  obtain ⟨other, again, complete⟩ := reconstructScope_again checks (serves validated valid)
    otherEntry reconstructed
  have pinned : ∀ admission ∈ state.admissionHistory, ∃ pins,
      captureCapabilityPins other configs admission.taskId (some admission.capabilities) =
        .ok pins := by
    intro admission member
    obtain ⟨pins, captured⟩ := reconstructed_pins checks inputs complete admission.taskId
    have identities := capture_asked (configured admission.taskId) captured
    refine ⟨pins, (repin_iff ?_).mpr ⟨captured, ?_⟩⟩
    · rw [declared.admitted admission member, ← identities]
      exact capture_ascending captured
    · rw [identities, declared.admitted admission member]
  have topology := declared.topology.symm
  have restorable : ∃ restored, restoreLoaded runtime.runId workflow other configs opened
      .declarativeDefinition state = .ok restored :=
    (restoreLoaded_iff live declared.follows built topology).mpr pinned
  obtain ⟨restored, restores⟩ := restorable
  have reproduces := restoreLoaded_reproduces live declared.follows built topology same restores
  rw [declared.runId] at restores
  refine ⟨restored, restoreFromDefinition_ok.mpr ⟨validated, state, workflow, configs, other, valid,
    (serves validated valid).validate, ?_, ?_, inputs, again, restores⟩, reproduces⟩
  · rw [← declared.runId]
    exact live.restorable same
  · exact ensureRestorable_iff.mpr ⟨declared.identity, current_identity checks⟩

end Runtime

/-! ### A sample restart -/

/-- A registry for the capability of the sample definition. -/
def sampleFactories : FactoryRegistry Unit :=
  ⟨(∅ : BTreeMap FactoryKey (CapabilityFactory Unit)).insert
    ⟨sampleCapability, ⟨"provider".toList⟩⟩ fun _ => .ok ()⟩

theorem sampleFactories_serves {validated : ValidatedRunDefinition}
    (valid : sampleOrdered.validated = .ok validated) : sampleFactories.Serves validated := by
  have keys : (sampleOrdered.validated.toOption.all fun validated =>
      (valuesOf validated.capabilities).all fun capability => (⟨capability.id,
        capability.definitionIdentity⟩ : FactoryKey) = ⟨sampleCapability, ⟨"provider".toList⟩⟩) =
      true := by decide +kernel
  rw [valid] at keys
  intro capability member
  have same := of_decide_eq_true (List.all_eq_true.mp keys capability member)
  refine ⟨fun _ => .ok (), ?_, fun _ => ⟨(), rfl⟩⟩
  rw [FactoryRegistry.factoryFor, same]
  exact lookup_insert_self _ _ _

/-- The first sample task completes, the process stops, and the completion is still there. -/
theorem declarative_restart_sample :
    let _ := Persisted.postcard
    ∃ (started restored : Runtime InMemoryDurableStore Unit),
      (Runtime.startFromDefinitionWithStore sampleRun sampleOrdered sampleFactories 1
        InMemoryDurableStore.new).1 = .ok started ∧
      Runtime.restoreFromDefinition sampleRun sampleOrdered sampleFactories 7
        (started.performAll [.command .step]).store = .ok restored ∧
      restored.workflow.isCompleted sampleTask = true := by
  intro _
  obtain ⟨started, starts, completed⟩ := exists_ok_of_any
    (show ((Runtime.startFromDefinitionWithStore sampleRun sampleOrdered sampleFactories 1
        InMemoryDurableStore.new).1.toOption.any fun started =>
      (started.performAll [.command .step]).workflow.isCompleted sampleTask) = true by
      decide +kernel)
  obtain ⟨restored, restores, workflow, _⟩ := Runtime.declarative_restart sampleRun sampleOrdered
    sampleFactories 1 InMemoryDurableStore.new _ started InMemoryDurableStore.allReachable_new
    (Prod.ext starts rfl) [.command .step] sampleFactories 7 (fun _ => sampleFactories_serves) _ rfl
  exact ⟨started, restored, starts, restores, workflow ▸ completed⟩

end Kernis
