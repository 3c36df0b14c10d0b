/-
**A host of many runs over one store.**

A host opens runtimes of any number of runs over handles of one store, drives them in any order, and
opens them again after a crash. It has several runtimes of one run where it wants to.

* `Opening`, `HostEvent`, `Host.step`, `Host.machine` — the host.
* `Host.follows` — hosts over coupled stores answer alike.
* `Host.isolated` — a run over a shared store is answered as if it were alone, whatever the other rows
  hold and whatever is done with them.
* `Host.physical` — a host over the physical store is answered as one over the in-memory store.
-/

import Kernis.Lib.Machine
import Kernis.Recovery.Rows
import Kernis.Runtime.Coupled

namespace Kernis

open Std Fallible

/-! ### Openings -/

/-- How a runtime is opened. -/
inductive Opening (ν : Type)
  | start (definition : RunDefinition) (factories : FactoryRegistry ν) (firstEntry : Nat)
  | startLive (workflow : WorkflowGraph) (scope : Scope ν) (taskConfigs : List (Id × TaskConfig))
  | restore (definition : RunDefinition) (factories : FactoryRegistry ν) (firstEntry : Nat)
  | restoreLive (workflow : WorkflowGraph) (scope : Scope ν) (taskConfigs : List (Id × TaskConfig))

namespace Opening

variable {σ τ ν : Type} [DurableStore σ] [DurableStore τ]

/-- Opens a runtime; the host keeps it without its handle. -/
def perform (runId : RunId) : Opening ν → Fallible σ RuntimeError (Runtime Unit ν)
  | .start definition factories firstEntry =>
    (Runtime.startFromDefinitionWithStore runId definition factories firstEntry).map
      fun runtime => runtime.onStore ()
  | .startLive workflow scope taskConfigs =>
    (Runtime.startRunWithStore runId workflow scope taskConfigs).map fun runtime => runtime.onStore ()
  | .restore definition factories firstEntry => do
    let store ← get
    lift ((Runtime.restoreFromDefinition runId definition factories firstEntry store).map
      fun runtime => runtime.onStore ())
  | .restoreLive workflow scope taskConfigs => do
    let store ← get
    lift ((Runtime.restoreRun runId workflow scope taskConfigs store).map
      fun runtime => runtime.onStore ())

variable {about : RunId → Prop} {related : σ → τ → Prop} {exempt : σ → Prop} {store : σ} {twin : τ}
  {runId : RunId}

/-- **Openings over coupled stores.** -/
theorem perform_agree (coupled : Coupled about related exempt) (near : related store twin)
    (here : about runId) (opening : Opening ν) :
    Agree related exempt (opening.perform runId store) (opening.perform runId twin) := by
  cases opening with
  | start definition factories firstEntry =>
    rcases Runtime.startFromDefinition_cases runId definition factories firstEntry with
      ⟨error, refused⟩ | ⟨workflow, scope, taskConfigs, replayIdentity, started⟩
    · rw [perform, perform, run_map, run_map, refused, refused]
      exact .inr ⟨rfl, near⟩
    · rw [perform, perform, run_map, run_map, started, started]
      exact Runtime.startWithIdentity_agree coupled near here taskConfigs replayIdentity _
  | startLive workflow scope taskConfigs =>
    rcases Runtime.startRun_cases runId workflow scope taskConfigs with
      ⟨error, refused⟩ | ⟨configs, replayIdentity, started⟩
    · rw [perform, perform, run_map, run_map, refused, refused]
      exact .inr ⟨rfl, near⟩
    · rw [perform, perform, run_map, run_map, started, started]
      exact Runtime.startWithIdentity_agree coupled near here configs replayIdentity _
  | restore definition factories firstEntry =>
    exact .inr ⟨Runtime.restoreFromDefinition_agree (coupled.load near here) definition factories
      firstEntry, near⟩
  | restoreLive workflow scope taskConfigs =>
    exact .inr ⟨Runtime.restoreRun_agree (coupled.load near here) workflow scope taskConfigs, near⟩

theorem perform_exempt (coupled : Coupled about related exempt) (free : exempt store)
    (opening : Opening ν) : exempt (opening.perform runId store).2 := by
  cases opening with
  | start definition factories firstEntry =>
    rcases Runtime.startFromDefinition_cases runId definition factories firstEntry with
      ⟨error, refused⟩ | ⟨workflow, scope, taskConfigs, replayIdentity, started⟩
    · rw [perform, run_map, refused]
      exact free
    · rw [perform, run_map, started]
      exact Runtime.startWithIdentity_exempt coupled free taskConfigs replayIdentity _
  | startLive workflow scope taskConfigs =>
    rcases Runtime.startRun_cases runId workflow scope taskConfigs with
      ⟨error, refused⟩ | ⟨configs, replayIdentity, started⟩
    · rw [perform, run_map, refused]
      exact free
    · rw [perform, run_map, started]
      exact Runtime.startWithIdentity_exempt coupled free configs replayIdentity _
  | restore definition factories firstEntry => exact free
  | restoreLive workflow scope taskConfigs => exact free

omit [DurableStore τ] in
/-- What is opened is a runtime of its run. -/
theorem runId_of_perform {opening : Opening ν} {runtime : Runtime Unit ν}
    (opened : (opening.perform runId store).1 = .ok runtime) : runtime.runId = runId := by
  have started {workflow : WorkflowGraph} {scope : Scope ν} {taskConfigs : BTreeMap Id TaskConfig}
      {replayIdentity : WorkflowReplayIdentity} {provenance : IdentityProvenance}
      (opened : ((Runtime.startWithIdentity runId workflow scope taskConfigs replayIdentity provenance
        store).1.map fun runtime => runtime.onStore ()) = .ok runtime) : runtime.runId = runId := by
    rcases built : Runtime.startWithIdentity runId workflow scope taskConfigs replayIdentity provenance
      store with ⟨_ | inner, reached⟩
    · rw [built] at opened
      cases opened
    · rw [built] at opened
      obtain ⟨_, _, _, _, _, _, rfl⟩ := Runtime.startWithIdentity_ok.mp built
      cases opened
      rfl
  have restored {workflow : WorkflowGraph} {scope : Scope ν} {taskConfigs : BTreeMap Id TaskConfig}
      {provenance : IdentityProvenance} {state : DurableRunState} {inner : Runtime σ ν}
      (rebuilt : Runtime.restoreLoaded runId workflow scope taskConfigs store provenance state =
        .ok inner) : inner.runId = runId := by
    obtain ⟨_, _, _, _, _, _, rfl⟩ := Runtime.restoreLoaded_ok.mp rebuilt
    rfl
  cases opening with
  | start definition factories firstEntry =>
    rw [perform, run_map] at opened
    rcases Runtime.startFromDefinition_cases runId definition factories firstEntry with
      ⟨error, refused⟩ | ⟨_, _, _, _, same⟩
    · rw [refused] at opened
      cases opened
    · rw [same] at opened
      exact started opened
  | startLive workflow scope taskConfigs =>
    rw [perform, run_map] at opened
    rcases Runtime.startRun_cases runId workflow scope taskConfigs with
      ⟨error, refused⟩ | ⟨_, _, same⟩
    · rw [refused] at opened
      cases opened
    · rw [same] at opened
      exact started opened
  | restore definition factories firstEntry =>
    rw [perform, run_bind, run_get] at opened
    simp only [run_lift] at opened
    cases inner : Runtime.restoreFromDefinition runId definition factories firstEntry store with
    | error error =>
      rw [inner] at opened
      cases opened
    | ok runtime =>
      rw [inner] at opened
      cases opened
      obtain ⟨_, _, _, _, _, _, _, _, _, _, _, rebuilt⟩ := Runtime.restoreFromDefinition_ok.mp inner
      exact restored rebuilt
  | restoreLive workflow scope taskConfigs =>
    rw [perform, run_bind, run_get] at opened
    simp only [run_lift] at opened
    cases inner : Runtime.restoreRun runId workflow scope taskConfigs store with
    | error error =>
      rw [inner] at opened
      cases opened
    | ok runtime =>
      rw [inner] at opened
      cases opened
      obtain ⟨_, _, _, _, _, _, _, _, rebuilt⟩ := Runtime.restoreRun_ok.mp inner
      exact restored rebuilt

end Opening

/-! ### Hosts -/

/-- What a host is asked to do with a runtime. -/
inductive HostRequest (ν : Type)
  | opens (opening : Opening ν)
  | performs (operation : Operation ν)

/-- A request for one of the runtimes of a run. -/
structure HostEvent (ι ν : Type) where
  runId : RunId
  name : ι
  request : HostRequest ν

/-- A host: the store, and the runtimes by run and name. They are kept without their handles. -/
structure Host (ι σ ν : Type) where
  store : σ
  runtimes : RunId → ι → Option (Runtime Unit ν)

namespace Host

variable {ι σ τ ν : Type} [DecidableEq ι]

/-- A host without runtimes. -/
def fresh (store : σ) : Host ι σ ν := ⟨store, fun _ _ => none⟩

/-- Keeps a runtime under a name, in the place of the one that was there. -/
def place (runtimes : RunId → ι → Option (Runtime Unit ν)) (runId : RunId) (name : ι)
    (runtime : Runtime Unit ν) : RunId → ι → Option (Runtime Unit ν) :=
  Function.update runtimes runId (Function.update (runtimes runId) name (some runtime))

theorem place_self (runtimes : RunId → ι → Option (Runtime Unit ν)) (runId : RunId) (name : ι)
    (runtime : Runtime Unit ν) : place runtimes runId name runtime runId =
      Function.update (runtimes runId) name (some runtime) := Function.update_self ..

theorem place_of_ne (runtimes : RunId → ι → Option (Runtime Unit ν)) {runId another : RunId}
    {name : ι} {runtime : Runtime Unit ν} (differs : another ≠ runId) :
    place runtimes runId name runtime another = runtimes another := Function.update_of_ne differs ..

section Step

variable [DurableStore σ]

/-- Opens a runtime and keeps it under a name. -/
def opens (runId : RunId) (name : ι) (opening : Opening ν) (host : Host ι σ ν) :
    Option (Except RuntimeError Reply) × Host ι σ ν :=
  match opening.perform runId host.store with
  | (.error error, store) => (some (.error error), ⟨store, host.runtimes⟩)
  | (.ok runtime, store) => (some (.ok .done), ⟨store, place host.runtimes runId name runtime⟩)

/-- Drives a runtime over the store as it is now; there is no answer for a runtime that is not there. -/
def drives (runId : RunId) (name : ι) (operation : Operation ν) (host : Host ι σ ν) :
    Option (Except RuntimeError Reply) × Host ι σ ν :=
  match host.runtimes runId name with
  | none => (none, host)
  | some runtime =>
    (some (operation.perform (runtime.onStore host.store)).1,
      ⟨(operation.perform (runtime.onStore host.store)).2.store,
        place host.runtimes runId name
          ((operation.perform (runtime.onStore host.store)).2.onStore ())⟩)

/-- One request. -/
def step (event : HostEvent ι ν) (host : Host ι σ ν) :
    Option (Except RuntimeError Reply) × Host ι σ ν :=
  match event.request with
  | .opens opening => host.opens event.runId event.name opening
  | .performs operation => host.drives event.runId event.name operation

/-- The host as a machine. -/
def machine (ι σ ν : Type) [DecidableEq ι] [DurableStore σ] :
    Machine (Host ι σ ν) (HostEvent ι ν) (Option (Except RuntimeError Reply)) :=
  ⟨step⟩

end Step

/-- **Two hosts that are alike in some runs**: their stores are related, and they have the same runtimes
of these runs, each under its own run. -/
structure Near (about : RunId → Prop) (related : σ → τ → Prop) (host : Host ι σ ν)
    (other : Host ι τ ν) : Prop where
  related : related host.store other.store
  runtimes : ∀ runId, about runId → host.runtimes runId = other.runtimes runId
  sorted : ∀ runId name runtime, host.runtimes runId name = some runtime → runtime.runId = runId

variable {about : RunId → Prop} {related : σ → τ → Prop} {exempt : σ → Prop} {host : Host ι σ ν}
  {other : Host ι τ ν} {runId : RunId} {name : ι} {runtime : Runtime Unit ν}

/-- The same runtime is kept by both. -/
theorem Near.place {store : σ} {twin : τ} (near : Near about related host other)
    (next : related store twin) (own : runtime.runId = runId) :
    Near about related ⟨store, place host.runtimes runId name runtime⟩
      (⟨twin, place other.runtimes runId name runtime⟩ : Host ι τ ν) := by
  refine ⟨next, fun another here => ?_, fun another called held found => ?_⟩
  · show Host.place host.runtimes runId name runtime another =
      Host.place other.runtimes runId name runtime another
    by_cases same : another = runId
    · subst same
      rw [place_self, place_self, near.runtimes another here]
    · rw [place_of_ne _ same, place_of_ne _ same, near.runtimes another here]
  · change Host.place host.runtimes runId name runtime another called = some held at found
    by_cases same : another = runId
    · subst same
      rw [place_self] at found
      by_cases again : called = name
      · subst again
        rw [Function.update_self] at found
        cases found
        exact own
      · rw [Function.update_of_ne again] at found
        exact near.sorted another called held found
    · rw [place_of_ne _ same] at found
      exact near.sorted another called held found

variable [DurableStore σ] [DurableStore τ]

theorem opens_agree (coupled : Coupled about related exempt) (opening : Opening ν)
    (here : about runId) (near : Near about related host other) :
    Agree (Near about related) (fun host => exempt host.store) (host.opens runId name opening)
      (other.opens runId name opening) := by
  have opened := Opening.perform_agree coupled near.related here opening
  have named : ∀ runtime, (opening.perform runId host.store).1 = .ok runtime →
      runtime.runId = runId := fun _ => Opening.runId_of_perform
  unfold opens
  generalize opening.perform runId host.store = one at opened named ⊢
  generalize opening.perform runId other.store = two at opened ⊢
  obtain ⟨result, reached⟩ := one
  obtain ⟨answer, again⟩ := two
  rcases opened with free | ⟨same, next⟩
  · cases result with
    | error error => exact .inl free
    | ok runtime => exact .inl free
  · obtain rfl : result = answer := same
    cases result with
    | error error => exact .inr ⟨rfl, next, near.runtimes, near.sorted⟩
    | ok runtime => exact .inr ⟨rfl, near.place next (named runtime rfl)⟩

theorem drives_agree (coupled : Coupled about related exempt) (operation : Operation ν)
    (here : about runId) (near : Near about related host other) :
    Agree (Near about related) (fun host => exempt host.store) (host.drives runId name operation)
      (other.drives runId name operation) := by
  unfold drives
  rw [← near.runtimes runId here]
  cases found : host.runtimes runId name with
  | none => exact .inr ⟨rfl, near⟩
  | some runtime =>
    have own := near.sorted runId name runtime found
    have twins : Runtime.Twins (fun another => about another ∧ another = runId) related
        (runtime.onStore host.store) (runtime.onStore other.store) :=
      ⟨⟨own.symm ▸ here, own⟩, rfl, near.related⟩
    have narrow : Coupled (fun another => about another ∧ another = runId) related exempt :=
      ⟨fun near here => coupled.create near here.1, fun near here => coupled.load near here.1,
        fun near here => coupled.commit near here.1, coupled.commit_lasts, coupled.create_lasts⟩
    rcases Runtime.operation_agree narrow operation twins with free | ⟨same, after⟩
    · exact .inl free
    · refine .inr ⟨congrArg some same, ?_⟩
      have detached : (operation.perform (runtime.onStore other.store)).2.onStore () =
          (operation.perform (runtime.onStore host.store)).2.onStore () := by
        rw [after.same]
        rfl
      simp only [detached]
      exact near.place after.related after.about.2

/-- **A request for a run that is alike.** -/
theorem step_agree (coupled : Coupled about related exempt) (event : HostEvent ι ν)
    (here : about event.runId) (near : Near about related host other) :
    Agree (Near about related) (fun host => exempt host.store) (step event host) (step event other) := by
  unfold step
  cases event.request with
  | opens opening => exact opens_agree coupled opening here near
  | performs operation => exact drives_agree coupled operation here near

/-- An exemption lasts. -/
theorem step_exempt (coupled : Coupled about related exempt) (event : HostEvent ι ν)
    (host : Host ι σ ν) (free : exempt host.store) : exempt (step event host).2.store := by
  unfold step
  cases event.request with
  | opens opening =>
    have kept : exempt (opening.perform event.runId host.store).2 :=
      Opening.perform_exempt coupled free opening
    show exempt (host.opens event.runId event.name opening).2.store
    unfold opens
    split
    · rename_i failed
      rw [failed] at kept
      exact kept
    · rename_i opened
      rw [opened] at kept
      exact kept
  | performs operation =>
    show exempt (host.drives event.runId event.name operation).2.store
    unfold drives
    split
    · exact free
    · exact Runtime.operation_exempt coupled operation free

/-- **Hosts over coupled stores.** -/
theorem follows (coupled : Coupled (fun _ => True) related exempt) :
    Machine.Follows (machine ι σ ν) (machine ι τ ν) (Near (fun _ => True) related)
      (fun host => exempt host.store) :=
  ⟨fun event _ _ near => step_agree coupled event trivial near, step_exempt coupled⟩

/-! ### One run among many -/

/-- A request leaves the runtimes of the other runs. -/
theorem runtimes_of_step (event : HostEvent ι ν) (host : Host ι σ ν) {another : RunId}
    (differs : another ≠ event.runId) :
    (step event host).2.runtimes another = host.runtimes another := by
  unfold step
  cases event.request with
  | opens opening =>
    simp only [opens]
    split
    · rfl
    · exact place_of_ne _ differs
  | performs operation =>
    simp only [drives]
    split
    · rfl
    · exact place_of_ne _ differs

end Host

/-- Two stores with the same row of a run answer its calls alike. -/
theorem RowStore.coupled_own {σ : Type} [RowStore σ] (runId : RunId) :
    Coupled (fun another => another = runId)
      (fun store other : σ => RowStore.row store runId = RowStore.row other runId)
      (fun _ => False) where
  create same own := by
    subst own
    exact RowStore.create_own same
  load same own := by
    subst own
    exact RowStore.load_own same
  commit same own := by
    subst own
    exact .inr (RowStore.commit_own same)
  commit_lasts free := free
  create_lasts free := free

/-- The calls about the other runs leave the row of a run. -/
theorem RowStore.coupled_apart {σ : Type} [RowStore σ] (runId : RunId) (held : Option (RowStore.Row σ)) :
    Coupled (fun another => another ≠ runId)
      (fun store other : σ => store = other ∧ RowStore.row store runId = held) (fun _ => False) where
  create := by
    rintro store _ another ⟨rfl, row⟩ apart
    exact ⟨rfl, rfl, (RowStore.create_apart runId (Ne.symm apart)).trans row⟩
  load := by
    rintro store _ another ⟨rfl, row⟩ apart
    rfl
  commit := by
    rintro store _ request ⟨rfl, row⟩ apart
    exact .inr ⟨rfl, rfl, (RowStore.commit_apart runId (Ne.symm apart)).trans row⟩
  commit_lasts free := free
  create_lasts free := free

/-- A loaded state is the one that is kept. -/
theorem InMemoryDurableStore.loadRun_iff {store : InMemoryDurableStore} {runId : RunId}
    {state : DurableRunState} :
    store.loadRun runId = .ok state ↔ store.runs[runId]? = some state := by
  unfold loadRun
  cases store.runs[runId]? with
  | none => simp
  | some held => simp

/-- What is below the largest revision after a commit was below it before. -/
theorem BelowMax.of_commit [Postcard] {memory : InMemoryDurableStore} {request : CommitRequest}
    (below : BelowMax (memory.commit request).2) : BelowMax memory := by
  intro runId state loaded
  have found := InMemoryDurableStore.loadRun_iff.mp loaded
  rcases memory.commit_cases request with ⟨same, _⟩ | ⟨old, next, known, nonempty, fresh⟩
  · rw [same] at below
    exact below runId state loaded
  · rw [InMemoryDurableStore.commit_of_fresh known nonempty fresh] at below
    by_cases own : request.runId = runId
    · subst own
      cases found.symm.trans known
      have bound := below request.runId next
        (InMemoryDurableStore.loadRun_iff.mpr (lookup_insert_self _ _ _))
      rw [fresh.revision] at bound
      exact Nat.lt_of_succ_lt bound
    · exact below runId state (InMemoryDurableStore.loadRun_iff.mpr
        ((lookup_insert_ne _ _ own).trans found))

/-- What is below the largest revision after a creation was below it before. -/
theorem BelowMax.of_createRun {memory : InMemoryDurableStore} {created : RunId}
    (below : BelowMax (memory.createRun created).2) : BelowMax memory := by
  intro runId state loaded
  have found := InMemoryDurableStore.loadRun_iff.mp loaded
  unfold InMemoryDurableStore.createRun at below
  split at below
  · exact below runId state loaded
  · rename_i unknown
    have differs : created ≠ runId := fun same => unknown (same ▸ mem_of_lookup found)
    exact below runId state (InMemoryDurableStore.loadRun_iff.mpr
      ((lookup_insert_ne _ _ differs).trans found))

/-- The physical store answers as the in-memory store that it mirrors, while no run reaches the largest
revision. -/
theorem Mirrors.coupled [Postcard] (roundTrips : RoundTrips) :
    Coupled (fun _ => True) (fun memory file => Mirrors file memory)
      (fun memory => ¬ BelowMax memory) where
  create mirrors _ := by
    obtain ⟨same, after⟩ := mirrors.createRun roundTrips _
    exact ⟨same.symm, after⟩
  load mirrors _ := (mirrors.loadRun _).symm
  commit {memory file request} mirrors _ := by
    by_cases below : BelowMax (memory.commit request).2
    · obtain ⟨same, after⟩ := mirrors.commit roundTrips request below
      exact .inr ⟨same.symm, after⟩
    · exact .inl below
  commit_lasts free below := free below.of_commit
  create_lasts free below := free below.of_createRun

namespace Host

variable {ι ν : Type} [DecidableEq ι]

omit [DecidableEq ι] in
/-- Hosts without runtimes are alike where their stores are. -/
theorem near_fresh {σ τ : Type} {about : RunId → Prop} {related : σ → τ → Prop} {store : σ} {twin : τ}
    (near : related store twin) :
    Near about related (fresh store : Host ι σ ν) (fresh twin : Host ι τ ν) :=
  ⟨near, fun _ _ => rfl, fun _ _ _ found => by cases found⟩

/-- **The requests for the other runs do not touch a run.** -/
theorem separates {σ : Type} [RowStore σ] (runId : RunId) :
    Machine.Separates (machine ι σ ν) (fun event => event.runId = runId)
      (Near (fun another => another = runId)
        fun store other : σ => RowStore.row store runId = RowStore.row other runId) where
  own event host other near mine := by
    rcases step_agree (RowStore.coupled_own runId) event mine near with free | alike
    · exact free.elim
    · exact alike
  silent event host other near apart := by
    have self : Near (fun another => another ≠ runId)
        (fun store other : σ => store = other ∧ RowStore.row store runId = RowStore.row host.store runId)
        host host := ⟨⟨rfl, rfl⟩, fun _ _ => rfl, near.sorted⟩
    rcases step_agree (RowStore.coupled_apart runId _) event apart self with free | ⟨_, after⟩
    · exact free.elim
    · refine ⟨after.related.2.trans near.related, ?_, after.sorted⟩
      rintro another rfl
      exact (runtimes_of_step event host (Ne.symm apart)).trans (near.runtimes another rfl)

variable [Postcard]

/-- **A run is alone.** Over a shared physical store, whatever bytes the rows of the other runs hold, and
whatever is opened and driven in between, the requests for a run are answered as if there were no others,
and they leave the same row and the same runtimes. -/
theorem isolated (runId : RunId) (events : List (HostEvent ι ν)) (table other : FileDurableStore)
    (same : table.rows[FileDurableStore.rowKey runId]? = other.rows[FileDurableStore.rowKey runId]?) :
    let host := machine ι FileDurableStore ν
    let own := events.filter fun event => event.runId = runId
    (host.trace events (fresh table)).filter (fun heard => heard.1.runId = runId) =
        host.trace own (fresh other) ∧
      (host.after events (fresh table)).store.rows[FileDurableStore.rowKey runId]? =
        (host.after own (fresh other)).store.rows[FileDurableStore.rowKey runId]? ∧
      (host.after events (fresh table)).runtimes runId = (host.after own (fresh other)).runtimes runId := by
  intro host own
  have before : Near (fun another => another = runId)
      (fun store other : FileDurableStore => RowStore.row store runId = RowStore.row other runId)
      (fresh table : Host ι FileDurableStore ν) (fresh other) := near_fresh same
  obtain ⟨heard, ended⟩ := (separates runId).filter_trace events before
  exact ⟨heard, ended.related, ended.runtimes runId rfl⟩

end Host

/-- Another run, whose row is not decoded. -/
def sampleNeighbour : RunId := ⟨⟨"neighbour".toList, by decide⟩⟩

/-- The sample run is started and driven, restored and driven; its neighbour is started, restored and
driven in between. -/
def sampleCrowd : List (HostEvent Unit Unit) :=
  [⟨sampleRun, (), .opens (.startLive sampleWorkflow Scope.root [])⟩,
    ⟨sampleNeighbour, (), .opens (.startLive sampleWorkflow Scope.root [])⟩,
    ⟨sampleRun, (), .performs (.command (.recordEffectIntent sampleTask sampleOperation .idempotent))⟩,
    ⟨sampleNeighbour, (), .opens (.restoreLive sampleWorkflow Scope.root [])⟩,
    ⟨sampleRun, (), .opens (.restoreLive sampleWorkflow Scope.root [])⟩,
    ⟨sampleNeighbour, (), .performs .runUntilBlocked⟩,
    ⟨sampleRun, (), .performs (.command (.dispatchEffect sampleOperation))⟩]

theorem Host.isolated_sample :
    let _ := Persisted.postcard
    let host := Host.machine Unit FileDurableStore Unit
    (host.trace sampleCrowd (.fresh ⟨(∅ : BTreeMap Text (List UInt8)).insert
        (FileDurableStore.rowKey sampleNeighbour) [0]⟩)).filter
          (fun heard => heard.1.runId = sampleRun) =
      host.trace (sampleCrowd.filter fun event => event.runId = sampleRun) (.fresh .new) := by
  intro _ host
  exact (Host.isolated sampleRun sampleCrowd _ _ (by decide +kernel)).1

namespace Host

variable {ι ν : Type} [DecidableEq ι] [Postcard]

/-- **The physical host refines the in-memory one.** -/
theorem physical (roundTrips : RoundTrips) (events : List (HostEvent ι ν)) (file : FileDurableStore)
    (memory : InMemoryDurableStore) (mirrors : Mirrors file memory)
    (below : BelowMax ((machine ι InMemoryDurableStore ν).after events (fresh memory)).store) :
    (machine ι FileDurableStore ν).trace events (fresh file) =
        (machine ι InMemoryDurableStore ν).trace events (fresh memory) ∧
      Mirrors ((machine ι FileDurableStore ν).after events (fresh file)).store
        ((machine ι InMemoryDurableStore ν).after events (fresh memory)).store ∧
      ((machine ι FileDurableStore ν).after events (fresh file)).runtimes =
        ((machine ι InMemoryDurableStore ν).after events (fresh memory)).runtimes := by
  have before : Near (fun _ => True) (fun memory file => Mirrors file memory)
      (fresh memory : Host ι InMemoryDurableStore ν) (fresh file) := near_fresh mirrors
  obtain ⟨heard, ended⟩ := (follows (Mirrors.coupled roundTrips)).trace_eq events before
    (not_not.mpr below)
  exact ⟨heard.symm, ended.related, funext fun runId => (ended.runtimes runId trivial).symm⟩

end Host

theorem Host.physical_sample :
    let _ := Persisted.postcard
    (Host.machine Unit FileDurableStore Unit).trace sampleCrowd (.fresh .new) =
      (Host.machine Unit InMemoryDurableStore Unit).trace sampleCrowd (.fresh .new) := by
  intro _
  refine (Host.physical Persisted.postcard_round_trips sampleCrowd _ _ mirrors_new ?_).1
  have bounded : ∀ state ∈ valuesOf ((Host.machine Unit InMemoryDurableStore Unit).after sampleCrowd
      (.fresh .new)).store.runs, state.revision < u64Max := by
    decide +kernel
  intro runId state loaded
  exact bounded state (mem_valuesOf.mpr ⟨runId, InMemoryDurableStore.loadRun_iff.mp loaded⟩)

end Kernis
