/-
**The cleanup ledger.**

A sweep releases activated modules in reverse activation order: the armed dispose hook of a module, its
started fibers in reverse, then its plugin registrations in reverse. A step that has started is parked in
the ledger until it ends, so a sweep can be cut where it waits and be taken up again, even under another
authority.

* `CleanupLedger.advance` — one round of the loop of `run_sweep`; `CleanupLedger.ended` — the end of
  the parked step.
* `cleanupPlan` — all steps in their order.
* `Accounts` — what was done and what is left make up the plan, and the report is right so far;
  `Accounts.advance`, `Accounts.ended` and `Accounts.complete`.
-/

import Kernis.Composition.Module

namespace Kernis

open Std

/-- One module whose activation resources are owned by the composition: its registered plugins, its
started fibers by plugin and number, and whether its activation armed a dispose hook. -/
structure ActivatedModule where
  moduleId : Id
  plugins : List Id
  fibers : List (Id × Nat)
  onDispose : Bool
  hookArmed : Bool
deriving DecidableEq

/-- The registry that a sweep can reach: its registered plugins, or none. -/
inductive CleanupAuthority
  | registry (plugins : BTreeSet Id)
  | ownerLost
deriving DecidableEq

/-- A started step. -/
inductive InFlight
  | disposeHook (moduleId : Id)
  | fiberDisposal (moduleId pluginId : Id) (fiber : Nat)
  | registrationRemoval (moduleId pluginId : Id)
deriving DecidableEq

/-- One cleanup step of a module. -/
structure CleanupStep where
  moduleId : Id
  resource : CleanupResource
deriving DecidableEq

/-- The step that is in flight. -/
def InFlight.step : InFlight → CleanupStep
  | .disposeHook moduleId => ⟨moduleId, .disposeHook⟩
  | .fiberDisposal moduleId pluginId _ => ⟨moduleId, .fiber pluginId⟩
  | .registrationRemoval moduleId pluginId => ⟨moduleId, .pluginRegistration pluginId⟩

/-- What a sweep does: it starts a step, a step ends, or it reports a step as lost with the registry. An
unregistered plugin is a step that starts and ends at once. -/
inductive CleanupEvent
  | started (step : CleanupStep)
  | ended (step : CleanupStep) (result : Except Text Unit)
  | lost (step : CleanupStep)
deriving DecidableEq

/-- Resumable record of one composition's outstanding cleanup. The next module to clean is the last of
the queue, the next fiber and the next registration are the last of their lists. -/
structure CleanupLedger where
  queue : List ActivatedModule
  current : Option Id
  currentHook : Bool
  currentFibers : List (Id × Nat)
  currentPlugins : List Id
  currentClean : Bool
  inFlight : Option InFlight
  report : RollbackReport
  orderlyReleaseAccepted : Bool
deriving DecidableEq

/-- Why a registration could not be removed without the registry. -/
def lostAuthority : Text :=
  "the capability registry authority was released with the runtime owner, ".toList ++
    "so the registration could not be unregistered".toList

namespace CleanupLedger

/-- A ledger of activated modules. -/
def new (activated : List ActivatedModule) : CleanupLedger :=
  ⟨activated, none, false, [], [], true, none, ⟨[], []⟩, false⟩

/-- Starts cleanup of the next module. -/
def beginNext (ledger : CleanupLedger) (activated : ActivatedModule) : CleanupLedger :=
  { ledger with
    queue := ledger.queue.dropLast
    current := some activated.moduleId
    currentHook := activated.hookArmed && activated.onDispose
    currentFibers := activated.fibers
    currentPlugins := activated.plugins
    currentClean := true }

def recordFailure (ledger : CleanupLedger) (step : CleanupStep) (reason : Text) : CleanupLedger :=
  { ledger with
    currentClean := false
    report := { ledger.report with
      failures := ledger.report.failures ++ [⟨step.moduleId, step.resource, reason⟩] } }

/-- The current module has no step left. -/
def finishCurrent (ledger : CleanupLedger) (moduleId : Id) : CleanupLedger :=
  { ledger with
    current := none
    currentClean := true
    report := if ledger.currentClean then
        { ledger.report with cleaned := ledger.report.cleaned ++ [moduleId] }
      else ledger.report }

/-- Whether every module completed every owned cleanup step. -/
def isComplete (ledger : CleanupLedger) : Bool :=
  ledger.queue.isEmpty && ledger.current.isNone && ledger.inFlight.isNone

/-- One round of a sweep: what it leaves, what it did, and whether it was the last. -/
structure Round where
  ledger : CleanupLedger
  authority : CleanupAuthority
  events : List CleanupEvent
  finished : Bool

/-- The next registration of a module without hook and fibers left. -/
def unregister (ledger : CleanupLedger) (authority : CleanupAuthority) (moduleId pluginId : Id) :
    Round :=
  let step : CleanupStep := ⟨moduleId, .pluginRegistration pluginId⟩
  let popped := { ledger with currentPlugins := ledger.currentPlugins.dropLast }
  match authority with
  | .registry plugins =>
    if pluginId ∈ plugins then
      ⟨{ popped with inFlight := some (.registrationRemoval moduleId pluginId) },
        .registry (plugins.erase pluginId), [.started step], false⟩
    else
      -- The plugin is not registered any more, which is no failure.
      ⟨popped, .registry plugins, [.started step, .ended step (.ok ())], false⟩
  | .ownerLost => ⟨popped.recordFailure step lostAuthority, .ownerLost, [.lost step], false⟩

/-- The next step of the current module. -/
def process (ledger : CleanupLedger) (authority : CleanupAuthority) (moduleId : Id) : Round :=
  if ledger.currentHook then
    ⟨{ ledger with currentHook := false, inFlight := some (.disposeHook moduleId) }, authority,
      [.started ⟨moduleId, .disposeHook⟩], false⟩
  else
    match ledger.currentFibers.getLast? with
    | some (pluginId, fiber) =>
      ⟨{ ledger with
          currentFibers := ledger.currentFibers.dropLast
          inFlight := some (.fiberDisposal moduleId pluginId fiber) }, authority,
        [.started ⟨moduleId, .fiber pluginId⟩], false⟩
    | none =>
      match ledger.currentPlugins.getLast? with
      | some pluginId => ledger.unregister authority moduleId pluginId
      | none => ⟨ledger.finishCurrent moduleId, authority, [], false⟩

/-- **One round of the loop**, when no step is in flight. -/
def advance (ledger : CleanupLedger) (authority : CleanupAuthority) : Round :=
  match ledger.current with
  | some moduleId => ledger.process authority moduleId
  | none =>
    match ledger.queue.getLast? with
    | none => ⟨ledger, authority, [], true⟩
    | some activated => (ledger.beginNext activated).process authority activated.moduleId

/-- **The parked step ends.** -/
def ended (ledger : CleanupLedger) (step : CleanupStep) (result : Except Text Unit) : CleanupLedger :=
  let taken := { ledger with inFlight := none }
  match result with
  | .ok _ => taken
  | .error reason => taken.recordFailure step reason

end CleanupLedger

/-! ### The plan -/

/-- The steps of a module in cleanup order. -/
def moduleSteps (moduleId : Id) (hook : Bool) (fibers : List (Id × Nat)) (plugins : List Id) :
    List CleanupStep :=
  (if hook then [⟨moduleId, .disposeHook⟩] else []) ++
    fibers.reverse.map (fun fiber => ⟨moduleId, .fiber fiber.1⟩) ++
    plugins.reverse.map fun pluginId => ⟨moduleId, .pluginRegistration pluginId⟩

/-- The steps of an activated module. -/
def ActivatedModule.steps (activated : ActivatedModule) : List CleanupStep :=
  moduleSteps activated.moduleId (activated.hookArmed && activated.onDispose) activated.fibers
    activated.plugins

/-- **All steps in their order**: the modules in reverse. -/
def cleanupPlan (activated : List ActivatedModule) : List CleanupStep :=
  activated.reverse.flatMap ActivatedModule.steps

/-- The steps that are left. -/
def CleanupLedger.remaining (ledger : CleanupLedger) : List CleanupStep :=
  (match ledger.current with
    | none => []
    | some moduleId =>
      moduleSteps moduleId ledger.currentHook ledger.currentFibers ledger.currentPlugins) ++
    cleanupPlan ledger.queue

namespace CleanupEvent

/-- The step that is taken, as it starts or is lost. -/
def taken : CleanupEvent → Option CleanupStep
  | .started step | .lost step => some step
  | .ended _ _ => none

/-- The step that starts. -/
def starts : CleanupEvent → Option CleanupStep
  | .started step => some step
  | _ => none

/-- The step that ends. -/
def ends : CleanupEvent → Option CleanupStep
  | .ended step _ => some step
  | _ => none

/-- The failure that is recorded. -/
def failure : CleanupEvent → Option RollbackFailure
  | .started _ => none
  | .ended _ (.ok _) => none
  | .ended step (.error reason) => some ⟨step.moduleId, step.resource, reason⟩
  | .lost step => some ⟨step.moduleId, step.resource, lostAuthority⟩

end CleanupEvent

/-- The failures of a module. -/
def failuresOf (events : List CleanupEvent) (moduleId : Id) : List RollbackFailure :=
  (events.filterMap CleanupEvent.failure).filter fun failure => failure.moduleId = moduleId

/-- **What was done and what is left make up the plan**, every started step but the one in flight has
ended, and the report is right so far. -/
structure Accounts (activated : List ActivatedModule) (events : List CleanupEvent)
    (ledger : CleanupLedger) : Prop where
  steps : events.filterMap CleanupEvent.taken ++ ledger.remaining = cleanupPlan activated
  settled : events.filterMap CleanupEvent.starts =
    events.filterMap CleanupEvent.ends ++ (ledger.inFlight.map InFlight.step).toList
  failures : ledger.report.failures = events.filterMap CleanupEvent.failure
  modules : ∃ finished, activated.map ActivatedModule.moduleId =
      ledger.queue.map ActivatedModule.moduleId ++ ledger.current.toList ++ finished ∧
    ∀ moduleId, moduleId ∈ ledger.report.cleaned ↔
      moduleId ∈ finished ∧ failuresOf events moduleId = []
  clean : ∀ moduleId, ledger.current = some moduleId →
    (ledger.currentClean = true ↔ failuresOf events moduleId = [])
  untouched : ∀ other ∈ ledger.queue, failuresOf events other.moduleId = []
  parked : ∀ step, ledger.inFlight = some step → ledger.current = some step.step.moduleId
  lost : ∀ step, .lost step ∈ events → ∃ pluginId, step.resource = .pluginRegistration pluginId

theorem failuresOf_append (events more : List CleanupEvent) (moduleId : Id) :
    failuresOf (events ++ more) moduleId = failuresOf events moduleId ++ failuresOf more moduleId := by
  unfold failuresOf
  rw [List.filterMap_append, List.filter_append]

/-- Events without a failure leave the failures of every module. -/
theorem failuresOf_quiet {events more : List CleanupEvent}
    (quiet : more.filterMap CleanupEvent.failure = []) (moduleId : Id) :
    failuresOf (events ++ more) moduleId = failuresOf events moduleId := by
  rw [failuresOf_append, failuresOf, failuresOf, quiet]
  exact List.append_nil _

/-- A failure is one of its own module only. -/
theorem failuresOf_other {event : CleanupEvent} {failure : RollbackFailure}
    (fails : event.failure = some failure) {events : List CleanupEvent} {moduleId : Id}
    (other : failure.moduleId ≠ moduleId) :
    failuresOf (events ++ [event]) moduleId = failuresOf events moduleId := by
  rw [failuresOf_append]
  have none_ : failuresOf [event] moduleId = [] := by
    unfold failuresOf
    rw [List.filterMap_cons, fails]
    simp [other]
  rw [none_, List.append_nil]

theorem failuresOf_own {event : CleanupEvent} {failure : RollbackFailure}
    (fails : event.failure = some failure) {events : List CleanupEvent} :
    failuresOf (events ++ [event]) failure.moduleId ≠ [] := by
  rw [failuresOf_append]
  have one : failuresOf [event] failure.moduleId = [failure] := by
    unfold failuresOf
    rw [List.filterMap_cons, fails]
    simp
  rw [one]
  simp

theorem moduleSteps_hook (moduleId : Id) (fibers : List (Id × Nat)) (plugins : List Id) :
    moduleSteps moduleId true fibers plugins =
      ⟨moduleId, .disposeHook⟩ :: moduleSteps moduleId false fibers plugins := rfl

theorem moduleSteps_fiber (moduleId : Id) (fibers : List (Id × Nat)) (fiber : Id × Nat)
    (plugins : List Id) : moduleSteps moduleId false (fibers ++ [fiber]) plugins =
      ⟨moduleId, .fiber fiber.1⟩ :: moduleSteps moduleId false fibers plugins := by
  unfold moduleSteps
  rw [List.reverse_append]
  rfl

theorem moduleSteps_plugin (moduleId : Id) (plugins : List Id) (pluginId : Id) :
    moduleSteps moduleId false [] (plugins ++ [pluginId]) =
      ⟨moduleId, .pluginRegistration pluginId⟩ :: moduleSteps moduleId false [] plugins := by
  unfold moduleSteps
  rw [List.reverse_append]
  rfl

namespace Accounts

variable {activated : List ActivatedModule} {events : List CleanupEvent} {ledger : CleanupLedger}

theorem new (activated : List ActivatedModule) : Accounts activated [] (.new activated) where
  steps := rfl
  settled := rfl
  failures := rfl
  modules := ⟨[], by simp [CleanupLedger.new], by simp [CleanupLedger.new]⟩
  clean := by simp [CleanupLedger.new]
  untouched := fun _ _ => rfl
  parked := by simp [CleanupLedger.new]
  lost := by simp

/-- What is left of the current module and the queue. -/
theorem remaining_of {moduleId : Id} (current : ledger.current = some moduleId) :
    ledger.remaining = moduleSteps moduleId ledger.currentHook ledger.currentFibers
      ledger.currentPlugins ++ cleanupPlan ledger.queue := by
  unfold CleanupLedger.remaining
  rw [current]

/-- **A step starts**, and is in flight. -/
theorem start (accounts : Accounts activated events ledger) (idle : ledger.inFlight = none)
    (inFlight : InFlight) (current : ledger.current = some inFlight.step.moduleId) {hook : Bool}
    {fibers : List (Id × Nat)} {plugins : List Id}
    (left : moduleSteps inFlight.step.moduleId ledger.currentHook ledger.currentFibers
      ledger.currentPlugins = inFlight.step ::
        moduleSteps inFlight.step.moduleId hook fibers plugins) :
    Accounts activated (events ++ [.started inFlight.step])
      { ledger with
        currentHook := hook, currentFibers := fibers, currentPlugins := plugins
        inFlight := some inFlight } where
  steps := by
    have before := accounts.steps
    rw [remaining_of current, left] at before
    rw [← before, List.filterMap_append, CleanupLedger.remaining]
    simp only [current, List.append_assoc]
    rfl
  settled := by
    have before := accounts.settled
    rw [idle] at before
    rw [List.filterMap_append, List.filterMap_append, before]
    simp [CleanupEvent.starts, CleanupEvent.ends]
  failures := by
    rw [List.filterMap_append, ← accounts.failures]
    exact (List.append_nil _).symm
  modules := by
    obtain ⟨finished, split, cleaned⟩ := accounts.modules
    exact ⟨finished, split, fun moduleId => by
      rw [failuresOf_quiet rfl]
      exact cleaned moduleId⟩
  clean := fun moduleId same => by
    rw [failuresOf_quiet rfl]
    exact accounts.clean moduleId same
  untouched := fun other member => by
    rw [failuresOf_quiet rfl]
    exact accounts.untouched other member
  parked := by
    rintro step ⟨⟩
    exact current
  lost := by
    intro step member
    rcases List.mem_append.mp member with before | now
    · exact accounts.lost step before
    · cases List.mem_singleton.mp now

/-- **A step starts and ends at once.** -/
theorem skip (accounts : Accounts activated events ledger) (idle : ledger.inFlight = none)
    (step : CleanupStep) (current : ledger.current = some step.moduleId) {plugins : List Id}
    (left : moduleSteps step.moduleId ledger.currentHook ledger.currentFibers
      ledger.currentPlugins =
        step :: moduleSteps step.moduleId ledger.currentHook ledger.currentFibers plugins) :
    Accounts activated (events ++ [.started step, .ended step (.ok ())])
      { ledger with currentPlugins := plugins } where
  steps := by
    have before := accounts.steps
    rw [remaining_of current, left] at before
    rw [← before, List.filterMap_append, CleanupLedger.remaining]
    simp only [current, List.append_assoc]
    rfl
  settled := by
    have before := accounts.settled
    rw [idle] at before ⊢
    rw [List.filterMap_append, List.filterMap_append, before]
    simp only [Option.map_none, Option.toList_none, List.append_nil]
    rfl
  failures := by
    rw [List.filterMap_append, ← accounts.failures]
    exact (List.append_nil _).symm
  modules := by
    obtain ⟨finished, split, cleaned⟩ := accounts.modules
    exact ⟨finished, split, fun moduleId => by
      rw [failuresOf_quiet rfl]
      exact cleaned moduleId⟩
  clean := fun moduleId same => by
    rw [failuresOf_quiet rfl]
    exact accounts.clean moduleId same
  untouched := fun other member => by
    rw [failuresOf_quiet rfl]
    exact accounts.untouched other member
  parked := accounts.parked
  lost := by
    intro other member
    rcases List.mem_append.mp member with before | now
    · exact accounts.lost other before
    · simp at now

/-- **A failure is recorded** for the current module. -/
theorem record (distinct : (activated.map ActivatedModule.moduleId).Nodup)
    (accounts : Accounts activated events ledger) {event : CleanupEvent} (step : CleanupStep)
    {reason : Text} (fails : event.failure = some ⟨step.moduleId, step.resource, reason⟩)
    (current : ledger.current = some step.moduleId) {next : CleanupLedger}
    (same : next.queue = ledger.queue ∧ next.current = ledger.current ∧ next.report = ledger.report)
    (steps : (events ++ [event]).filterMap CleanupEvent.taken ++ next.remaining =
      cleanupPlan activated)
    (settled : (events ++ [event]).filterMap CleanupEvent.starts =
      (events ++ [event]).filterMap CleanupEvent.ends ++ (next.inFlight.map InFlight.step).toList)
    (idle : next.inFlight = none)
    (lost : ∀ other, event = .lost other → ∃ pluginId, other.resource = .pluginRegistration pluginId) :
    Accounts activated (events ++ [event]) (next.recordFailure step reason) := by
  obtain ⟨sameQueue, sameCurrent, sameReport⟩ := same
  obtain ⟨finished, split, cleaned⟩ := accounts.modules
  rw [current, Option.toList_some] at split
  rw [split] at distinct
  refine ⟨steps, settled, ?_, ⟨finished, ?_, fun moduleId => ?_⟩, fun moduleId here => ?_,
    fun other member => ?_, fun other parked => ?_, fun other member => ?_⟩
  · rw [List.filterMap_append, ← accounts.failures, ← sameReport]
    simp [CleanupLedger.recordFailure, fails]
  · rw [split]
    simp [CleanupLedger.recordFailure, sameQueue, sameCurrent, current]
  · change moduleId ∈ next.report.cleaned ↔ _
    rw [sameReport, cleaned]
    refine and_congr_right fun member => ?_
    have other : step.moduleId ≠ moduleId := by
      rintro rfl
      exact (List.nodup_append.mp distinct).2.2 _ (List.mem_append_right _ List.mem_cons_self) _
        member rfl
    rw [failuresOf_other fails other]
  · change next.current = some moduleId at here
    rw [sameCurrent, current, Option.some.injEq] at here
    subst here
    exact ⟨fun impossible => absurd impossible Bool.false_ne_true,
      fun none_ => absurd none_ (failuresOf_own fails)⟩
  · have member' : other ∈ ledger.queue := sameQueue ▸ member
    have apart : step.moduleId ≠ other.moduleId := by
      intro equal
      exact (List.nodup_append.mp (List.nodup_append.mp distinct).1).2.2 _
        (List.mem_map_of_mem member') _ (List.mem_singleton.mpr rfl) equal.symm
    rw [failuresOf_other fails apart]
    exact accounts.untouched other member'
  · change next.inFlight = some other at parked
    rw [idle] at parked
    cases parked
  · rcases List.mem_append.mp member with before | now
    · exact accounts.lost other before
    · exact lost other (List.mem_singleton.mp now).symm

/-- **The parked step ends.** -/
theorem ended (distinct : (activated.map ActivatedModule.moduleId).Nodup)
    (accounts : Accounts activated events ledger) {inFlight : InFlight}
    (parked : ledger.inFlight = some inFlight) (result : Except Text Unit) :
    Accounts activated (events ++ [.ended inFlight.step result])
      (ledger.ended inFlight.step result) := by
  have current := accounts.parked inFlight parked
  have steps : (events ++ [CleanupEvent.ended inFlight.step result]).filterMap CleanupEvent.taken ++
      ({ ledger with inFlight := none } : CleanupLedger).remaining = cleanupPlan activated := by
    rw [List.filterMap_append, ← accounts.steps]
    exact congrArg (· ++ _) (List.append_nil _)
  have settled : (events ++ [CleanupEvent.ended inFlight.step result]).filterMap CleanupEvent.starts =
      (events ++ [CleanupEvent.ended inFlight.step result]).filterMap CleanupEvent.ends := by
    have before := accounts.settled
    rw [parked] at before
    rw [List.filterMap_append, List.filterMap_append, before]
    simp [CleanupEvent.starts, CleanupEvent.ends]
  unfold CleanupLedger.ended
  cases result with
  | error reason =>
    refine accounts.record distinct _ rfl current ⟨rfl, rfl, rfl⟩ steps ?_ rfl nofun
    exact settled.trans (List.append_nil _).symm
  | ok value =>
    refine ⟨steps, settled.trans (List.append_nil _).symm, ?_, ?_, ?_, ?_, nofun, ?_⟩
    · rw [List.filterMap_append, ← accounts.failures]
      exact (List.append_nil _).symm
    · obtain ⟨finished, split, cleaned⟩ := accounts.modules
      exact ⟨finished, split, fun moduleId => by
        rw [failuresOf_quiet rfl]
        exact cleaned moduleId⟩
    · intro moduleId same
      rw [failuresOf_quiet rfl]
      exact accounts.clean moduleId same
    · intro other member
      rw [failuresOf_quiet rfl]
      exact accounts.untouched other member
    · intro other member
      rcases List.mem_append.mp member with before | now
      · exact accounts.lost other before
      · cases List.mem_singleton.mp now

/-- **The current module has no step left.** -/
theorem finish (distinct : (activated.map ActivatedModule.moduleId).Nodup)
    (accounts : Accounts activated events ledger) (idle : ledger.inFlight = none) {moduleId : Id}
    (current : ledger.current = some moduleId)
    (left : moduleSteps moduleId ledger.currentHook ledger.currentFibers
      ledger.currentPlugins = []) :
    Accounts activated events (ledger.finishCurrent moduleId) := by
  obtain ⟨finished, split, cleaned⟩ := accounts.modules
  rw [current, Option.toList_some] at split
  rw [split] at distinct
  have absent : moduleId ∉ finished := fun member =>
    (List.nodup_append.mp distinct).2.2 _ (List.mem_append_right _ List.mem_cons_self) _ member rfl
  refine ⟨?_, accounts.settled, ?_, ⟨moduleId :: finished, ?_, fun other => ?_⟩, nofun,
    accounts.untouched, ?_, accounts.lost⟩
  · have before := accounts.steps
    rw [remaining_of current, left] at before
    exact before
  · rw [← accounts.failures]
    unfold CleanupLedger.finishCurrent
    split
    · rfl
    · rfl
  · rw [split]
    simp [CleanupLedger.finishCurrent]
  · have clean := accounts.clean moduleId current
    have was := cleaned other
    rw [List.mem_cons]
    unfold CleanupLedger.finishCurrent
    by_cases good : ledger.currentClean = true
    · simp only [good, if_true, List.mem_append, List.mem_singleton, was]
      constructor
      · rintro (⟨member, none_⟩ | rfl)
        · exact ⟨.inr member, none_⟩
        · exact ⟨.inl rfl, clean.mp good⟩
      · rintro ⟨rfl | member, none_⟩
        · exact .inr rfl
        · exact .inl ⟨member, none_⟩
    · simp only [good, if_false, Bool.false_eq_true, was]
      constructor
      · exact fun ⟨member, none_⟩ => ⟨.inr member, none_⟩
      · rintro ⟨rfl | member, none_⟩
        · exact absurd (clean.mpr none_) good
        · exact ⟨member, none_⟩
  · intro step parked
    change ledger.inFlight = some step at parked
    rw [idle] at parked
    cases parked

/-- **The last module of the queue becomes the current one.** -/
theorem begin_ (accounts : Accounts activated events ledger) (idle : ledger.inFlight = none)
    (current : ledger.current = none) {next : ActivatedModule}
    (last : ledger.queue.getLast? = some next) :
    Accounts activated events (ledger.beginNext next) := by
  have queue : ledger.queue = ledger.queue.dropLast ++ [next] :=
    (List.dropLast_append_getLast? next last).symm
  obtain ⟨finished, split, cleaned⟩ := accounts.modules
  have member : next ∈ ledger.queue := queue ▸ List.mem_append_right _ (List.mem_singleton.mpr rfl)
  refine ⟨?_, accounts.settled, accounts.failures, ⟨finished, ?_, cleaned⟩, ?_, ?_, ?_,
    accounts.lost⟩
  · have before := accounts.steps
    rw [CleanupLedger.remaining, current, List.nil_append, queue] at before
    rw [← before]
    simp [CleanupLedger.remaining, CleanupLedger.beginNext, cleanupPlan, ActivatedModule.steps]
  · rw [split, current, Option.toList_none, List.append_nil, queue]
    simp [CleanupLedger.beginNext]
  · rintro moduleId ⟨⟩
    exact ⟨fun _ => accounts.untouched next member, fun _ => rfl⟩
  · intro other inside
    exact accounts.untouched other (List.dropLast_subset _ inside)
  · intro step parked
    change ledger.inFlight = some step at parked
    rw [idle] at parked
    cases parked

/-- **The next step of the current module.** -/
theorem process (distinct : (activated.map ActivatedModule.moduleId).Nodup)
    (accounts : Accounts activated events ledger) (idle : ledger.inFlight = none) {moduleId : Id}
    (current : ledger.current = some moduleId) (authority : CleanupAuthority) :
    Accounts activated (events ++ (ledger.process authority moduleId).events)
        (ledger.process authority moduleId).ledger ∧
      (ledger.process authority moduleId).finished = false := by
  unfold CleanupLedger.process
  by_cases hook : ledger.currentHook = true
  · rw [if_pos hook]
    refine ⟨accounts.start idle (.disposeHook moduleId) current ?_, rfl⟩
    rw [hook]
    exact moduleSteps_hook _ _ _
  · rw [if_neg hook]
    rw [Bool.not_eq_true] at hook
    cases fibers : ledger.currentFibers.getLast? with
    | some fiber =>
      have split : ledger.currentFibers = ledger.currentFibers.dropLast ++ [fiber] :=
        (List.dropLast_append_getLast? fiber fibers).symm
      refine ⟨accounts.start idle (.fiberDisposal moduleId fiber.1 fiber.2) current ?_,
        rfl⟩
      rw [hook, split, List.dropLast_concat]
      exact moduleSteps_fiber _ _ _ _
    | none =>
      rw [List.getLast?_eq_none_iff] at fibers
      cases plugins : ledger.currentPlugins.getLast? with
      | none =>
        rw [List.getLast?_eq_none_iff] at plugins
        simp only [List.append_nil]
        refine ⟨accounts.finish distinct idle current ?_, trivial⟩
        rw [hook, fibers, plugins]
        rfl
      | some pluginId =>
        have split : ledger.currentPlugins = ledger.currentPlugins.dropLast ++ [pluginId] :=
          (List.dropLast_append_getLast? pluginId plugins).symm
        have left : moduleSteps moduleId ledger.currentHook ledger.currentFibers
            ledger.currentPlugins = ⟨moduleId, .pluginRegistration pluginId⟩ ::
              moduleSteps moduleId ledger.currentHook ledger.currentFibers
                ledger.currentPlugins.dropLast := by
          rw [hook, fibers]
          conv_lhs => rw [split]
          exact moduleSteps_plugin _ _ _
        simp only [CleanupLedger.unregister]
        cases authority with
        | registry registered =>
          simp only
          by_cases member : pluginId ∈ registered
          · rw [if_pos member]
            exact ⟨accounts.start idle (.registrationRemoval moduleId pluginId) current
              left, rfl⟩
          · rw [if_neg member]
            exact ⟨accounts.skip idle ⟨moduleId, .pluginRegistration pluginId⟩ current left,
              rfl⟩
        | ownerLost =>
          refine ⟨accounts.record distinct ⟨moduleId, .pluginRegistration pluginId⟩ rfl
            current ⟨rfl, rfl, rfl⟩ ?_ ?_ idle ?_, rfl⟩
          · have before := accounts.steps
            rw [remaining_of current, left] at before
            rw [← before, List.filterMap_append, CleanupLedger.remaining]
            simp only [current, List.append_assoc]
            rfl
          · have before := accounts.settled
            rw [List.filterMap_append, List.filterMap_append, before]
            simp only [idle, Option.map_none, Option.toList_none, List.append_nil]
            rfl
          · rintro other ⟨⟩
            exact ⟨pluginId, rfl⟩

/-- **One round of a sweep keeps the accounts**, and the last one leaves nothing. -/
theorem advance (distinct : (activated.map ActivatedModule.moduleId).Nodup)
    (accounts : Accounts activated events ledger) (idle : ledger.inFlight = none)
    (authority : CleanupAuthority) :
    Accounts activated (events ++ (ledger.advance authority).events)
        (ledger.advance authority).ledger ∧
      ((ledger.advance authority).finished = true →
        (ledger.advance authority).ledger.isComplete = true) := by
  unfold CleanupLedger.advance
  cases current : ledger.current with
  | some moduleId =>
    obtain ⟨kept, open_⟩ := accounts.process distinct idle current authority
    exact ⟨kept, fun finished => absurd finished (by rw [open_]; exact Bool.false_ne_true)⟩
  | none =>
    simp only
    cases last : ledger.queue.getLast? with
    | none =>
      simp only [List.append_nil]
      refine ⟨accounts, fun _ => ?_⟩
      rw [List.getLast?_eq_none_iff] at last
      simp [CleanupLedger.isComplete, current, idle, last]
    | some next =>
      have begun : Accounts activated events (ledger.beginNext next) :=
        accounts.begin_ idle current last
      obtain ⟨kept, open_⟩ := begun.process distinct idle rfl authority
      exact ⟨kept, fun finished => absurd finished (by rw [open_]; exact Bool.false_ne_true)⟩

/-- **A complete ledger has taken every step**, each that started has ended, and its report names the
modules without a failure. -/
theorem complete (accounts : Accounts activated events ledger)
    (complete : ledger.isComplete = true) :
    events.filterMap CleanupEvent.taken = cleanupPlan activated ∧
      events.filterMap CleanupEvent.starts = events.filterMap CleanupEvent.ends ∧
      ledger.report.failures = events.filterMap CleanupEvent.failure ∧
      ∀ moduleId, moduleId ∈ ledger.report.cleaned ↔
        moduleId ∈ activated.map ActivatedModule.moduleId ∧ failuresOf events moduleId = [] := by
  unfold CleanupLedger.isComplete at complete
  rw [Bool.and_eq_true, Bool.and_eq_true, List.isEmpty_iff, Option.isNone_iff_eq_none,
    Option.isNone_iff_eq_none] at complete
  obtain ⟨⟨queue, current⟩, idle⟩ := complete
  refine ⟨?_, ?_, accounts.failures, ?_⟩
  · have steps := accounts.steps
    rw [CleanupLedger.remaining, current, queue] at steps
    simpa [cleanupPlan] using steps
  · have settled := accounts.settled
    rw [idle] at settled
    simpa using settled
  · obtain ⟨finished, split, cleaned⟩ := accounts.modules
    rw [queue, current] at split
    rw [split]
    exact cleaned

end Accounts

/-- **The steps of a plan are pairwise different**, where the modules are, and the fibers and plugins of
each. -/
theorem cleanupPlan_nodup {activated : List ActivatedModule}
    (distinct : (activated.map ActivatedModule.moduleId).Nodup)
    (owned : ∀ module ∈ activated, (module.fibers.map Prod.fst).Nodup ∧ module.plugins.Nodup) :
    (cleanupPlan activated).Nodup := by
  unfold cleanupPlan
  rw [List.nodup_flatMap]
  refine ⟨fun module member => ?_, ?_⟩
  · obtain ⟨fibers, plugins⟩ := owned module (List.mem_reverse.mp member)
    unfold ActivatedModule.steps moduleSteps
    rw [List.nodup_append, List.nodup_append]
    refine ⟨⟨?_, ?_, ?_⟩, ?_, ?_⟩
    · split
      · exact List.nodup_singleton _
      · exact List.nodup_nil
    · rw [List.map_reverse, List.nodup_reverse]
      have mapped : module.fibers.map (fun fiber =>
          (⟨module.moduleId, .fiber fiber.1⟩ : CleanupStep)) = (module.fibers.map Prod.fst).map
            fun pluginId => ⟨module.moduleId, .fiber pluginId⟩ := by
        rw [List.map_map]
        rfl
      rw [mapped]
      exact fibers.map fun _ _ same => by simpa using same
    · intro one first other second
      split at first
      · rw [List.mem_singleton.mp first]
        obtain ⟨fiber, _, rfl⟩ := List.mem_map.mp second
        simp
      · cases first
    · rw [List.map_reverse, List.nodup_reverse]
      exact plugins.map fun _ _ same => by simpa using same
    · intro one first other second
      obtain ⟨pluginId, _, rfl⟩ := List.mem_map.mp second
      rcases List.mem_append.mp first with hook | fiber
      · split at hook
        · rw [List.mem_singleton.mp hook]
          simp
        · cases hook
      · obtain ⟨fiber, _, rfl⟩ := List.mem_map.mp fiber
        simp
  · rw [List.pairwise_reverse]
    rw [List.Nodup, List.pairwise_map] at distinct
    refine distinct.imp fun {first second} different => ?_
    intro step one two
    have ofFirst : ∀ {module : ActivatedModule} {step : CleanupStep}, step ∈ module.steps →
        step.moduleId = module.moduleId := by
      intro module step member
      unfold ActivatedModule.steps moduleSteps at member
      simp only [List.mem_append, List.mem_map] at member
      rcases member with (hook | ⟨_, _, rfl⟩) | ⟨_, _, rfl⟩
      · split at hook
        · rw [List.mem_singleton.mp hook]
        · cases hook
      · rfl
      · rfl
    exact different ((ofFirst two).symm.trans (ofFirst one))

end Kernis
