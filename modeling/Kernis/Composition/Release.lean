/-
**Releasing a composition.**

Once the runtime belongs to a driver, a host releases the composition on one of two paths: with the exit of
an orderly shutdown of that driver, or after the owner of the driver was lost. Both return a future that
the host may drop before its first poll or wherever it waits.

* `CompositionHandle.disposeAfterDriver`, `CompositionHandle.ownerLossGuard` — the decisions of the two
  paths.
* `ReleaseHost` — the handle, its driver, the exits the host holds and the future it polls;
  `ReleaseHost.step`.
* `Releases` — what holds in every state, `Releases.step`.
* `Activation.owned_of_activated` — what a successful activation hands to a release.
* `released_once` — in every run the steps of the cleanup plan are taken in order, none twice, and a
  completed release has taken all of them; a rejected call changes nothing.
-/

import Kernis.Composition.Active
import Kernis.Driver.Protocol

namespace Kernis

open Std

/-- The modules that an activation hands to a release: they are distinct, and so are the plugins and the
fibers of each. -/
structure OwnedModules where
  modules : List ActivatedModule
  distinct : (modules.map ActivatedModule.moduleId).Nodup
  owned : ∀ module ∈ modules, (module.fibers.map Prod.fst).Nodup ∧ module.plugins.Nodup

/-- The exit of an orderly shutdown: the driver it comes from, its classification, and the plugins that
are registered in the runtime it carries. -/
structure DriverExit where
  owner : Nat
  status : ShutdownStatus
  registry : BTreeSet Id
deriving DecidableEq

/-- Why an exit is refused. -/
inductive CompositionReleaseRejection
  | foreignDriverExit (exit : DriverExit)
  | alreadyReleased (exit : DriverExit)
  | orderlySweepInterrupted
deriving DecidableEq

/-- The exit that a rejection hands back. -/
def CompositionReleaseRejection.intoExit : CompositionReleaseRejection → Option DriverExit
  | .foreignDriverExit exit | .alreadyReleased exit => some exit
  | .orderlySweepInterrupted => none

/-- Why a release after owner loss is refused. -/
inductive OwnerLossReleaseError
  | ownerStillRunning
  | orderlyShutdownCompleted
  | alreadyReleased
deriving DecidableEq

/-- What a release answers. -/
inductive ReleaseAnswer
  | rejected (rejection : CompositionReleaseRejection)
  | released (rollback : RollbackReport) (status : ShutdownStatus) (registry : BTreeSet Id)
  | refused (error : OwnerLossReleaseError)
  | releasedAfterLoss (rollback : RollbackReport)
deriving DecidableEq

/-- The report of a completed release. -/
def ReleaseAnswer.report : ReleaseAnswer → Option RollbackReport
  | .released rollback _ _ | .releasedAfterLoss rollback => some rollback
  | .rejected _ | .refused _ => none

/-- A future of one of the two paths, before its first poll or in its sweep. -/
inductive ReleaseFuture
  | rejected (rejection : CompositionReleaseRejection)
  | accepted (exit : DriverExit)
  | orderlySweep (status : ShutdownStatus) (registry : BTreeSet Id)
  | ownerLoss
  | ownerLossSweep
deriving DecidableEq

/-- The activation resources of a composition. The ledger is gone only after a release ran to completion,
and `driverOwner` is the driver that the handle is bound to. -/
structure CompositionHandle where
  order : List Id
  ledger : Option CleanupLedger
  driverOwner : Nat

namespace CompositionHandle

/-- Records that an orderly release is accepted. -/
def accept (handle : CompositionHandle) (ledger : CleanupLedger) : CompositionHandle :=
  { handle with ledger := some { ledger with orderlyReleaseAccepted := true } }

/-- **The orderly path.** The exit is checked and its acceptance recorded by the call itself, before the
future is polled. -/
def disposeAfterDriver (handle : CompositionHandle) (exit : DriverExit) :
    CompositionHandle × ReleaseFuture :=
  if handle.driverOwner ≠ exit.owner then (handle, .rejected (.foreignDriverExit exit))
  else
    match handle.ledger with
    | none => (handle, .rejected (.alreadyReleased exit))
    | some ledger =>
      if ledger.orderlyReleaseAccepted then (handle, .rejected .orderlySweepInterrupted)
      else (handle.accept ledger, .accepted exit)

/-- **The guard of the owner-loss path**, at its first poll. -/
def ownerLossGuard (handle : CompositionHandle) (driver : DriverOwnerState) :
    Option OwnerLossReleaseError :=
  match handle.ledger with
  | none => some .alreadyReleased
  | some ledger =>
    match driver with
    | .ownerDropped => none
    | .running => some .ownerStillRunning
    | .shutdown =>
      if ledger.orderlyReleaseAccepted then none else some .orderlyShutdownCompleted

end CompositionHandle

/-- A composition handle, its driver, the exits that the host holds and the release future it has, with
what the sweeps did and what the releases answered. A future borrows the handle, so there is one at most. -/
structure ReleaseHost where
  handle : CompositionHandle
  driver : DriverOwnerState
  exits : List DriverExit
  future : Option ReleaseFuture
  trace : List CleanupEvent
  answers : List ReleaseAnswer

/-- What can happen. -/
inductive ReleaseEvent
  /-- The driver shuts down in order and returns its one exit. -/
  | shutDown (status : ShutdownStatus) (registry : BTreeSet Id)
  /-- The owner of the driver is lost. -/
  | loseOwner
  /-- The host comes by the exit of another driver, or drops an exit. -/
  | obtain (exit : DriverExit)
  | discard (exit : DriverExit)
  /-- The host calls one of the two paths. -/
  | disposeAfterDriver (exit : DriverExit)
  | releaseAfterOwnerLoss
  /-- The polled future runs until its next decision: its guard, or one round of its sweep. -/
  | advance
  /-- The parked step ends while the future is polled. -/
  | settle (result : Except Text Unit)
  /-- The host drops the future. -/
  | drop

namespace ReleaseHost

/-- A composition that was just separated from its driver. -/
def start (order : List Id) (activated : List ActivatedModule) (driverOwner : Nat) : ReleaseHost :=
  ⟨⟨order, some (.new activated), driverOwner⟩, .running, [], none, [], []⟩

/-- The future answers. -/
def answer (host : ReleaseHost) (answer : ReleaseAnswer) : ReleaseHost :=
  { host with future := none, answers := host.answers ++ [answer] }

/-- A round of a sweep that goes on. -/
def sweep (host : ReleaseHost) (round : CleanupLedger.Round) (future : ReleaseFuture) :
    ReleaseHost :=
  { host with
    handle := { host.handle with ledger := some round.ledger }
    future := some future
    trace := host.trace ++ round.events }

/-- The sweep is complete: the ledger is gone. -/
def complete (host : ReleaseHost) (answer : ReleaseAnswer) : ReleaseHost :=
  { host with handle := { host.handle with ledger := none } }.answer answer

/-- The polled future goes on. -/
def advance (host : ReleaseHost) : ReleaseFuture → ReleaseHost
  | .rejected rejection =>
    { host with exits := host.exits ++ rejection.intoExit.toList }.answer (.rejected rejection)
  | .accepted exit => { host with future := some (.orderlySweep exit.status exit.registry) }
  | .orderlySweep status registry =>
    match host.handle.ledger with
    | none => host
    | some ledger =>
      if ledger.inFlight.isSome then host
      else
        let round := ledger.advance (.registry registry)
        let left := match round.authority with
          | .registry plugins => plugins
          | .ownerLost => registry
        if round.finished then host.complete (.released round.ledger.report status left)
        else host.sweep round (.orderlySweep status left)
  | .ownerLoss =>
    match host.handle.ownerLossGuard host.driver with
    | some error => host.answer (.refused error)
    | none => { host with future := some .ownerLossSweep }
  | .ownerLossSweep =>
    match host.handle.ledger with
    | none => host
    | some ledger =>
      if ledger.inFlight.isSome then host
      else
        let round := ledger.advance .ownerLost
        if round.finished then host.complete (.releasedAfterLoss round.ledger.report)
        else host.sweep round .ownerLossSweep

/-- Whether the future is in its sweep. -/
def sweeping (host : ReleaseHost) : Bool :=
  match host.future with
  | some (.orderlySweep _ _) | some .ownerLossSweep => true
  | _ => false

/-- The step that is parked. -/
def parked (host : ReleaseHost) : Option (CleanupLedger × InFlight) :=
  host.handle.ledger.bind fun ledger => ledger.inFlight.map fun step => (ledger, step)

/-- **What happens.** An event that cannot happen leaves the host: a driver ends once, an exit is moved
into the call, the parked step can end only while it is polled, and a future is dropped before its first
poll or where it waits for the parked step. -/
def step (host : ReleaseHost) : ReleaseEvent → ReleaseHost
  | .shutDown status registry =>
    if host.driver = .running then
      { host with
        driver := .shutdown
        exits := host.exits ++ [⟨host.handle.driverOwner, status, registry⟩] }
    else host
  | .loseOwner =>
    if host.driver = .running then { host with driver := .ownerDropped } else host
  | .obtain exit =>
    if exit.owner = host.handle.driverOwner then host
    else { host with exits := host.exits ++ [exit] }
  | .discard exit => { host with exits := host.exits.erase exit }
  | .disposeAfterDriver exit =>
    if host.future.isNone ∧ exit ∈ host.exits then
      { host with
        handle := (host.handle.disposeAfterDriver exit).1
        exits := host.exits.erase exit
        future := some (host.handle.disposeAfterDriver exit).2 }
    else host
  | .releaseAfterOwnerLoss =>
    if host.future.isNone then { host with future := some .ownerLoss } else host
  | .advance =>
    match host.future with
    | none => host
    | some future => host.advance future
  | .settle result =>
    match host.parked with
    | none => host
    | some (ledger, inFlight) =>
      if host.sweeping then
        { host with
          handle := { host.handle with ledger := some (ledger.ended inFlight.step result) }
          trace := host.trace ++ [.ended inFlight.step result] }
      else host
  | .drop =>
    if host.sweeping ∧ host.parked.isNone then host else { host with future := none }

/-- A run of events. -/
def run (host : ReleaseHost) (events : List ReleaseEvent) : ReleaseHost := events.foldl step host

end ReleaseHost

/-! ### What a round keeps -/

namespace CleanupLedger

variable {ledger : CleanupLedger}

theorem process_accepted (authority : CleanupAuthority) (moduleId : Id) :
    (ledger.process authority moduleId).ledger.orderlyReleaseAccepted =
      ledger.orderlyReleaseAccepted := by
  unfold process
  split
  · rfl
  · split
    · rfl
    · split
      · unfold unregister
        split
        · split
          · rfl
          · rfl
        · rfl
      · rfl

/-- A round keeps the record of the acceptance. -/
theorem advance_accepted (authority : CleanupAuthority) :
    (ledger.advance authority).ledger.orderlyReleaseAccepted = ledger.orderlyReleaseAccepted := by
  unfold advance
  split
  · exact process_accepted authority _
  · split
    · rfl
    · exact process_accepted authority _

/-- The last round of a sweep does nothing. -/
theorem advance_finished {authority : CleanupAuthority}
    (finished : (ledger.advance authority).finished = true) :
    (ledger.advance authority).ledger = ledger := by
  have process_open : ∀ (ledger : CleanupLedger) moduleId,
      (ledger.process authority moduleId).finished = false := by
    intro ledger moduleId
    unfold process
    split
    · rfl
    · split
      · rfl
      · split
        · unfold unregister
          split
          · split
            · rfl
            · rfl
          · rfl
        · rfl
  unfold advance at finished ⊢
  split at finished
  · rw [process_open] at finished
    cases finished
  · split at finished
    · rfl
    · rw [process_open] at finished
      cases finished

theorem ended_accepted (step : CleanupStep) (result : Except Text Unit) :
    (ledger.ended step result).orderlyReleaseAccepted = ledger.orderlyReleaseAccepted := by
  cases result with
  | ok value => rfl
  | error reason => rfl

theorem process_kept {plugins : BTreeSet Id} {moduleId : Id} {step : CleanupStep} :
    .lost step ∉ (ledger.process (.registry plugins) moduleId).events := by
  unfold process
  split
  · simp
  · split
    · simp
    · split
      · unfold unregister
        split
        · split
          · simp
          · simp
        · contradiction
      · simp

/-- A round that has the registry loses no registration. -/
theorem advance_kept {plugins : BTreeSet Id} {step : CleanupStep} :
    .lost step ∉ (ledger.advance (.registry plugins)).events := by
  unfold advance
  split
  · exact process_kept
  · split
    · exact List.not_mem_nil
    · exact process_kept

end CleanupLedger

/-! ### What holds in every state -/

/-- **What a completed release has done**: every step of the plan in its order, each that started has
ended, only registrations were given up, and the report names the failures of all sweeps and the modules
without one. -/
structure Released (activated : List ActivatedModule) (trace : List CleanupEvent)
    (report : RollbackReport) : Prop where
  taken : trace.filterMap CleanupEvent.taken = cleanupPlan activated
  ended : trace.filterMap CleanupEvent.starts = trace.filterMap CleanupEvent.ends
  lost : ∀ step, .lost step ∈ trace → ∃ pluginId, step.resource = .pluginRegistration pluginId
  failures : report.failures = trace.filterMap CleanupEvent.failure
  cleaned : ∀ moduleId, moduleId ∈ report.cleaned ↔
    moduleId ∈ activated.map ActivatedModule.moduleId ∧ failuresOf trace moduleId = []

/-- Whether the ledger, if it is there, has accepted an orderly release. -/
def CompositionHandle.accepted (handle : CompositionHandle) : Option Bool :=
  handle.ledger.map CleanupLedger.orderlyReleaseAccepted

namespace ReleaseHost

/-- Whether an exit comes from the driver of the composition. -/
def owns (host : ReleaseHost) (exit : DriverExit) : Bool := exit.owner = host.handle.driverOwner

/-- **What lets a future go on.** -/
def Permits (host : ReleaseHost) : ReleaseFuture → Prop
  | .rejected rejection => ∃ exit, rejection = .foreignDriverExit exit ∧ host.owns exit = false
  | .accepted _ | .orderlySweep _ _ =>
    host.driver = .shutdown ∧ host.handle.accepted = some true ∧ ∀ step, .lost step ∉ host.trace
  | .ownerLoss => True
  | .ownerLossSweep =>
    host.driver = .ownerDropped ∧ host.handle.accepted ≠ none ∨
      host.driver = .shutdown ∧ host.handle.accepted = some true

end ReleaseHost

/-- **What holds in every state.** The driver returns one exit, which is there only while no orderly
release is accepted, and the registry is lost only with the owner or with an accepted exit. -/
structure Releases (owned : OwnedModules) (host : ReleaseHost) : Prop where
  accounts : ∀ ledger, host.handle.ledger = some ledger →
    Accounts owned.modules host.trace ledger
  finished : host.handle.ledger = none → ∃ report, Released owned.modules host.trace report
  answered : ∀ answer ∈ host.answers, ∀ report, answer.report = some report →
    host.handle.ledger = none ∧ Released owned.modules host.trace report
  single : host.exits.countP host.owns ≤ 1
  own : ∀ exit ∈ host.exits, host.owns exit = true →
    host.driver = .shutdown ∧ host.handle.accepted = some false
  permits : ∀ future, host.future = some future → host.Permits future
  lost : ∀ step, .lost step ∈ host.trace →
    host.driver = .ownerDropped ∨ host.driver = .shutdown ∧ host.handle.accepted ≠ some false
  orderly : ∀ rollback status registry, .released rollback status registry ∈ host.answers →
    ∀ step, .lost step ∉ host.trace
  running : host.driver = .running → host.handle.accepted = some false

namespace Releases

variable {owned : OwnedModules} {host : ReleaseHost}

theorem start (order : List Id) (owned : OwnedModules) (driverOwner : Nat) :
    Releases owned (.start order owned.modules driverOwner) where
  accounts := by
    rintro ledger ⟨⟩
    exact .new owned.modules
  finished := nofun
  answered := nofun
  single := Nat.zero_le _
  own := nofun
  permits := nofun
  lost := nofun
  orderly := nofun
  running := fun _ => rfl

/-- The driver is running, so that there is no exit of it yet. -/
theorem unowned (releases : Releases owned host) (running : host.driver = .running)
    {exit : DriverExit} (member : exit ∈ host.exits) : ¬ host.owns exit = true := by
  intro owns
  have ended := (releases.own exit member owns).1
  rw [running] at ended
  cases ended

/-- Who waits for the end of the driver. -/
theorem permits_running (running : host.driver = .running) {future : ReleaseFuture}
    (permits : host.Permits future) :
    (∃ exit, future = .rejected (.foreignDriverExit exit) ∧ host.owns exit = false) ∨
      future = .ownerLoss := by
  cases future with
  | rejected rejection =>
    obtain ⟨exit, rfl, foreign⟩ := permits
    exact .inl ⟨exit, rfl, foreign⟩
  | ownerLoss => exact .inr rfl
  | accepted exit => exact absurd (running.symm.trans permits.1) (by decide)
  | orderlySweep status registry => exact absurd (running.symm.trans permits.1) (by decide)
  | ownerLossSweep =>
    rcases permits with ⟨ended, _⟩ | ⟨ended, _⟩
    · exact absurd (running.symm.trans ended) (by decide)
    · exact absurd (running.symm.trans ended) (by decide)

theorem shutDown (releases : Releases owned host) (running : host.driver = .running)
    (status : ShutdownStatus) (registry : BTreeSet Id) :
    Releases owned { host with
      driver := .shutdown
      exits := host.exits ++ [⟨host.handle.driverOwner, status, registry⟩] } := by
  have accepted := releases.running running
  have none_ : host.exits.countP host.owns = 0 :=
    List.countP_eq_zero.mpr fun _ member => releases.unowned running member
  refine { releases with single := ?_, own := ?_, permits := ?_, lost := ?_, running := nofun }
  · change (host.exits ++ [_]).countP host.owns ≤ 1
    rw [List.countP_append, none_, List.countP_singleton]
    split <;> omega
  · exact fun _ _ _ => ⟨rfl, accepted⟩
  · intro future here
    rcases permits_running running (releases.permits future here) with ⟨exit, rfl, foreign⟩ | rfl
    · exact ⟨exit, rfl, foreign⟩
    · trivial
  · intro step member
    rcases releases.lost step member with ended | ⟨ended, _⟩
    · exact absurd (running.symm.trans ended) (by decide)
    · exact absurd (running.symm.trans ended) (by decide)

theorem loseOwner (releases : Releases owned host) (running : host.driver = .running) :
    Releases owned { host with driver := .ownerDropped } := by
  refine { releases with own := ?_, permits := ?_, lost := ?_, running := nofun }
  · exact fun exit member owns => absurd owns (releases.unowned running member)
  · intro future here
    rcases permits_running running (releases.permits future here) with ⟨exit, rfl, foreign⟩ | rfl
    · exact ⟨exit, rfl, foreign⟩
    · trivial
  · exact fun _ _ => .inl rfl

theorem obtain_ (releases : Releases owned host) {exit : DriverExit}
    (foreign : host.owns exit = false) :
    Releases owned { host with exits := host.exits ++ [exit] } := by
  refine { releases with single := ?_, own := ?_ }
  · change (host.exits ++ [exit]).countP host.owns ≤ 1
    rw [List.countP_append, List.countP_singleton, foreign]
    exact releases.single
  · intro other member owns
    rcases List.mem_append.mp member with before | now
    · exact releases.own other before owns
    · rw [List.mem_singleton] at now
      subst now
      exact absurd (foreign.symm.trans owns) Bool.false_ne_true

theorem discard (releases : Releases owned host) (exit : DriverExit) :
    Releases owned { host with exits := host.exits.erase exit } :=
  { releases with
    single := Nat.le_trans List.erase_sublist.countP_le releases.single
    own := fun other member owns => releases.own other (List.mem_of_mem_erase member) owns }

/-- The host drops the future or calls for a release after owner loss. -/
theorem idle (releases : Releases owned host) {future : Option ReleaseFuture}
    (permits : ∀ here, future = some here → host.Permits here) :
    Releases owned { host with future } :=
  { releases with permits }

/-- The future answers without a report. -/
theorem answer (releases : Releases owned host) {answer : ReleaseAnswer}
    (without : answer.report = none) : Releases owned (host.answer answer) := by
  refine { releases with answered := ?_, permits := nofun, orderly := ?_ }
  · intro other member report reported
    rcases List.mem_append.mp member with before | now
    · exact releases.answered other before report reported
    · rw [List.mem_singleton.mp now, without] at reported
      cases reported
  · intro rollback status registry member
    rcases List.mem_append.mp member with before | now
    · exact releases.orderly rollback status registry before
    · rw [← List.mem_singleton.mp now] at without
      cases without

/-- **The orderly path is called.** An exit of the own driver is accepted: it is the only one, and no
release was accepted before. -/
theorem disposeAfterDriver (releases : Releases owned host) {exit : DriverExit}
    (member : exit ∈ host.exits) :
    Releases owned { host with
      handle := (host.handle.disposeAfterDriver exit).1
      exits := host.exits.erase exit
      future := some (host.handle.disposeAfterDriver exit).2 } := by
  unfold CompositionHandle.disposeAfterDriver
  by_cases other : host.handle.driverOwner ≠ exit.owner
  · rw [if_pos other]
    refine (releases.discard exit).idle ?_
    rintro future ⟨⟩
    exact ⟨exit, rfl, decide_eq_false fun same => other same.symm⟩
  · rw [if_neg other]
    rw [not_not] at other
    have owns : host.owns exit = true := decide_eq_true other.symm
    obtain ⟨ended, accepted⟩ := releases.own exit member owns
    obtain ⟨ledger, present, fresh⟩ := Option.map_eq_some_iff.mp accepted
    have none_ : (host.exits.erase exit).countP host.owns = 0 := by
      have single := releases.single
      rw [(List.perm_cons_erase member).countP_eq, List.countP_cons_of_pos owns] at single
      omega
    have kept : ∀ step, .lost step ∉ host.trace := by
      intro step lost
      rcases releases.lost step lost with dropped | ⟨_, refused⟩
      · exact absurd (ended.symm.trans dropped) (by decide)
      · exact refused accepted
    rw [present]
    simp only [fresh, Bool.false_eq_true, if_false]
    refine ⟨?_, nofun, ?_, ?_, ?_, ?_, ?_, releases.orderly, ?_⟩
    · rintro next ⟨⟩
      exact { releases.accounts ledger present with }
    · intro answer answered report reported
      have gone := (releases.answered answer answered report reported).1
      rw [present] at gone
      cases gone
    · exact Nat.le_trans (Nat.le_of_eq none_) (Nat.zero_le 1)
    · exact fun other inside owns => absurd owns (List.countP_eq_zero.mp none_ other inside)
    · rintro future ⟨⟩
      exact ⟨ended, rfl, kept⟩
    · exact fun step lost => absurd lost (kept step)
    · exact fun running => absurd (running.symm.trans ended) (by decide)

/-- **A sweep goes on**, or its parked step ends. -/
theorem worked (releases : Releases owned host) {ledger next : CleanupLedger}
    (present : host.handle.ledger = some ledger)
    (same : next.orderlyReleaseAccepted = ledger.orderlyReleaseAccepted) {events : List CleanupEvent}
    (accounts : Accounts owned.modules (host.trace ++ events) next) {future : Option ReleaseFuture}
    (permits : ∀ here, future = some here →
      { host with trace := host.trace ++ events }.Permits here)
    (lost : ∀ step, .lost step ∈ events →
      host.driver = .ownerDropped ∨ host.driver = .shutdown ∧ host.handle.accepted = some true) :
    Releases owned { host with
      handle := { host.handle with ledger := some next }
      future
      trace := host.trace ++ events } := by
  have accepted : ({ host.handle with ledger := some next } : CompositionHandle).accepted =
      host.handle.accepted := by
    unfold CompositionHandle.accepted
    rw [present, Option.map_some, Option.map_some, same]
  have open_ : ∀ answer ∈ host.answers, answer.report = none := by
    intro answer member
    cases reported : answer.report with
    | none => rfl
    | some report =>
      have gone := (releases.answered answer member report reported).1
      rw [present] at gone
      cases gone
  refine ⟨?_, nofun, ?_, releases.single, ?_, ?_, ?_, ?_, ?_⟩
  · rintro other ⟨⟩
    exact accounts
  · intro answer member report reported
    rw [open_ answer member] at reported
    cases reported
  · intro exit member owns
    rw [accepted]
    exact releases.own exit member owns
  · intro here polled
    have allowed := permits here polled
    unfold ReleaseHost.Permits at allowed ⊢
    rw [accepted]
    exact allowed
  · intro step member
    rw [accepted]
    rcases List.mem_append.mp member with before | now
    · exact releases.lost step before
    · rcases lost step now with dropped | ⟨ended, yes⟩
      · exact .inl dropped
      · exact .inr ⟨ended, by rw [yes]; simp⟩
  · intro rollback status registry member
    cases open_ _ member
  · rw [accepted]
    exact releases.running

/-- **A sweep is complete.** -/
theorem completed (releases : Releases owned host) {ledger : CleanupLedger}
    (present : host.handle.ledger = some ledger) (complete : ledger.isComplete = true)
    {answer : ReleaseAnswer} (reported : answer.report = some ledger.report)
    (ended : host.driver ≠ .running)
    (orderly : ∀ rollback status registry, answer = .released rollback status registry →
      ∀ step, .lost step ∉ host.trace)
    (consumed : ∀ exit ∈ host.exits, ¬ host.owns exit = true) :
    Releases owned (host.complete answer) := by
  obtain ⟨taken, closed, failures, cleaned⟩ := (releases.accounts ledger present).complete complete
  have done : Released owned.modules host.trace ledger.report :=
    ⟨taken, closed, (releases.accounts ledger present).lost, failures, cleaned⟩
  refine ⟨nofun, fun _ => ⟨_, done⟩, ?_, releases.single, ?_, nofun, ?_, ?_, ?_⟩
  · intro other member report named
    rcases List.mem_append.mp member with before | now
    · have gone := (releases.answered other before report named).1
      rw [present] at gone
      cases gone
    · rw [List.mem_singleton.mp now, reported] at named
      cases named
      exact ⟨rfl, done⟩
  · exact fun exit member owns => absurd owns (consumed exit member)
  · intro step member
    rcases releases.lost step member with dropped | ⟨down, _⟩
    · exact .inl dropped
    · exact .inr ⟨down, nofun⟩
  · intro rollback status registry member
    rcases List.mem_append.mp member with before | now
    · exact releases.orderly rollback status registry before
    · exact orderly rollback status registry (List.mem_singleton.mp now).symm
  · exact fun running => absurd running ended

/-- An accepted release has taken the only exit. -/
theorem consumed (releases : Releases owned host) (accepted : host.handle.accepted = some true) :
    ∀ exit ∈ host.exits, ¬ host.owns exit = true := by
  intro exit member owns
  have fresh := (releases.own exit member owns).2
  rw [accepted] at fresh
  cases fresh

/-- **One round of the orderly sweep.** -/
theorem orderlySweep (releases : Releases owned host) {status : ShutdownStatus}
    {registry : BTreeSet Id} (polled : host.future = some (.orderlySweep status registry)) :
    Releases owned (host.advance (.orderlySweep status registry)) := by
  obtain ⟨ended, accepted, kept⟩ := releases.permits _ polled
  obtain ⟨ledger, present, _⟩ := Option.map_eq_some_iff.mp accepted
  unfold ReleaseHost.advance
  simp only [present]
  by_cases parked : ledger.inFlight.isSome = true
  · rw [if_pos parked]
    exact releases
  · rw [if_neg parked]
    rw [Bool.not_eq_true, Option.isSome_eq_false_iff, Option.isNone_iff_eq_none] at parked
    obtain ⟨accounts, last⟩ := (releases.accounts ledger present).advance owned.distinct parked
      (.registry registry)
    by_cases finished : (ledger.advance (.registry registry)).finished = true
    · rw [if_pos finished]
      have complete := last finished
      have same : (ledger.advance (.registry registry)).ledger = ledger :=
        CleanupLedger.advance_finished finished
      rw [same] at complete ⊢
      refine releases.completed present complete rfl ?_ ?_ (releases.consumed accepted)
      · rw [ended]
        decide
      · exact fun _ _ _ _ => kept
    · rw [if_neg finished]
      refine releases.worked present (CleanupLedger.advance_accepted _) accounts ?_ ?_
      · rintro future ⟨⟩
        refine ⟨ended, accepted, fun step member => ?_⟩
        rcases List.mem_append.mp member with before | now
        · exact kept step before
        · exact CleanupLedger.advance_kept now
      · exact fun step member => absurd member CleanupLedger.advance_kept

/-- **One round of the sweep after owner loss.** -/
theorem ownerLossSweep (releases : Releases owned host)
    (polled : host.future = some .ownerLossSweep) :
    Releases owned (host.advance .ownerLossSweep) := by
  have permits := releases.permits _ polled
  have present : ∃ ledger, host.handle.ledger = some ledger := by
    rcases permits with ⟨_, here⟩ | ⟨_, accepted⟩
    · obtain ⟨_, accepted⟩ := Option.ne_none_iff_exists'.mp here
      obtain ⟨ledger, present, _⟩ := Option.map_eq_some_iff.mp accepted
      exact ⟨ledger, present⟩
    · obtain ⟨ledger, present, _⟩ := Option.map_eq_some_iff.mp accepted
      exact ⟨ledger, present⟩
  obtain ⟨ledger, present⟩ := present
  unfold ReleaseHost.advance
  simp only [present]
  by_cases parked : ledger.inFlight.isSome = true
  · rw [if_pos parked]
    exact releases
  · rw [if_neg parked]
    rw [Bool.not_eq_true, Option.isSome_eq_false_iff, Option.isNone_iff_eq_none] at parked
    obtain ⟨accounts, last⟩ := (releases.accounts ledger present).advance owned.distinct parked
      .ownerLost
    by_cases finished : (ledger.advance .ownerLost).finished = true
    · rw [if_pos finished]
      have complete := last finished
      have same : (ledger.advance .ownerLost).ledger = ledger :=
        CleanupLedger.advance_finished finished
      rw [same] at complete ⊢
      refine releases.completed present complete rfl ?_ nofun ?_
      · rcases permits with ⟨dropped, _⟩ | ⟨ended, _⟩
        · rw [dropped]
          decide
        · rw [ended]
          decide
      · intro exit member owns
        obtain ⟨down, fresh⟩ := releases.own exit member owns
        rcases permits with ⟨dropped, _⟩ | ⟨_, accepted⟩
        · exact absurd (down.symm.trans dropped) (by decide)
        · exact releases.consumed accepted exit member owns
    · rw [if_neg finished]
      refine releases.worked present (CleanupLedger.advance_accepted _) accounts ?_ ?_
      · rintro future ⟨⟩
        exact permits
      · intro step member
        rcases permits with ⟨dropped, _⟩ | allowed
        · exact .inl dropped
        · exact .inr allowed

/-- **The polled future goes on.** -/
theorem advance (releases : Releases owned host) {future : ReleaseFuture}
    (polled : host.future = some future) : Releases owned (host.advance future) := by
  have permits := releases.permits future polled
  cases future with
  | rejected rejection =>
    obtain ⟨exit, rfl, foreign⟩ := permits
    exact (releases.obtain_ foreign).answer rfl
  | accepted exit =>
    refine releases.idle ?_
    rintro future ⟨⟩
    exact permits
  | orderlySweep status registry => exact releases.orderlySweep polled
  | ownerLossSweep => exact releases.ownerLossSweep polled
  | ownerLoss =>
    unfold ReleaseHost.advance
    cases guard : host.handle.ownerLossGuard host.driver with
    | some error => exact releases.answer rfl
    | none =>
      refine releases.idle ?_
      rintro future ⟨⟩
      unfold CompositionHandle.ownerLossGuard at guard
      cases present : host.handle.ledger with
      | none =>
        rw [present] at guard
        cases guard
      | some ledger =>
        have accepted : host.handle.accepted = some ledger.orderlyReleaseAccepted := by
          rw [CompositionHandle.accepted, present, Option.map_some]
        rw [present] at guard
        cases driver : host.driver with
        | running =>
          rw [driver] at guard
          cases guard
        | ownerDropped => exact .inl ⟨driver, by rw [accepted]; exact Option.some_ne_none _⟩
        | shutdown =>
          rw [driver] at guard
          by_cases taken : ledger.orderlyReleaseAccepted = true
          · exact .inr ⟨driver, accepted.trans (congrArg some taken)⟩
          · simp only [if_neg taken] at guard
            cases guard

/-- **The parked step ends.** -/
theorem settle (releases : Releases owned host) {ledger : CleanupLedger} {inFlight : InFlight}
    (parked : host.parked = some (ledger, inFlight)) (result : Except Text Unit) :
    Releases owned { host with
      handle := { host.handle with ledger := some (ledger.ended inFlight.step result) }
      trace := host.trace ++ [.ended inFlight.step result] } := by
  obtain ⟨own, present, mapped⟩ := Option.bind_eq_some_iff.mp parked
  obtain ⟨step, flying, pair⟩ := Option.map_eq_some_iff.mp mapped
  cases pair
  refine releases.worked present (CleanupLedger.ended_accepted _ _)
    ((releases.accounts ledger present).ended owned.distinct flying result) ?_ ?_
  · intro future here
    have permits := releases.permits future here
    cases future with
    | rejected rejection => exact permits
    | ownerLoss => exact permits
    | ownerLossSweep => exact permits
    | accepted exit => exact ⟨permits.1, permits.2.1, by simpa using permits.2.2⟩
    | orderlySweep status registry => exact ⟨permits.1, permits.2.1, by simpa using permits.2.2⟩
  · simp

/-- **One event keeps it.** -/
theorem step (releases : Releases owned host) (event : ReleaseEvent) :
    Releases owned (host.step event) := by
  cases event with
  | shutDown status registry =>
    simp only [ReleaseHost.step]
    by_cases running : host.driver = .running
    · rw [if_pos running]
      exact releases.shutDown running status registry
    · rw [if_neg running]
      exact releases
  | loseOwner =>
    simp only [ReleaseHost.step]
    by_cases running : host.driver = .running
    · rw [if_pos running]
      exact releases.loseOwner running
    · rw [if_neg running]
      exact releases
  | obtain exit =>
    simp only [ReleaseHost.step]
    by_cases own : exit.owner = host.handle.driverOwner
    · rw [if_pos own]
      exact releases
    · rw [if_neg own]
      exact releases.obtain_ (decide_eq_false own)
  | discard exit => exact releases.discard exit
  | disposeAfterDriver exit =>
    simp only [ReleaseHost.step]
    by_cases able : host.future.isNone ∧ exit ∈ host.exits
    · rw [if_pos able]
      exact releases.disposeAfterDriver able.2
    · rw [if_neg able]
      exact releases
  | releaseAfterOwnerLoss =>
    simp only [ReleaseHost.step]
    by_cases able : host.future.isNone
    · rw [if_pos able]
      refine releases.idle ?_
      rintro future ⟨⟩
      trivial
    · rw [if_neg able]
      exact releases
  | advance =>
    simp only [ReleaseHost.step]
    cases polled : host.future with
    | none => exact releases
    | some future => exact releases.advance polled
  | settle result =>
    simp only [ReleaseHost.step]
    cases parked : host.parked with
    | none => exact releases
    | some pair =>
      simp only
      by_cases able : host.sweeping = true
      · rw [if_pos able]
        exact releases.settle parked result
      · rw [if_neg able]
        exact releases
  | drop =>
    simp only [ReleaseHost.step]
    by_cases polling : host.sweeping ∧ host.parked.isNone
    · rw [if_pos polling]
      exact releases
    · rw [if_neg polling]
      exact releases.idle nofun

/-- **A run keeps it.** -/
theorem run (releases : Releases owned host) (events : List ReleaseEvent) :
    Releases owned (host.run events) := by
  induction events generalizing host with
  | nil => exact releases
  | cons event events ih => exact ih (releases.step event)

end Releases

/-! ### The release -/

theorem Accounts.taken_extends {activated : List ActivatedModule} {events : List CleanupEvent}
    {ledger : CleanupLedger} (accounts : Accounts activated events ledger) :
    events.filterMap CleanupEvent.taken <+: cleanupPlan activated :=
  ⟨ledger.remaining, accounts.steps⟩

namespace ReleaseHost

/-- The exits of the host and of its future. -/
def held (host : ReleaseHost) : List DriverExit :=
  host.exits ++
    match host.future with
    | some (.rejected rejection) => rejection.intoExit.toList
    | some (.accepted exit) => [exit]
    | _ => []

/-- **A call that is turned away changes nothing**: neither the handle with its ledger nor a resource,
and no exit is lost. -/
structure Untouched (host next : ReleaseHost) : Prop where
  handle : next.handle = host.handle
  driver : next.driver = host.driver
  trace : next.trace = host.trace
  exits : next.held.Perm host.held

/-- A call of the orderly path that is rejected. -/
theorem untouched_of_rejected {owned : OwnedModules} {host : ReleaseHost}
    (releases : Releases owned host) (free : host.future = none) {exit : DriverExit}
    (member : exit ∈ host.exits) {rejection : CompositionReleaseRejection}
    (rejected : (host.handle.disposeAfterDriver exit).2 = .rejected rejection) :
    Untouched host (host.step (.disposeAfterDriver exit)) := by
  have foreign : host.handle.driverOwner ≠ exit.owner := by
    intro own
    obtain ⟨_, accepted⟩ := releases.own exit member (decide_eq_true own.symm)
    obtain ⟨ledger, present, fresh⟩ := Option.map_eq_some_iff.mp accepted
    unfold CompositionHandle.disposeAfterDriver at rejected
    rw [if_neg (not_not.mpr own), present] at rejected
    simp only [fresh, Bool.false_eq_true, if_false] at rejected
    cases rejected
  have decided : host.handle.disposeAfterDriver exit =
      (host.handle, .rejected (.foreignDriverExit exit)) := by
    unfold CompositionHandle.disposeAfterDriver
    rw [if_pos foreign]
  simp only [step]
  rw [if_pos ⟨by rw [free]; rfl, member⟩, decided]
  refine ⟨rfl, rfl, rfl, ?_⟩
  unfold held
  rw [free]
  change (host.exits.erase exit ++ [exit]).Perm (host.exits ++ [])
  rw [List.append_nil]
  exact (List.perm_append_singleton _ _).trans (List.perm_cons_erase member).symm

/-- The rejection is answered: the exit is back. -/
theorem untouched_of_answered {host : ReleaseHost} {rejection : CompositionReleaseRejection}
    (polled : host.future = some (.rejected rejection)) : Untouched host (host.step .advance) := by
  simp only [step, polled]
  refine ⟨rfl, rfl, rfl, ?_⟩
  unfold held
  rw [polled]
  change ((host.exits ++ rejection.intoExit.toList) ++ []).Perm _
  rw [List.append_nil]

/-- A release after owner loss that is refused. -/
theorem untouched_of_refused {host : ReleaseHost} {error : OwnerLossReleaseError}
    (polled : host.future = some .ownerLoss)
    (refused : host.handle.ownerLossGuard host.driver = some error) :
    Untouched host (host.step .advance) := by
  simp only [step, polled, advance, refused]
  refine ⟨rfl, rfl, rfl, ?_⟩
  unfold held
  rw [polled]
  exact .refl _

end ReleaseHost

/-! ### The composition that is released -/

/-- **What a successful activation hands to a release**: all modules of the plan in their order, with the
dispose hooks armed, every registered plugin and a fiber for each. -/
theorem Activation.owned_of_activated {ν : Type} {builder : CompositionBuilder ν}
    {plan : CompositionPlan ν} (built : builder.build = .ok plan) (tree : ScopeTree ν)
    (events : List (ActivationEvent ν))
    (activated : ((Activation.start plan tree).run events).phase = .activated) :
    ∃ owned : OwnedModules, owned.modules = ((Activation.start plan tree).run events).finished ∧
      owned.modules.map ActivatedModule.moduleId = plan.order ∧
      (∀ module ∈ owned.modules, module.hookArmed = true ∧
        module.fibers.map Prod.fst = module.plugins) ∧
      ∀ pluginId : Id, pluginId ∈ ((Activation.start plan tree).run events).registry ↔
        pluginId ∈ owned.modules.flatMap ActivatedModule.plugins := by
  have plans := plans_iff.mp built
  have stands :=
    Activation.stands_run plans.distinct.modules (Activation.stands_start plan tree) events
  generalize (Activation.start plan tree).run events = activation at activated stands
  unfold Activation.Stands at stands
  rw [activated] at stands
  obtain ⟨begun, _, holds, none_⟩ := stands
  have plugins (module : ActivatedModule) (member : module ∈ activation.finished) :
      module.plugins.Nodup :=
    (List.nodup_flatMap.mp holds.plugins).1 module member
  have order : activation.finished.map ActivatedModule.moduleId = plan.order := by
    have ids := congrArg (List.map Prod.fst) begun.split
    rw [none_, List.map_nil, List.append_nil, Option.toList_none, List.append_nil, List.map_map,
      List.map_map] at ids
    exact ids.trans plans.registrations_eq
  refine ⟨⟨activation.finished, ?_, fun module member => ⟨?_, plugins module member⟩⟩, rfl, order,
    fun module member => ⟨begun.armed module member, begun.started module member⟩, holds.registered⟩
  · rw [order]
    exact plans.order_nodup
  · rw [begun.started module member]
    exact plugins module member

/-- **Every cleanup step is taken once**, for every composition that was activated, over all calls of the
two release paths and wherever their futures are dropped: the steps taken so far are the first ones of the
plan, and none is there twice. Only a registration is ever given up, and then not by an orderly release. A
release that completes has taken all of them, and a call that is turned away changes nothing. -/
theorem released_once {ν : Type} {builder : CompositionBuilder ν} {plan : CompositionPlan ν}
    (built : builder.build = .ok plan) (tree : ScopeTree ν) (activation : List (ActivationEvent ν))
    (activated : ((Activation.start plan tree).run activation).phase = .activated)
    (driverOwner : Nat) (events : List ReleaseEvent) :
    let composition := (Activation.start plan tree).run activation
    let host := (ReleaseHost.start plan.order composition.finished driverOwner).run events
    composition.finished.map ActivatedModule.moduleId = plan.order ∧
      (∀ module ∈ composition.finished, module.hookArmed = true ∧
        module.fibers.map Prod.fst = module.plugins) ∧
      (∀ pluginId : Id, pluginId ∈ composition.registry ↔
        pluginId ∈ composition.finished.flatMap ActivatedModule.plugins) ∧
      host.trace.filterMap CleanupEvent.taken <+: cleanupPlan composition.finished ∧
      (host.trace.filterMap CleanupEvent.taken).Nodup ∧
      (∀ step, .lost step ∈ host.trace → ∃ pluginId, step.resource = .pluginRegistration pluginId) ∧
      (∀ answer ∈ host.answers, ∀ report, answer.report = some report →
        host.handle.ledger = none ∧ Released composition.finished host.trace report) ∧
      (∀ rollback status registry, .released rollback status registry ∈ host.answers →
        ∀ step, .lost step ∉ host.trace) ∧
      (∀ exit ∈ host.exits, ∀ rejection, host.future = none →
        (host.handle.disposeAfterDriver exit).2 = .rejected rejection →
        ReleaseHost.Untouched host (host.step (.disposeAfterDriver exit))) ∧
      (∀ rejection, host.future = some (.rejected rejection) →
        ReleaseHost.Untouched host (host.step .advance)) ∧
      ∀ error, host.future = some .ownerLoss →
        host.handle.ownerLossGuard host.driver = some error →
        ReleaseHost.Untouched host (host.step .advance) := by
  intro composition host
  obtain ⟨owned, same, order, complete, registered⟩ :=
    Activation.owned_of_activated built tree activation activated
  have releases : Releases owned host := by
    have started := (Releases.start plan.order owned driverOwner).run events
    rw [same] at started
    exact started
  change owned.modules = composition.finished at same
  rw [← same]
  have first : host.trace.filterMap CleanupEvent.taken <+: cleanupPlan owned.modules := by
    cases present : host.handle.ledger with
    | some ledger => exact (releases.accounts ledger present).taken_extends
    | none =>
      obtain ⟨report, complete⟩ := releases.finished present
      exact ⟨[], by rw [complete.taken, List.append_nil]⟩
  refine ⟨order, complete, registered, first, ?_, ?_, releases.answered, releases.orderly, ?_, ?_, ?_⟩
  · exact first.sublist.nodup (cleanupPlan_nodup owned.distinct owned.owned)
  · cases present : host.handle.ledger with
    | some ledger => exact (releases.accounts ledger present).lost
    | none =>
      obtain ⟨report, complete⟩ := releases.finished present
      exact complete.lost
  · intro exit member rejection free rejected
    exact ReleaseHost.untouched_of_rejected releases free member rejected
  · exact fun rejection polled => ReleaseHost.untouched_of_answered polled
  · exact fun error polled refused => ReleaseHost.untouched_of_refused polled refused

/-- The exit of the driver that ran the sample composition, with its two plugins. -/
def sampleExit : DriverExit := ⟨7, .clean, (∅ : BTreeSet Id).insertMany [sampleA, sampleB]⟩

/-- The driver shuts down, and its exit is accepted. The release is dropped while the hook of the last
module runs, and taken up on the other path. The hook fails, every fiber is disposed of, and the
registrations are gone with the dropped future. -/
def sampleResumed : List ReleaseEvent :=
  [.shutDown sampleExit.status sampleExit.registry, .disposeAfterDriver sampleExit, .advance, .advance,
    .drop, .releaseAfterOwnerLoss, .advance, .settle (.error []), .advance, .settle (.ok ())] ++
    .replicate 3 .advance ++ [.settle (.ok ()), .advance, .settle (.ok ())] ++ .replicate 4 .advance

/-- What makes both modules of the sample composition active. -/
def sampleStart : List (ActivationEvent Unit) :=
  sampleModuleRun ++ sampleModuleRun ++ .replicate 4 .advance

/-- The sample composition, activated. -/
def sampleComposition (plan : CompositionPlan Unit) : Activation Unit :=
  (Activation.start plan (.ofScope .root 1)).run sampleStart

/-- The sample release. -/
def sampleReleased (plan : CompositionPlan Unit) : ReleaseHost :=
  (ReleaseHost.start plan.order (sampleComposition plan).finished 7).run sampleResumed

/-- A release that was dropped within a step is completed by the next one. -/
theorem released_once_resumed : ∃ builder plan,
    CompositionBuilder.registerAll [sampleModule sampleA [] [FiberSystem.samplePlugin],
      sampleModule sampleB [] [sampleConsumer]] = .ok builder ∧ builder.build = .ok plan ∧
      ∃ answer report, (sampleReleased plan).answers = [answer] ∧ answer.report = some report ∧
        report.failures.length = 3 ∧
        Released (sampleComposition plan).finished (sampleReleased plan).trace report ∧
        ((sampleReleased plan).trace.filterMap CleanupEvent.taken).Nodup := by
  obtain ⟨builder, made, built⟩ := exists_ok_of_any
    (show ((CompositionBuilder.registerAll [sampleModule sampleA [] [FiberSystem.samplePlugin],
      sampleModule sampleB [] [sampleConsumer]]).toOption.any fun builder =>
      builder.build.toOption.any fun plan => (sampleComposition plan).phase.succeeded &&
        ((sampleReleased plan).answers.length = 1 && (sampleReleased plan).answers.all fun answer =>
          answer.report.any fun report => report.failures.length = 3)) = true by decide +kernel)
  obtain ⟨plan, built, fine⟩ := exists_ok_of_any built
  simp only [Bool.and_eq_true, decide_eq_true_eq] at fine
  obtain ⟨succeeded, single, reported⟩ := fine
  have activated : (sampleComposition plan).phase = .activated :=
    ActivationPhase.activated_of_succeeded succeeded
  obtain ⟨_, _, _, _, once, _, completed, _⟩ :=
    released_once built (.ofScope .root 1) sampleStart activated 7 sampleResumed
  obtain ⟨answer, answers⟩ := List.length_eq_one_iff.mp single
  rw [answers, List.all_cons, List.all_nil, Bool.and_true, Option.any_eq_true] at reported
  obtain ⟨report, here, failures⟩ := reported
  refine ⟨builder, plan, made, built, answer, report, answers, here, of_decide_eq_true failures, ?_,
    once⟩
  exact (completed answer (answers ▸ List.mem_singleton_self answer) report here).2

end Kernis
