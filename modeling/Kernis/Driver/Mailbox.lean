/-
**Handles, the command mailbox and the run of a driver.**

Handles submit commands to a mailbox; the run future takes them one after the other and completes
their replies. A successful shutdown closes the mailbox: what is queued then or submitted later is
rejected, except that each kind of drain gets the final events once.

* `MailboxState` — the state behind the mutex; every function of it is one critical section.
* `RuntimeDriver.process` — one turn of the loop of `run`, up to an await or a reply.
* `DriverSystem` — the handles' view (replies), the mailbox and the driver.
* `DriverSystem.step` — everything that can happen next, in any interleaving: a submission, a poll of
  the run future, an answer of the dispatcher, one rejection after the close, a drop of the future.
-/

import Kernis.Driver.RuntimeDriver

namespace Kernis

open Std Fallible

/-! ### Commands and replies -/

/-- What a handle asks for. -/
inductive DriverRequest
  | wake
  | dispatchEffect (operationId : OperationId)
  | recover (operationId : OperationId)
  | cancelTask (taskId : Id)
  | drainExecutionEvents
  | drainProgressEvents
  | drainTelemetryEvents
  | shutdown
deriving DecidableEq

/-- A command: what is asked for, and the sender of the reply, named by the number of its future. -/
structure DriverCommand where
  request : DriverRequest
  reply : Nat
deriving DecidableEq

/-- What a future resolves to when its command succeeds. -/
inductive DriverReply
  | drove (result : DriveResult)
  | decided (decision : RecoveryDecision)
  | cancelled (cancellation : Cancellation)
  | executionEvents (items : List (StreamItem RuntimeEvent))
  | progressEvents (items : List (KeyedStreamItem Id RuntimeEvent))
  | telemetryEvents (items : List (StreamItem RuntimeEvent))
  | shutDown (status : ShutdownStatus)
deriving DecidableEq

/-- The result of a command. -/
abbrev DriverResult := Except DriverError DriverReply

/-! ### The mailbox -/

/-- The state behind the mailbox's mutex. Of the waker only its registration matters. -/
structure MailboxState where
  commands : List DriverCommand
  closed : Bool
  ownerDropped : Bool
  waker : Bool
  shutdownExecutionEvents : List (StreamItem RuntimeEvent)
  shutdownProgressEvents : List (KeyedStreamItem Id RuntimeEvent)
  shutdownTelemetryEvents : List (StreamItem RuntimeEvent)

namespace MailboxState

/-- An open mailbox without commands. -/
def new : MailboxState := ⟨[], false, false, false, [], [], []⟩

/-- Queues a command and wakes the driver, unless the mailbox is closed. -/
def submit (mailbox : MailboxState) (command : DriverCommand) : Option MailboxState :=
  if mailbox.closed then none
  else some { mailbox with commands := mailbox.commands ++ [command], waker := false }

/-- Closes the mailbox with the final events and takes out what is queued. -/
def close (mailbox : MailboxState) (executionEvents : List (StreamItem RuntimeEvent))
    (progressEvents : List (KeyedStreamItem Id RuntimeEvent))
    (telemetryEvents : List (StreamItem RuntimeEvent)) : List DriverCommand × MailboxState :=
  (mailbox.commands, { mailbox with
    commands := []
    closed := true
    waker := false
    shutdownExecutionEvents := executionEvents
    shutdownProgressEvents := progressEvents
    shutdownTelemetryEvents := telemetryEvents })

/-- The owner is lost: closes the mailbox and takes out what is queued. -/
def dropOwner (mailbox : MailboxState) : List DriverCommand × MailboxState :=
  if mailbox.closed then ([], mailbox)
  else (mailbox.commands, { mailbox with
    commands := []
    closed := true
    ownerDropped := true
    waker := false })

def takeShutdownExecutionEvents (mailbox : MailboxState) :
    Option (List (StreamItem RuntimeEvent)) × MailboxState :=
  if mailbox.closed then
    (some mailbox.shutdownExecutionEvents, { mailbox with shutdownExecutionEvents := [] })
  else (none, mailbox)

def takeShutdownProgressEvents (mailbox : MailboxState) :
    Option (List (KeyedStreamItem Id RuntimeEvent)) × MailboxState :=
  if mailbox.closed then
    (some mailbox.shutdownProgressEvents, { mailbox with shutdownProgressEvents := [] })
  else (none, mailbox)

def takeShutdownTelemetryEvents (mailbox : MailboxState) :
    Option (List (StreamItem RuntimeEvent)) × MailboxState :=
  if mailbox.closed then
    (some mailbox.shutdownTelemetryEvents, { mailbox with shutdownTelemetryEvents := [] })
  else (none, mailbox)

/-- What is answered to a drain after the close. -/
def finalEvents {α : Type} (wrap : List α → DriverReply) : Option (List α) → DriverResult
  | some events => .ok (wrap events)
  | none => .error .shuttingDown

/-- Completes a command after the close: each kind of drain takes its final events. -/
def completeAfterClose (mailbox : MailboxState) (request : DriverRequest) :
    DriverResult × MailboxState :=
  if mailbox.ownerDropped then (.error .ownerDropped, mailbox)
  else
    match request with
    | .drainExecutionEvents =>
      (finalEvents .executionEvents mailbox.takeShutdownExecutionEvents.1,
        mailbox.takeShutdownExecutionEvents.2)
    | .drainProgressEvents =>
      (finalEvents .progressEvents mailbox.takeShutdownProgressEvents.1,
        mailbox.takeShutdownProgressEvents.2)
    | .drainTelemetryEvents =>
      (finalEvents .telemetryEvents mailbox.takeShutdownTelemetryEvents.1,
        mailbox.takeShutdownTelemetryEvents.2)
    | _ => (.error .shuttingDown, mailbox)

end MailboxState

/-! ### One turn of the loop -/

/-- Where a turn of the loop comes to: a reply, an await of the dispatcher, or the end. -/
inductive Progress
  | reply (result : DriverResult)
  | await (request : EffectDispatchRequest)
  | exit (status : ShutdownStatus)

namespace RuntimeDriver

variable {σ ν α : Type}

/-- A function that runs to its end. -/
def answer (first : DriverOp σ ν α) (wrap : α → DriverReply) (driver : RuntimeDriver σ ν) :
    Progress × RuntimeDriver σ ν :=
  (.reply ((first driver).1.map wrap), (first driver).2)

/-- A dispatch that hands over its request. -/
def handOver (first : DriverOp σ ν EffectDispatchRequest) (driver : RuntimeDriver σ ν) :
    Progress × RuntimeDriver σ ν :=
  match first driver with
  | (.ok request, reached) => (.await request, reached)
  | (.error error, reached) => (.reply (.error error), reached)

def drainExecution (driver : RuntimeDriver σ ν) :
    List (StreamItem RuntimeEvent) × RuntimeDriver σ ν :=
  (driver.runtime.executionEvents.drain.1,
    (call .drainExecutionEvents Runtime.drainExecutionEvents driver).2)

def drainProgress (driver : RuntimeDriver σ ν) :
    List (KeyedStreamItem Id RuntimeEvent) × RuntimeDriver σ ν :=
  (driver.runtime.progressEvents.drain.1,
    (call .drainProgressEvents Runtime.drainProgressEvents driver).2)

def drainTelemetry (driver : RuntimeDriver σ ν) :
    List (StreamItem RuntimeEvent) × RuntimeDriver σ ν :=
  (driver.runtime.telemetryEvents.drain.1,
    (call .drainTelemetryEvents Runtime.drainTelemetryEvents driver).2)

variable [DurableStore σ]

/-- **One turn of the loop of `run`**, up to a reply, an await or the end. -/
def process (driver : RuntimeDriver σ ν) : DriverRequest → Progress × RuntimeDriver σ ν
  | .wake =>
    match driveOnce driver with
    | (.ok (.done result), reached) => (.reply (.ok (.drove result)), reached)
    | (.ok (.handOver request), reached) => (.await request, reached)
    | (.error error, reached) => (.reply (.error error), reached)
  | .dispatchEffect operationId => handOver (dispatchEffectNow operationId none) driver
  | .recover operationId => answer (recoverNow operationId) .decided driver
  | .cancelTask taskId => answer (cancelNow taskId) .cancelled driver
  | .drainExecutionEvents =>
    (.reply (.ok (.executionEvents driver.drainExecution.1)), driver.drainExecution.2)
  | .drainProgressEvents =>
    (.reply (.ok (.progressEvents driver.drainProgress.1)), driver.drainProgress.2)
  | .drainTelemetryEvents =>
    (.reply (.ok (.telemetryEvents driver.drainTelemetry.1)), driver.drainTelemetry.2)
  | .shutdown =>
    match shutdownNow driver with
    | (.ok status, reached) => (.exit status, reached)
    | (.error error, reached) => (.reply (.error error), reached)

end RuntimeDriver

/-! ### The system -/

/-- Where the run future stands: it waits for a command, it waits for the dispatcher, it has closed
the mailbox and completes what was queued, or it was dropped. -/
inductive Activity
  | idle
  | awaiting (reply : Nat) (request : EffectDispatchRequest)
  | closing (status : ShutdownStatus) (commands : List DriverCommand)
  | dropped

/-- A driver with its mailbox and the replies so far, in the order in which they were completed.
`handed` is a history variable: the requests handed to the dispatcher, in order. -/
structure DriverSystem (σ ν : Type) where
  driver : RuntimeDriver σ ν
  mailbox : MailboxState
  activity : Activity
  responses : List (Nat × DriverResult)
  futures : Nat
  handed : List EffectDispatchRequest

/-- What can happen next. -/
inductive DriverEvent
  | submit (request : DriverRequest)
  | poll
  | resolve (answer : Except EffectDispatchError KnownEffectOutcome)
  | reject
  | drop

namespace DriverSystem

variable {σ ν : Type}

/-- A new driver and its handle. -/
def new (runtime : Runtime σ ν) : DriverSystem σ ν :=
  ⟨.new runtime, .new, .idle, [], 0, []⟩

/-- Completes a reply. A future keeps its first result. -/
def complete (system : DriverSystem σ ν) (reply : Nat) (result : DriverResult) :
    DriverSystem σ ν :=
  if reply ∈ system.responses.map Prod.fst then system
  else { system with responses := system.responses ++ [(reply, result)] }

/-- Completes a command after the close. -/
def completeAfterClose (system : DriverSystem σ ν) (command : DriverCommand) :
    DriverSystem σ ν :=
  { system with mailbox := (system.mailbox.completeAfterClose command.request).2 }.complete
    command.reply (system.mailbox.completeAfterClose command.request).1

/-- A handle submits a command under a new future. -/
def submit (system : DriverSystem σ ν) (request : DriverRequest) : DriverSystem σ ν :=
  match system.mailbox.submit ⟨request, system.futures⟩ with
  | some mailbox => { system with mailbox := mailbox, futures := system.futures + 1 }
  | none => { system with futures := system.futures + 1 }.completeAfterClose
      ⟨request, system.futures⟩

/-- The end of the run: the streams are drained, the reply is completed, the mailbox is closed. -/
def exit (system : DriverSystem σ ν) (reply : Nat) (status : ShutdownStatus) :
    DriverSystem σ ν :=
  let (executionEvents, driver) := system.driver.drainExecution
  let (progressEvents, driver) := driver.drainProgress
  let (telemetryEvents, driver) := driver.drainTelemetry
  let system := { system with driver := driver }.complete reply (.ok (.shutDown status))
  let (commands, mailbox) := system.mailbox.close executionEvents progressEvents telemetryEvents
  { system with mailbox := mailbox, activity := .closing status commands }

variable [DurableStore σ]

/-- Processes a command that was taken from the mailbox. -/
def process (system : DriverSystem σ ν) (command : DriverCommand) : DriverSystem σ ν :=
  match system.driver.process command.request with
  | (.reply result, driver) => { system with driver := driver }.complete command.reply result
  | (.await request, driver) => { system with
      driver := driver
      activity := .awaiting command.reply request
      handed := system.handed ++ [request] }
  | (.exit status, driver) => { system with driver := driver }.exit command.reply status

/-- Polls the run future while it waits for a command. An empty mailbox registers the waker; that it
is closed then is excluded, since the future has returned. -/
def poll (system : DriverSystem σ ν) : DriverSystem σ ν :=
  match system.mailbox.commands with
  | command :: rest =>
    { system with mailbox := { system.mailbox with commands := rest } }.process command
  | [] =>
    if system.mailbox.closed then system
    else { system with mailbox := { system.mailbox with waker := true } }

/-- The dispatcher's future resolves. -/
def resolve (system : DriverSystem σ ν) (reply : Nat) (request : EffectDispatchRequest)
    (answer : Except EffectDispatchError KnownEffectOutcome) : DriverSystem σ ν :=
  { system with
    driver := (RuntimeDriver.resumeDispatch request answer system.driver).2
    activity := .idle }.complete reply
      ((RuntimeDriver.resumeDispatch request answer system.driver).1.map .drove)

omit [DurableStore σ] in
/-- The run future is dropped. The reply that it holds and all that is queued are completed. -/
def drop (system : DriverSystem σ ν) (replies : List Nat) : DriverSystem σ ν :=
  (replies ++ system.mailbox.dropOwner.1.map DriverCommand.reply).foldl
    (fun system reply => system.complete reply (.error .ownerDropped))
    { system with mailbox := system.mailbox.dropOwner.2, activity := .dropped }

/-- **What happens next.** An event that cannot happen changes nothing. -/
def step (system : DriverSystem σ ν) (event : DriverEvent) : DriverSystem σ ν :=
  match event, system.activity with
  | .submit request, _ => system.submit request
  | .poll, .idle => system.poll
  | .resolve answer, .awaiting reply request => system.resolve reply request answer
  | .reject, .closing status (command :: rest) =>
    { system with activity := .closing status rest }.completeAfterClose command
  | .drop, .idle => system.drop []
  | .drop, .awaiting reply _ => system.drop [reply]
  | _, _ => system

/-- A run of the system. -/
def run (system : DriverSystem σ ν) (events : List DriverEvent) : DriverSystem σ ν :=
  events.foldl step system

end DriverSystem

/-! ### Futures -/

/-- The replies that the run future still has to complete. -/
def Activity.replies : Activity → List Nat
  | .idle | .dropped => []
  | .awaiting reply _ => [reply]
  | .closing _ commands => commands.map DriverCommand.reply

namespace DriverSystem

variable {σ ν : Type}

/-- The futures that are not resolved yet. -/
def outstanding (system : DriverSystem σ ν) : List Nat :=
  system.activity.replies ++ system.mailbox.commands.map DriverCommand.reply

/-- **Every future is resolved once or is in one place**: the resolved ones and `rest` are all the
futures, each once. -/
def Futures (system : DriverSystem σ ν) (rest : List Nat) : Prop :=
  (system.responses.map Prod.fst ++ rest).Perm (List.range system.futures)

theorem Futures.complete {system : DriverSystem σ ν} {reply : Nat} {rest : List Nat}
    (futures : system.Futures (reply :: rest)) (result : DriverResult) :
    system.complete reply result =
        { system with responses := system.responses ++ [(reply, result)] } ∧
      (system.complete reply result).Futures rest := by
  have unique : (system.responses.map Prod.fst ++ reply :: rest).Nodup :=
    futures.nodup_iff.mpr List.nodup_range
  have fresh : reply ∉ system.responses.map Prod.fst := by
    intro member
    exact (List.nodup_append.mp unique).2.2 reply member reply List.mem_cons_self rfl
  have completed : system.complete reply result =
      { system with responses := system.responses ++ [(reply, result)] } := if_neg fresh
  refine ⟨completed, ?_⟩
  rw [completed, Futures, List.map_append, List.append_assoc]
  exact futures

/-- A new future. -/
theorem Futures.submit {system : DriverSystem σ ν} {rest : List Nat}
    (futures : system.Futures rest) :
    { system with futures := system.futures + 1 }.Futures (rest ++ [system.futures]) := by
  rw [Futures, List.range_succ, ← List.append_assoc]
  exact futures.append_right _

theorem Futures.perm {system : DriverSystem σ ν} {rest other : List Nat}
    (futures : system.Futures rest) (same : other.Perm rest) : system.Futures other :=
  (same.append_left _).trans futures

end DriverSystem

end Kernis
