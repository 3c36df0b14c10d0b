/-
**The driver delivers every lifecycle item once and in order.**

At most one emitted item is outside the lifecycle stream, and the driver holds it: every function that
could make the runtime emit retries the held item first and stops when it is handed back again.

* `Carries` — what was delivered, what is buffered and what is held are, in this order, what was
  buffered at first and what the driver's calls emitted.
* `held_process`, `held_step` — one command and one event of the system keep this.
* `lifecycle_in_order` — it holds in every run, over any store.
-/

import Kernis.Driver.Mailbox
import Kernis.Runtime.Emissions

namespace Kernis

open Std Fallible

namespace Runtime

variable {σ ν : Type} [DurableStore σ]

/-- What operations emit, one after the other. -/
def emissionsAll (runtime : Runtime σ ν) : List (Operation ν) → List (StreamItem RuntimeEvent)
  | [] => []
  | operation :: rest =>
    operation.emissions runtime ++ (operation.perform runtime).2.emissionsAll rest

theorem performAll_push (runtime : Runtime σ ν) (operations : List (Operation ν))
    (operation : Operation ν) :
    runtime.performAll (operations ++ [operation]) =
      (operation.perform (runtime.performAll operations)).2 := by
  simp [performAll]

theorem emissionsAll_push (runtime : Runtime σ ν) (operations : List (Operation ν))
    (operation : Operation ν) :
    runtime.emissionsAll (operations ++ [operation]) =
      runtime.emissionsAll operations ++ operation.emissions (runtime.performAll operations) := by
  induction operations generalizing runtime with
  | nil => simp [emissionsAll, performAll]
  | cons first rest ih =>
    simp only [List.cons_append, emissionsAll, ih, List.append_assoc]
    rfl

end Runtime

/-- The lifecycle items that a result delivers. -/
def deliveredBy : DriverResult → List (StreamItem RuntimeEvent)
  | .ok (.executionEvents items) => items
  | _ => []

namespace RuntimeDriver

variable {σ ν α : Type} [DurableStore σ]

/-- **The places of the items**: delivered, buffered, and held outside the stream. A parked item is
the held one. -/
structure Carries (origin : Runtime σ ν) (delivered held : List (StreamItem RuntimeEvent))
    (driver : RuntimeDriver σ ν) : Prop where
  performed : driver.runtime = origin.performAll driver.calls
  placed : delivered ++ driver.runtime.executionEvents.items ++ held =
    origin.executionEvents.items ++ origin.emissionsAll driver.calls
  numbered : Numbered origin.executionSequencer (origin.emissionsAll driver.calls)
    driver.runtime.executionSequencer
  parked : ∀ attempt item, driver.runtime.pendingStarted = some (attempt, item) → held = [item]

/-- The driver holds what is outside the stream. -/
def Held (origin : Runtime σ ν) (delivered : List (StreamItem RuntimeEvent))
    (driver : RuntimeDriver σ ν) : Prop :=
  Carries origin delivered driver.pendingLifecycle.toList driver

/-- Nothing is outside the stream. -/
structure Clear (origin : Runtime σ ν) (delivered : List (StreamItem RuntimeEvent))
    (driver : RuntimeDriver σ ν) : Prop where
  held : Held origin delivered driver
  empty : driver.pendingLifecycle = none

section Steps

variable {origin : Runtime σ ν} {delivered held : List (StreamItem RuntimeEvent)}
  {driver : RuntimeDriver σ ν}

theorem held_new (origin : Runtime σ ν) (idle : origin.pendingStarted = none) :
    Held origin [] (.new origin) := by
  refine ⟨rfl, by simp [RuntimeDriver.new, Runtime.emissionsAll], .refl _, fun _ _ parked => ?_⟩
  have parked : origin.pendingStarted = some _ := parked
  rw [idle] at parked
  cases parked

/-- Nothing is parked while nothing is held. -/
theorem Clear.idle (clear : Clear origin delivered driver) : driver.runtime.pendingStarted = none := by
  cases pending : driver.runtime.pendingStarted with
  | none => rfl
  | some parked =>
    have held := clear.held.parked parked.1 parked.2 pending
    rw [clear.empty] at held
    cases held

/-- The next call of the runtime, when it is known what it does to the stream. -/
theorem Carries.call (carries : Carries origin delivered held driver) (operation : Operation ν)
    {next : RuntimeDriver σ ν} {fewer more : List (StreamItem RuntimeEvent)}
    (performed : next.runtime = (operation.perform driver.runtime).2)
    (calls : next.calls = driver.calls ++ [operation])
    (placed : delivered ++ driver.runtime.executionEvents.items ++ held ++
      operation.emissions driver.runtime = fewer ++ next.runtime.executionEvents.items ++ more)
    (numbered : Numbered driver.runtime.executionSequencer (operation.emissions driver.runtime)
      next.runtime.executionSequencer)
    (parked : ∀ attempt item, next.runtime.pendingStarted = some (attempt, item) → more = [item]) :
    Carries origin fewer more next := by
  have emitted : origin.emissionsAll next.calls =
      origin.emissionsAll driver.calls ++ operation.emissions driver.runtime := by
    rw [calls, Runtime.emissionsAll_push, ← carries.performed]
  refine ⟨?_, ?_, ?_, parked⟩
  · rw [calls, Runtime.performAll_push, ← carries.performed]
    exact performed
  · rw [← placed, carries.placed, emitted, List.append_assoc]
  · rw [emitted]
    exact carries.numbered.trans numbered

/-- A call that leaves the lifecycle alone. -/
theorem Carries.still (carries : Carries origin delivered held driver) (operation : Operation ν)
    {next : RuntimeDriver σ ν} (performed : next.runtime = (operation.perform driver.runtime).2)
    (calls : next.calls = driver.calls ++ [operation])
    (silent : operation.emissions driver.runtime = [])
    (still : Runtime.Still driver.runtime next.runtime) : Carries origin delivered held next := by
  refine carries.call operation performed calls ?_ ?_ fun attempt item pending => ?_
  · rw [silent, List.append_nil, still.events]
  · rw [silent, still.sequencer]
    exact .refl _
  · rw [still.pending] at pending
    exact carries.parked attempt item pending

theorem Carries.clear (carries : Carries origin delivered [] driver)
    (empty : driver.pendingLifecycle = none) : Clear origin delivered driver := by
  refine ⟨?_, empty⟩
  rw [Held, empty]
  exact carries

/-- The driver keeps what the runtime handed back. -/
theorem Carries.kept {error : RuntimeError} (carries : Carries origin delivered error.rejected driver)
    (empty : driver.pendingLifecycle = none) : Held origin delivered (driver.keep error) := by
  cases error with
  | executionBackpressure item =>
    exact ⟨carries.performed, carries.placed, carries.numbered, carries.parked⟩
  | _ => exact (Carries.clear carries empty).held

/-! ### The functions of the driver -/

/-- The held item is enqueued, or it stays held. -/
theorem held_retry :
    Triple (Held origin delivered) retryPendingLifecycle (fun _ => Clear origin delivered)
      (fun error driver => Held origin delivered (driver.keep error)) := by
  intro driver before
  cases pending : driver.pendingLifecycle with
  | none =>
    simp only [retryPendingLifecycle, pending]
    exact ⟨before, pending⟩
  | some item =>
    have carries : Carries origin delivered [item] driver := by
      have held := before
      rwa [Held, pending] at held
    have first : Runtime.ParkedFirst driver.runtime (.retryExecutionEvent item : Operation ν) := by
      intro other attempt parked same parks
      cases same
      exact (List.cons.inj (carries.parked attempt parked parks)).1
    rcases Runtime.retry_cases first with ⟨events, attempts, pushed, retried⟩ | refused
    · simp only [retryPendingLifecycle, pending, call, retried]
      refine ⟨carries.call (.retryExecutionEvent item) ?_ rfl ?_ (.refl _)
        fun _ _ parks => ?_, rfl⟩
      · rw [Operation.perform, run_map, retried]
      · show _ = delivered ++ events.items ++ []
        rw [Runtime.items_of_push pushed]
        simp [Operation.emissions]
      · cases parks
    · simp only [retryPendingLifecycle, pending, call, refused]
      refine carries.still (.retryExecutionEvent item) ?_ rfl rfl (.refl _)
      rw [Operation.perform, run_map, refused]
      rfl

/-- A command of the runtime, made while nothing is held. -/
theorem held_call {command : Command} {method : Op σ ν α} {wrap : α → Reply}
    (same : command.perform = method.map wrap) :
    Triple (Clear origin delivered) (call (.command command) method)
      (fun _ => Clear origin delivered)
      (fun error driver => Held origin delivered (driver.keep error)) := by
  intro driver clear
  obtain ⟨conveyed, parks⟩ := Runtime.conveys_command command clear.idle
  rw [same, run_map, rejectedItems_map] at conveyed parks
  have carries : Carries origin delivered (rejectedItems (method driver.runtime).1)
      (call (.command command) method driver).2 := by
    refine clear.held.call (.command command) ?_ rfl ?_ conveyed.numbered
      fun attempt item pending => ?_
    · rw [Operation.perform, same, run_map]
      rfl
    · rw [clear.empty]
      show delivered ++ driver.runtime.executionEvents.items ++ [] ++ command.emissions driver.runtime =
        delivered ++ (method driver.runtime).2.executionEvents.items ++ _
      rw [List.append_nil, List.append_assoc, List.append_assoc, conveyed.placed]
    · have pending : (method driver.runtime).2.pendingStarted = some (attempt, item) := pending
      rcases parks with kept | ⟨other, rejected, parked, none⟩
      · rw [kept, clear.idle] at pending
        cases pending
      · rw [parked] at pending
        cases pending
        exact none
  rw [call] at carries ⊢
  rcases answered : method driver.runtime with ⟨error | value, reached⟩ <;> rw [answered] at carries
  · exact carries.kept clear.empty
  · exact carries.clear clear.empty

/-- A command of the runtime that leaves the lifecycle alone, at any time. -/
theorem held_quiet {command : Command} {method : Op σ ν α} {wrap : α → Reply}
    (same : command.perform = method.map wrap)
    (quiet : ∀ runtime : Runtime σ ν, command.Quiet runtime) :
    Triple (Held origin delivered) (call (.command command) method)
      (fun _ => Held origin delivered)
      (fun error driver => Held origin delivered (driver.keep error)) := by
  intro driver held
  obtain ⟨silent, none, still⟩ := Runtime.command_still (quiet driver.runtime)
  rw [same, run_map, rejectedItems_map] at none
  rw [same, run_map] at still
  have carries : Held origin delivered (call (.command command) method driver).2 := by
    refine Carries.still held (.command command) ?_ rfl silent still
    rw [Operation.perform, same, run_map]
    rfl
  rw [call] at carries ⊢
  rcases answered : method driver.runtime with ⟨error | value, reached⟩ <;>
    rw [answered] at carries none
  · cases error with
    | executionBackpressure item => cases none
    | _ => exact carries
  · exact carries

theorem held_checkLineage {operationId : OperationId} {expected actual : Option AttemptId} :
    Triple (Clear origin delivered) (checkLineage operationId expected actual)
      (fun _ => Clear origin delivered) (fun _ => Held origin delivered) := by
  cases expected with
  | none => exact triple_pure fun _ clear => clear
  | some attemptId =>
    rw [checkLineage]
    split
    · exact triple_pure fun _ clear => clear
    · exact triple_fail fun _ clear => clear.held

/-- Reading the journal or the store hands back nothing. -/
theorem held_read {ε : Type} {result : Except ε α} {wrap : ε → RuntimeError}
    (plain : ∀ error, (wrap error).rejected = []) :
    Triple (Clear origin delivered) (orRuntimeError (lift (result.mapError wrap)))
      (fun _ => Clear origin delivered) (fun _ => Held origin delivered) := by
  refine triple_orRuntimeError (triple_lift (fun _ _ _ clear => clear) fun error failed driver clear => ?_)
  refine Carries.kept ?_ clear.empty
  have held := clear.held
  rw [Held, clear.empty] at held
  cases result with
  | ok value => cases failed
  | error inner =>
    cases failed
    rw [plain]
    exact held

theorem held_dispatchEffectNow (operationId : OperationId) (expected : Option AttemptId) :
    Triple (Held origin delivered) (dispatchEffectNow operationId expected)
      (fun _ => Clear origin delivered) (fun _ => Held origin delivered) := by
  unfold dispatchEffectNow
  refine (triple_orRuntimeError held_retry).bind fun _ => ?_
  refine (triple_get (fun _ => Clear origin delivered) fun _ clear => clear).bind fun driver => ?_
  refine (held_read fun _ => rfl).bind fun intent => ?_
  refine held_checkLineage.bind fun _ => ?_
  refine (triple_orRuntimeError (held_call rfl)).bind fun attemptId => ?_
  refine held_checkLineage.bind fun _ => ?_
  exact (triple_get (fun _ => Clear origin delivered) fun _ clear => clear).bind fun _ => triple_pure fun _ clear => clear

theorem held_recoverNow (operationId : OperationId) :
    Triple (Held origin delivered) (recoverNow operationId)
      (fun _ => Clear origin delivered) (fun _ => Held origin delivered) :=
  (triple_orRuntimeError held_retry).bind fun _ => triple_orRuntimeError (held_call rfl)

theorem held_cancelNow (taskId : Id) :
    Triple (Held origin delivered) (cancelNow taskId)
      (fun _ => Held origin delivered) (fun _ => Held origin delivered) :=
  triple_orRuntimeError (held_quiet rfl (Runtime.quiet_cancelTask taskId))

theorem held_resumeDispatch (request : EffectDispatchRequest)
    (answer : Except EffectDispatchError KnownEffectOutcome) :
    Triple (Held origin delivered) (resumeDispatch request answer)
      (fun _ => Held origin delivered) (fun _ => Held origin delivered) := by
  cases answer with
  | error error => exact triple_pure fun _ held => held
  | ok outcome =>
    refine (triple_orRuntimeError (held_quiet rfl
      (Runtime.quiet_recordEffectOutcome request.operationId request.attemptId outcome))).bind ?_
    exact fun _ => triple_pure fun _ held => held

theorem held_recoverAll (operationIds : List OperationId) :
    Triple (Clear origin delivered) (recoverAll operationIds)
      (fun _ => Clear origin delivered) (fun _ => Held origin delivered) := by
  induction operationIds with
  | nil => exact triple_pure fun _ clear => clear
  | cons operationId rest ih => exact (triple_orRuntimeError (held_call rfl)).bind fun _ => ih

/-- **A shutdown that succeeds leaves nothing held.** -/
theorem held_shutdownNow :
    Triple (Held origin delivered) shutdownNow
      (fun _ => Clear origin delivered) (fun _ => Held origin delivered) := by
  unfold shutdownNow
  refine (triple_orRuntimeError held_retry).bind fun _ => ?_
  refine (triple_get (fun _ => Clear origin delivered) fun _ clear => clear).bind fun driver => ?_
  refine (held_read fun _ => rfl).bind fun state => ?_
  refine (held_recoverAll _).bind fun _ => ?_
  have refuse : Triple (Clear origin delivered) refusePending (fun _ => Clear origin delivered)
      (fun _ => Held origin delivered) := by
    intro driver clear
    simp only [refusePending, clear.empty]
    exact clear
  refine refuse.bind fun _ => ?_
  refine (triple_get (fun _ => Clear origin delivered) fun _ clear => clear).bind fun driver => ?_
  exact (held_read fun _ => rfl).bind fun _ => triple_pure fun _ clear => clear

theorem held_driveOnce :
    Triple (Held origin delivered) driveOnce
      (fun _ => Held origin delivered) (fun _ => Held origin delivered) := by
  intro driver held
  unfold driveOnce
  have retried := held_retry driver held
  rcases tried : retryPendingLifecycle driver with ⟨error | _, middle⟩ <;> rw [tried] at retried
  · exact triple_driveRuntimeError (Held origin delivered) error (fun _ _ held => held)
      (fun _ _ held => held) middle retried
  · have stepped := held_call (show Command.step.perform = Runtime.step.map .stepped from rfl)
      middle retried
    simp only
    rcases called : call (.command .step) Runtime.step middle with ⟨error | result, reached⟩ <;>
      rw [called] at stepped
    · exact triple_driveRuntimeError (Held origin delivered) error (fun _ _ held => held)
        (fun _ _ held => held) reached stepped
    · cases result with
      | effectPending taskId attemptId operationId =>
        have dispatched : Triple (Held origin delivered)
            ((dispatchEffectNow operationId (some attemptId)).map Drive.handOver)
            (fun _ => Held origin delivered) (fun _ => Held origin delivered) :=
          (held_dispatchEffectNow operationId (some attemptId)).map fun _ _ clear => clear.held
        exact dispatched reached stepped.held
      | _ => exact stepped.held

/-! ### One command -/

theorem held_drainExecution (held : Held origin delivered driver) :
    Held origin (delivered ++ driver.drainExecution.1) driver.drainExecution.2 ∧
      driver.drainExecution.2.runtime.executionEvents.items = [] := by
  have drained := Runtime.drainExecutionEvents_eq driver.runtime
  have items : driver.drainExecution.1 = driver.runtime.executionEvents.items := by
    rw [drainExecution, driver.runtime.executionEvents.drain_eq]
  have runtime : driver.drainExecution.2.runtime = (Runtime.drainExecutionEvents driver.runtime).2 :=
    rfl
  rw [drained] at runtime
  refine ⟨Carries.call held .drainExecutionEvents rfl rfl ?_ ?_ fun attempt item pending => ?_, ?_⟩
  · rw [items, runtime]
    simp [Operation.emissions, drainExecution, call]
  · rw [runtime]
    exact .refl _
  · rw [runtime] at pending
    exact held.parked attempt item pending
  · rw [runtime]

theorem held_drainProgress (held : Held origin delivered driver) :
    Held origin delivered driver.drainProgress.2 :=
  Carries.still held .drainProgressEvents rfl rfl rfl ⟨rfl, rfl, rfl⟩

theorem held_drainTelemetry (held : Held origin delivered driver) :
    Held origin delivered driver.drainTelemetry.2 :=
  Carries.still held .drainTelemetryEvents rfl rfl rfl ⟨rfl, rfl, rfl⟩

/-- Where the items are after one command. -/
def Follows (origin : Runtime σ ν) (delivered : List (StreamItem RuntimeEvent)) :
    Progress × RuntimeDriver σ ν → Prop
  | (.reply result, reached) => Held origin (delivered ++ deliveredBy result) reached
  | (.await _, reached) => Held origin delivered reached
  | (.exit _, reached) => Clear origin delivered reached

theorem follows_answer {first : DriverOp σ ν α} {wrap : α → DriverReply}
    (triple : Triple (Held origin delivered) first (fun _ => Held origin delivered)
      (fun _ => Held origin delivered))
    (silent : ∀ value, deliveredBy (.ok (wrap value)) = []) (held : Held origin delivered driver) :
    Follows origin delivered (answer first wrap driver) := by
  have reached := triple.reached held
  have nothing : deliveredBy ((first driver).1.map wrap) = [] := by
    cases (first driver).1 with
    | error error => rfl
    | ok value => exact silent value
  show Held origin (delivered ++ deliveredBy ((first driver).1.map wrap)) (first driver).2
  rw [nothing, List.append_nil]
  exact reached

/-- A failed command delivers nothing. -/
theorem follows_error {error : DriverError} (held : Held origin delivered driver) :
    Follows origin delivered (.reply (.error error), driver) := by
  show Held origin (delivered ++ []) driver
  rw [List.append_nil]
  exact held

/-- **One command keeps the items in order.** -/
theorem held_process (held : Held origin delivered driver) (request : DriverRequest) :
    Follows origin delivered (driver.process request) := by
  cases request with
  | wake =>
    have drove := held_driveOnce driver held
    rw [process]
    rcases driven : driveOnce driver with ⟨error | drive, reached⟩ <;> rw [driven] at drove
    · exact follows_error drove
    · cases drive with
      | done result =>
        show Held origin (delivered ++ []) reached
        rw [List.append_nil]
        exact drove
      | handOver request => exact drove
  | dispatchEffect operationId =>
    have dispatched := held_dispatchEffectNow operationId none driver held
    rw [process, handOver]
    rcases ended : dispatchEffectNow operationId none driver with ⟨error | request, reached⟩ <;>
      rw [ended] at dispatched
    · exact follows_error dispatched
    · exact dispatched.held
  | recover operationId =>
    exact follows_answer ((held_recoverNow operationId).weaken (fun _ held => held)
      (fun _ _ clear => clear.held) fun _ _ held => held) (fun _ => rfl) held
  | cancelTask taskId => exact follows_answer (held_cancelNow taskId) (fun _ => rfl) held
  | drainExecutionEvents => exact (held_drainExecution held).1
  | drainProgressEvents =>
    show Held origin (delivered ++ []) driver.drainProgress.2
    rw [List.append_nil]
    exact held_drainProgress held
  | drainTelemetryEvents =>
    show Held origin (delivered ++ []) driver.drainTelemetry.2
    rw [List.append_nil]
    exact held_drainTelemetry held
  | shutdown =>
    have shut := held_shutdownNow driver held
    rw [process]
    rcases ended : shutdownNow driver with ⟨error | status, reached⟩ <;> rw [ended] at shut
    · exact follows_error shut
    · exact shut

end Steps

end RuntimeDriver

/-! ### The mailbox after the close -/

/-- After the close a command moves the final items to its reply, or nothing. -/
theorem MailboxState.completeAfterClose_delivers {mailbox : MailboxState}
    (closed : mailbox.closed = true) (owned : mailbox.ownerDropped = false)
    (request : DriverRequest) :
    deliveredBy (mailbox.completeAfterClose request).1 ++
        (mailbox.completeAfterClose request).2.shutdownExecutionEvents =
        mailbox.shutdownExecutionEvents ∧
      (mailbox.completeAfterClose request).2.closed = true ∧
      (mailbox.completeAfterClose request).2.ownerDropped = false ∧
      (mailbox.completeAfterClose request).2.commands = mailbox.commands := by
  have alive : ¬ mailbox.ownerDropped = true := by
    rw [owned]
    exact Bool.false_ne_true
  cases request with
  | drainExecutionEvents =>
    simp [completeAfterClose, takeShutdownExecutionEvents, finalEvents, deliveredBy, closed, owned]
  | drainProgressEvents =>
    simp [completeAfterClose, takeShutdownProgressEvents, finalEvents, deliveredBy, closed, owned]
  | drainTelemetryEvents =>
    simp [completeAfterClose, takeShutdownTelemetryEvents, finalEvents, deliveredBy, closed, owned]
  | _ => simp [completeAfterClose, deliveredBy, closed, owned]

/-! ### The system -/

namespace DriverSystem

variable {σ ν : Type} [DurableStore σ]

omit [DurableStore σ] in
/-- The results of `drain_execution_events` so far, one after the other. -/
def drained (system : DriverSystem σ ν) : List (StreamItem RuntimeEvent) :=
  system.responses.flatMap fun response => deliveredBy response.2

omit [DurableStore σ] in
/-- What is buffered or held: the final items of a closed mailbox, the runtime's stream, and the item
that the driver holds. A dropped future has taken its driver with it. -/
def undelivered (system : DriverSystem σ ν) : List (StreamItem RuntimeEvent) :=
  match system.activity with
  | .dropped => []
  | _ => system.mailbox.shutdownExecutionEvents ++ system.driver.runtime.executionEvents.items ++
      system.driver.pendingLifecycle.toList

omit [DurableStore σ] in
/-- How the run future and the mailbox agree: the mailbox is open until a shutdown succeeded with
nothing held, and then every item is in the mailbox or delivered. -/
def Agrees (system : DriverSystem σ ν) : Prop :=
  match system.activity with
  | .idle | .awaiting _ _ =>
    system.mailbox.ownerDropped = false ∧ system.mailbox.closed = false ∧
      system.mailbox.shutdownExecutionEvents = []
  | .closing _ _ => system.mailbox.ownerDropped = false ∧ system.mailbox.closed = true ∧
      system.driver.pendingLifecycle = none
  | .dropped => False

/-- **The system keeps the items in order.** -/
structure Ordered (origin : Runtime σ ν) (system : DriverSystem σ ν) : Prop where
  futures : system.Futures system.outstanding
  held : RuntimeDriver.Held origin (system.drained ++ system.mailbox.shutdownExecutionEvents)
    system.driver
  agrees : system.Agrees

variable {origin : Runtime σ ν} {system : DriverSystem σ ν}

theorem ordered_new (origin : Runtime σ ν) (idle : origin.pendingStarted = none) :
    Ordered origin (.new origin) :=
  ⟨List.Perm.refl _, RuntimeDriver.held_new origin idle, rfl, rfl, rfl⟩

/-- A reply that was due is completed. -/
theorem Ordered.complete {reply : Nat} {result : DriverResult}
    (futures : system.Futures (reply :: system.outstanding))
    (held : RuntimeDriver.Held origin
      (system.drained ++ deliveredBy result ++ system.mailbox.shutdownExecutionEvents) system.driver)
    (agrees : system.Agrees) : Ordered origin (system.complete reply result) := by
  obtain ⟨completed, after⟩ := futures.complete result
  rw [completed] at after ⊢
  refine ⟨after, ?_, agrees⟩
  have drained : ({ system with responses := system.responses ++ [(reply, result)] } :
      DriverSystem σ ν).drained = system.drained ++ deliveredBy result := by
    simp [DriverSystem.drained]
  rw [drained]
  exact held

/-- A command after the close. -/
theorem Ordered.completeAfterClose {command : DriverCommand} {status : ShutdownStatus}
    {commands : List DriverCommand}
    (futures : system.Futures (command.reply :: system.outstanding))
    (held : RuntimeDriver.Held origin (system.drained ++ system.mailbox.shutdownExecutionEvents)
      system.driver)
    (activity : system.activity = .closing status commands) (agrees : system.Agrees) :
    Ordered origin (system.completeAfterClose command) := by
  rw [Agrees, activity] at agrees
  obtain ⟨owned, closed, empty⟩ := agrees
  obtain ⟨moved, stays, alive, queue⟩ :=
    MailboxState.completeAfterClose_delivers closed owned command.request
  unfold DriverSystem.completeAfterClose
  generalize system.mailbox.completeAfterClose command.request = completed at moved stays alive queue ⊢
  refine Ordered.complete ?_ ?_ ?_
  · have same : ({ system with mailbox := completed.2 } : DriverSystem σ ν).outstanding =
        system.outstanding := by
      simp only [outstanding, queue]
    rw [same]
    exact futures
  · show RuntimeDriver.Held origin
      (system.drained ++ deliveredBy completed.1 ++ completed.2.shutdownExecutionEvents) system.driver
    rw [List.append_assoc, moved]
    exact held
  · simp only [Agrees, activity]
    exact ⟨alive, stays, empty⟩

omit [DurableStore σ] in
/-- A closed mailbox belongs to a run that ended. -/
theorem Agrees.closing (agrees : system.Agrees) (closed : system.mailbox.closed = true) :
    ∃ status commands, system.activity = .closing status commands := by
  unfold Agrees at agrees
  cases activity : system.activity with
  | closing status commands => exact ⟨status, commands, rfl⟩
  | dropped =>
    rw [activity] at agrees
    cases agrees
  | _ =>
    rw [activity] at agrees
    rw [agrees.2.1] at closed
    cases closed

theorem Ordered.submit (ordered : Ordered origin system) (request : DriverRequest) :
    Ordered origin (system.submit request) := by
  obtain ⟨futures, held, agrees⟩ := ordered
  unfold DriverSystem.submit MailboxState.submit
  by_cases closed : system.mailbox.closed = true
  · obtain ⟨status, commands, activity⟩ := agrees.closing closed
    rw [if_pos closed]
    refine Ordered.completeAfterClose ?_ held activity agrees
    exact futures.submit.perm (List.perm_append_singleton _ _).symm
  · rw [if_neg closed]
    refine ⟨?_, held, agrees⟩
    have queued := futures.submit
    unfold Futures outstanding at queued ⊢
    simpa using queued

/-- The end of the run. -/
theorem Ordered.exit {reply : Nat} {status : ShutdownStatus}
    (futures : system.Futures (reply :: system.outstanding)) (activity : system.activity = .idle)
    (clear : RuntimeDriver.Clear origin system.drained system.driver)
    (owned : system.mailbox.ownerDropped = false) : Ordered origin (system.exit reply status) := by
  have drained := (RuntimeDriver.held_drainExecution clear.held).1
  have final := RuntimeDriver.held_drainTelemetry (RuntimeDriver.held_drainProgress drained)
  have due : ({ system with driver :=
      system.driver.drainExecution.2.drainProgress.2.drainTelemetry.2 } : DriverSystem σ ν).Futures
      (reply :: system.outstanding) := futures
  obtain ⟨completed, after⟩ := due.complete (.ok (.shutDown status))
  unfold DriverSystem.exit
  simp only [completed] at after ⊢
  refine ⟨?_, ?_, owned, rfl, clear.empty⟩
  · unfold Futures outstanding at after ⊢
    rw [activity] at after
    simpa [MailboxState.close, Activity.replies] using after
  · simpa [DriverSystem.drained, MailboxState.close, deliveredBy] using final

/-- A command that was taken from the mailbox. -/
theorem Ordered.process {command : DriverCommand}
    (futures : system.Futures (command.reply :: system.outstanding))
    (activity : system.activity = .idle)
    (held : RuntimeDriver.Held origin system.drained system.driver)
    (agrees : system.Agrees) : Ordered origin (system.process command) := by
  have follows := RuntimeDriver.held_process held command.request
  have open_ := agrees
  rw [Agrees, activity] at open_
  obtain ⟨owned, closed, none⟩ := open_
  unfold DriverSystem.process
  rcases processed : system.driver.process command.request with ⟨result | request | status, driver⟩ <;>
    rw [processed] at follows
  · refine Ordered.complete futures ?_ ?_
    · show RuntimeDriver.Held origin
        (system.drained ++ deliveredBy result ++ system.mailbox.shutdownExecutionEvents) driver
      rw [none, List.append_nil]
      exact follows
    · simp only [Agrees, activity]
      exact ⟨owned, closed, none⟩
  · refine ⟨?_, ?_, owned, closed, none⟩
    · have due := futures
      unfold outstanding at due ⊢
      rw [activity] at due
      exact due
    · show RuntimeDriver.Held origin (system.drained ++ system.mailbox.shutdownExecutionEvents) driver
      rw [none, List.append_nil]
      exact follows
  · exact Ordered.exit futures activity follows owned

theorem Ordered.poll (ordered : Ordered origin system) (activity : system.activity = .idle) :
    Ordered origin system.poll := by
  obtain ⟨futures, held, agrees⟩ := ordered
  unfold DriverSystem.poll
  cases queue : system.mailbox.commands with
  | nil =>
    simp only
    split
    · exact ⟨futures, held, agrees⟩
    · exact ⟨futures, held, agrees⟩
  | cons command rest =>
    refine Ordered.process ?_ activity ?_ agrees
    · have due := futures
      unfold outstanding at due ⊢
      rw [activity, queue] at due
      rw [activity]
      exact due
    · rw [Agrees, activity] at agrees
      rw [agrees.2.2, List.append_nil] at held
      exact held

theorem Ordered.resolve (ordered : Ordered origin system) {reply : Nat}
    {request : EffectDispatchRequest} (activity : system.activity = .awaiting reply request)
    (answer : Except EffectDispatchError KnownEffectOutcome) :
    Ordered origin (system.resolve reply request answer) := by
  obtain ⟨futures, held, agrees⟩ := ordered
  have resumed := (RuntimeDriver.held_resumeDispatch request answer).reached held
  rw [Agrees, activity] at agrees
  unfold DriverSystem.resolve
  refine Ordered.complete ?_ ?_ agrees
  · have due := futures
    unfold outstanding at due ⊢
    rw [activity] at due
    exact due
  · have nothing : deliveredBy
        ((RuntimeDriver.resumeDispatch request answer system.driver).1.map .drove) = [] := by
      cases (RuntimeDriver.resumeDispatch request answer system.driver).1 with
      | error error => rfl
      | ok value => rfl
    rw [nothing, List.append_nil]
    exact resumed

/-- **Every event keeps the items in order**, as long as the run future is not dropped. -/
theorem Ordered.step (ordered : Ordered origin system) {event : DriverEvent}
    (alive : event ≠ .drop) : Ordered origin (system.step event) := by
  obtain ⟨futures, held, agrees⟩ := ordered
  cases event with
  | submit request => exact Ordered.submit ⟨futures, held, agrees⟩ request
  | drop => exact absurd rfl alive
  | poll =>
    cases activity : system.activity with
    | idle =>
      simp only [DriverSystem.step, activity]
      exact Ordered.poll ⟨futures, held, agrees⟩ activity
    | _ =>
      simp only [DriverSystem.step, activity]
      exact ⟨futures, held, agrees⟩
  | resolve answer =>
    cases activity : system.activity with
    | awaiting reply request =>
      simp only [DriverSystem.step, activity]
      exact Ordered.resolve ⟨futures, held, agrees⟩ activity answer
    | _ =>
      simp only [DriverSystem.step, activity]
      exact ⟨futures, held, agrees⟩
  | reject =>
    cases activity : system.activity with
    | closing status commands =>
      cases commands with
      | nil =>
        simp only [DriverSystem.step, activity]
        exact ⟨futures, held, agrees⟩
      | cons command rest =>
        simp only [DriverSystem.step, activity]
        refine Ordered.completeAfterClose ?_ held rfl ?_
        · have due := futures
          unfold outstanding at due ⊢
          rw [activity] at due
          exact due
        · rw [Agrees, activity] at agrees
          exact agrees
    | _ =>
      simp only [DriverSystem.step, activity]
      exact ⟨futures, held, agrees⟩

theorem ordered_run (ordered : Ordered origin system) {events : List DriverEvent}
    (alive : DriverEvent.drop ∉ events) : Ordered origin (system.run events) := by
  induction events generalizing system with
  | nil => exact ordered
  | cons event rest ih =>
    refine ih (ordered.step ?_) fun member => alive (List.mem_cons_of_mem _ member)
    rintro rfl
    exact alive List.mem_cons_self

theorem Ordered.undelivered_eq (ordered : Ordered origin system) :
    system.drained ++ system.undelivered =
      origin.executionEvents.items ++ origin.emissionsAll system.driver.calls := by
  have agrees := ordered.agrees
  rw [← ordered.held.placed]
  unfold undelivered
  unfold Agrees at agrees
  cases activity : system.activity with
  | dropped =>
    rw [activity] at agrees
    cases agrees
  | _ => simp only [List.append_assoc]

/-- **Every lifecycle item once and in order.** Over any store, for any commands, dispatcher answers
and interleavings, as long as the run future is not dropped: what the drains returned, followed by
what is buffered or held, is what was buffered at first, followed by what the driver's calls made the
execution sequencer emit, under consecutive numbers. A shutdown never succeeds while an item is held. -/
theorem lifecycle_in_order (runtime : Runtime σ ν) (idle : runtime.pendingStarted = none)
    (events : List DriverEvent) (alive : DriverEvent.drop ∉ events) :
    let system := (DriverSystem.new runtime).run events
    let emitted := runtime.emissionsAll system.driver.calls
    system.driver.runtime = runtime.performAll system.driver.calls ∧
      system.drained ++ system.undelivered = runtime.executionEvents.items ++ emitted ∧
      emitted.map StreamItem.sequence =
        List.range' runtime.executionSequencer.nextSequence emitted.length ∧
      (emitted.map StreamItem.sequence).Pairwise (· < ·) ∧
      (∀ status reached, RuntimeDriver.shutdownNow system.driver = (.ok status, reached) →
        reached.pendingLifecycle = none ∧ reached.runtime.pendingStarted = none) ∧
      ∀ status commands, system.activity = .closing status commands →
        system.driver.pendingLifecycle = none ∧ system.driver.runtime.pendingStarted = none := by
  intro system emitted
  have ordered : Ordered runtime system := ordered_run (ordered_new runtime idle) alive
  have cleared {driver : RuntimeDriver σ ν} {delivered : List (StreamItem RuntimeEvent)}
      (clear : RuntimeDriver.Clear runtime delivered driver) :
      driver.pendingLifecycle = none ∧ driver.runtime.pendingStarted = none :=
    ⟨clear.empty, clear.idle⟩
  refine ⟨ordered.held.performed, ordered.undelivered_eq, ordered.held.numbered.consecutive,
    ordered.held.numbered.increasing, fun status reached shut => ?_,
    fun status commands activity => ?_⟩
  · have ended := RuntimeDriver.held_shutdownNow system.driver ordered.held
    rw [shut] at ended
    exact cleared ended
  · have agrees := ordered.agrees
    rw [Agrees, activity] at agrees
    exact cleared ⟨ordered.held, agrees.2.2⟩

end DriverSystem

/-- The sample operation, safe to repeat, is dispatched until the lifecycle stream is full. -/
def sampleFilled : List (Operation Unit) :=
  .command (.recordEffectIntent sampleTask sampleOperation .idempotent) ::
    List.replicate 128 (.command (.dispatchEffect sampleOperation))

/-- One more dispatch is driven, and a shutdown after it. -/
def sampleHeld : List DriverEvent :=
  [.submit (.dispatchEffect sampleOperation), .poll, .submit .shutdown, .poll]

/-- The stream is drained, and the driver is shut down. -/
def sampleDriven : List DriverEvent :=
  sampleHeld ++ [.submit .drainExecutionEvents, .poll, .submit .shutdown, .poll,
    .submit .drainExecutionEvents]

/-- The driver takes over a full stream and holds the next item, so that the first shutdown does not
succeed. After the drain it delivers the item, and all items were drained in order. -/
theorem lifecycle_in_order_sample :
    let _ := Persisted.postcard
    ∃ started runtime : Runtime InMemoryDurableStore Unit, sampleStarted = .ok started ∧
      started.performAll sampleFilled = runtime ∧
        (((DriverSystem.new runtime).run sampleHeld).driver.pendingLifecycle.map
          StreamItem.sequence) = some 129 ∧
        ((DriverSystem.new runtime).run sampleHeld).drained = [] ∧
        ((DriverSystem.new runtime).run sampleDriven).drained.map StreamItem.sequence =
          List.range' 1 129 := by
  intro _
  obtain ⟨started, starts, holds⟩ := exists_ok_of_any
    (show (sampleStarted.toOption.any fun started =>
      let runtime := started.performAll sampleFilled
      runtime.pendingStarted = none ∧ runtime.executionSequencer.nextSequence = 129 ∧
        runtime.executionEvents.items.map StreamItem.sequence = List.range' 1 128 ∧
        (((DriverSystem.new runtime).run sampleHeld).driver.pendingLifecycle.map
          StreamItem.sequence) = some 129 ∧
        ((DriverSystem.new runtime).run sampleHeld).drained = [] ∧
        ((DriverSystem.new runtime).run sampleDriven).undelivered = [] ∧
        ((DriverSystem.new runtime).run sampleDriven).drained.length = 129) = true by
      decide +kernel)
  obtain ⟨idle, next, buffered, held, nothing, delivered, count⟩ := of_decide_eq_true holds
  obtain ⟨_, placed, numbers, _⟩ :=
    DriverSystem.lifecycle_in_order (started.performAll sampleFilled) idle sampleDriven
      (by simp [sampleDriven, sampleHeld])
  rw [delivered, List.append_nil] at placed
  have lengths := congrArg List.length placed
  have full := congrArg List.length buffered
  rw [List.length_map, List.length_range'] at full
  rw [List.length_append, count, full] at lengths
  refine ⟨started, _, starts, rfl, held, nothing, ?_⟩
  rw [placed, List.map_append, buffered, numbers, next,
    show List.length _ = 1 from (Nat.add_left_cancel lengths).symm]
  decide

end Kernis
