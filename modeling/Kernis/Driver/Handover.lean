/-
**What the driver hands to the dispatcher.**

* `Awaited` — what a step leaves that waits for a dispatch. The checks of the attempt lineage, which
  read another view of the attempts, then find what they expect (`dispatch_expected`).
* `Handed` — the durable dispatches are those of earlier owners, then the requests handed over, in
  order.
* `dispatch_discipline` — in every run of a driver over a store that it owns, a request is handed over
  when its dispatch is durable, no attempt twice and no non-idempotent operation twice, and an outcome
  is recorded only for the request that was just answered.
-/

import Kernis.Driver.Mailbox
import Kernis.Runtime.Driven

namespace Kernis

open Std Fallible

/-! ### Steps that wait for a dispatch -/

namespace Runtime

variable {σ ν : Type}

/-- **A task whose dispatch is next**: its operation is prepared, and its attempt has started. -/
structure Awaited (runtime : Runtime σ ν) (taskId : Id) (attemptId : AttemptId)
    (operationId : OperationId) : Prop where
  idle : runtime.pendingStarted = none
  live : taskId ∉ runtime.cancelled
  owned : runtime.journal.operationForTask taskId = some operationId
  prepared : runtime.journal.state operationId = .prepared
  waiting : runtime.pendingAttempt taskId operationId = some attemptId

theorem not_cancelled_of_nextReady {runtime : Runtime σ ν} {taskId : Id}
    (ready : runtime.nextReady = some taskId) : taskId ∉ runtime.cancelled := by
  have found := List.find?_some ready
  exact of_decide_eq_true found

section Halts

variable {runtime : Runtime σ ν} {taskId : Id} {attemptId : AttemptId} {operationId : OperationId}

/-- The answer of a step that waits for a dispatch. -/
def awaitedReply (taskId : Id) (attemptId : AttemptId) (operationId : OperationId) : Decision :=
  .halt (.ok (.stepped (.effectPending taskId attemptId operationId)))

theorem decideAdmit_ne_awaited {task : Id} {operation : Option OperationId}
    {after : AttemptId → After} :
    runtime.decideAdmit task operation after ≠ awaitedReply taskId attemptId operationId := by
  unfold decideAdmit awaitedReply
  split <;> simp

theorem decideComplete_ne_awaited {task : Id} {attempt : AttemptId} {reply : Reply} :
    runtime.decideComplete task attempt reply ≠ awaitedReply taskId attemptId operationId := by
  unfold decideComplete awaitedReply
  split <;> simp

theorem decideIntent_ne_awaited {intent : EffectIntent} {after : After} :
    runtime.decideIntent intent after ≠ awaitedReply taskId attemptId operationId := by
  unfold decideIntent awaitedReply
  repeat' split
  all_goals simp

/-- A step that halts at a dispatch found its attempt. -/
theorem awaited_of_halt (halted : runtime.decideStep = awaitedReply taskId attemptId operationId) :
    Awaited runtime taskId attemptId operationId := by
  unfold decideStep at halted
  split at halted
  · cases halted
  · rename_i idle
    split at halted
    · cases halted
    · rename_i task ready
      unfold decideTask at halted
      split at halted
      · rename_i operation owned
        split at halted
        · cases halted
        · cases state : runtime.journal.state operation with
          | prepared =>
            rw [state, decideEffect] at halted
            split at halted
            · cases halted
              exact ⟨idle, not_cancelled_of_nextReady ready, owned, state, ‹_›⟩
            · exact absurd halted decideAdmit_ne_awaited
          | outcomeUnknown =>
            rw [state, decideEffect] at halted
            split at halted <;> cases halted
          | outcomeKnown known =>
            rw [state] at halted
            cases known with
            | failed => cases halted
            | succeeded =>
              rw [decideEffect] at halted
              split at halted
              · cases halted
              · exact absurd halted decideComplete_ne_awaited
          | notPrepared =>
            rw [state] at halted
            cases halted
      · split at halted
        · unfold decidePlain at halted
          split at halted
          · exact absurd halted decideComplete_ne_awaited
          · exact absurd halted decideAdmit_ne_awaited
        · exact absurd halted decideIntent_ne_awaited

end Halts

variable [DurableStore σ]

/-- **A step that waits for a dispatch leaves it next.** -/
theorem awaited_of_step {runtime : Runtime σ ν} {taskId : Id} {attemptId : AttemptId}
    {operationId : OperationId}
    (stepped : (Command.step.perform runtime).1 =
      .ok (.stepped (.effectPending taskId attemptId operationId))) :
    Awaited (Command.step.perform runtime).2 taskId attemptId operationId := by
  have derivation := perform_performs .step runtime
  generalize (Command.step.perform runtime).1 = result at derivation stepped
  generalize (Command.step.perform runtime).2 = reached at derivation ⊢
  generalize command_eq : Command.step = command at derivation
  induction derivation with
  | halt decided =>
    subst command_eq stepped
    exact awaited_of_halt decided
  | failed => cases stepped
  | replied chosen acted =>
    subst command_eq
    cases stepped
    cases chosen with
    | stepAdmit idle ready prepared missing pinned owned =>
      obtain ⟨store, revision, sequencer, events, rfl⟩ := act_admit_ok acted
      exact ⟨idle, not_cancelled_of_nextReady ready, owned, prepared,
        attemptForTask_push missing (belongsTo_nextAttempt _ _ _ _) rfl rfl⟩
  | again _ _ _ ih => exact ih stepped
  | undispatched => cases stepped
  | misdispatched => cases stepped
  | dispatched => cases stepped

/-- The dispatch of an awaited task can only answer its attempt. -/
theorem Awaited.answers {runtime : Runtime σ ν} {taskId : Id} {attemptId answer : AttemptId}
    {operationId : OperationId} (awaited : Awaited runtime taskId attemptId operationId)
    {intent : EffectIntent} (found : runtime.journal.intent operationId = .ok intent)
    (own : intent.taskId = taskId)
    (answered : (dispatchEffect operationId runtime).1 = .ok answer) : answer = attemptId := by
  subst own
  rw [dispatchEffect_eq found awaited.live, awaited.prepared] at answered
  simp only [run_bind, attemptToDispatch, run_get, awaited.waiting, attemptOrBegin, run_pure]
    at answered
  exact recordDispatch_value answered

end Runtime

namespace RuntimeDriver

variable {σ ν : Type}

/-- While nothing is parked, the two views of the attempts agree. -/
theorem newestAttempt_eq {runtime : Runtime σ ν} (idle : runtime.pendingStarted = none) (taskId : Id)
    (operationId : OperationId) :
    newestAttempt runtime taskId operationId = runtime.pendingAttempt taskId operationId := by
  unfold newestAttempt Runtime.pendingAttempt Runtime.attemptForTask
  rw [idle]
  rfl

variable [DurableStore σ]

/-- **The lineage checks find what they expect**: with the attempt of a step, a dispatch does what it
does without. -/
theorem dispatch_expected {driver : RuntimeDriver σ ν} {taskId : Id} {attemptId : AttemptId}
    {operationId : OperationId} (awaited : driver.runtime.Awaited taskId attemptId operationId)
    (empty : driver.pendingLifecycle = none)
    (own : ∀ intent, driver.runtime.journal.intent operationId = .ok intent →
      intent.taskId = taskId) :
    dispatchEffectNow operationId (some attemptId) driver =
      dispatchEffectNow operationId none driver := by
  have retried : orRuntimeError retryPendingLifecycle driver = (.ok (), driver) := by
    simp only [orRuntimeError, retryPendingLifecycle, empty]
  unfold dispatchEffectNow
  rw [run_bind, run_bind, retried]
  simp only [run_bind, run_get]
  cases found : driver.runtime.journal.intent operationId with
  | error error => rfl
  | ok intent =>
    have same := own intent found
    have newest : newestAttempt driver.runtime intent.taskId operationId = some attemptId := by
      rw [newestAttempt_eq awaited.idle, same]
      exact awaited.waiting
    have read : orRuntimeError (lift ((Except.ok intent : Except JournalError EffectIntent).mapError
        RuntimeError.journal)) driver = (.ok intent, driver) := rfl
    have agrees {reached : RuntimeDriver σ ν} :
        checkLineage operationId (some attemptId) (some attemptId) reached = (.ok (), reached) := by
      rw [checkLineage, if_pos rfl]
      rfl
    have unchecked {actual : Option AttemptId} {reached : RuntimeDriver σ ν} :
        checkLineage operationId none actual reached = (.ok (), reached) := rfl
    simp only [read, newest, agrees, unchecked]
    rcases called : call (.command (.dispatchEffect operationId)) (Runtime.dispatchEffect operationId)
      driver with ⟨error | answer, reached⟩
    · simp only [orRuntimeError, called, runtimeError]
    · have answered : (Runtime.dispatchEffect operationId driver.runtime).1 = .ok answer :=
        congrArg Prod.fst called
      cases awaited.answers found same answered
      simp only [orRuntimeError, called, agrees]

end RuntimeDriver

/-! ### The durable facts -/

/-- The dispatch record of a request. -/
def EffectDispatchRequest.record (request : EffectDispatchRequest) : DispatchRecord :=
  ⟨request.operationId, request.attemptId⟩

/-- The intent of a request. -/
def EffectDispatchRequest.intent (request : EffectDispatchRequest) : EffectIntent :=
  ⟨request.taskId, request.operationId, request.semantics⟩

/-- **A request is durable** in a store: the run has its dispatch and its intent. -/
def EffectDispatchRequest.Durable {σ : Type} [DurableStore σ] (request : EffectDispatchRequest)
    (store : σ) : Prop :=
  ∃ state, DurableStore.loadRun request.runId store = .ok state ∧
    state.dispatches[request.attemptId]? = some request.record ∧
    state.intents[request.operationId]? = some request.intent

/-- Whether an error is one of the runtime or of the mailbox. -/
def DriverError.lawful : DriverError → Bool
  | .attemptLineageMismatch _ _ _ => false
  | _ => true

namespace Runtime

variable {σ ν : Type} [Postcard] [FaithfulStore σ]

/-- **The durable facts of a driven run**: the dispatches are the earlier ones and the requests that
were handed over, in order, and every request is of a durable intent. -/
structure Handed (earlier : List DispatchRecord) (handed : List EffectDispatchRequest)
    (outcomes : List OutcomeRecord) (runtime : Runtime σ ν) (state : DurableRunState) : Prop where
  synced : Synced runtime state
  single : state.Single
  dispatched : state.dispatchHistory = earlier ++ handed.map EffectDispatchRequest.record
  concluded : state.outcomeHistory = outcomes
  prepared : ∀ request ∈ handed, request.runId = state.runId ∧
    state.intents[request.operationId]? = some request.intent

/-- These facts hold of some durable state, which is then the run's. -/
def Hands (earlier : List DispatchRecord) (handed : List EffectDispatchRequest)
    (outcomes : List OutcomeRecord) (runtime : Runtime σ ν) : Prop :=
  ∃ state, Handed earlier handed outcomes runtime state

section Facts

variable {earlier : List DispatchRecord} {handed : List EffectDispatchRequest}
  {outcomes : List OutcomeRecord} {runtime reached : Runtime σ ν} {state next : DurableRunState}

theorem Handed.moves (before : Handed earlier handed outcomes runtime state)
    (after : Synced reached next) (more : List EffectDispatchRequest) {later : List OutcomeRecord}
    (moves : DurableRunState.Moves state next (more.map EffectDispatchRequest.record) later)
    (prepared : ∀ request ∈ more, request.runId = state.runId ∧
      state.intents[request.operationId]? = some request.intent) :
    Handed earlier (handed ++ more) (outcomes ++ later) reached next := by
  refine ⟨after, moves.single before.single, ?_, ?_, fun request member => ?_⟩
  · rw [moves.dispatched, before.dispatched, List.map_append, List.append_assoc]
  · rw [moves.concluded, before.concluded]
  · have known : request.runId = state.runId ∧
        state.intents[request.operationId]? = some request.intent := by
      rcases List.mem_append.mp member with old | new
      · exact before.prepared request old
      · exact prepared request new
    exact ⟨known.1.trans moves.more.runId.symm, moves.more.intents known.2⟩

theorem Hands.quiet (before : Hands earlier handed outcomes runtime) (quiet : Quiet runtime reached) :
    Hands earlier handed outcomes reached := by
  obtain ⟨state, facts⟩ := before
  exact ⟨state, { facts with synced := quiet.synced facts.synced }⟩

/-- A command that dispatches nothing and concludes nothing. -/
theorem Hands.command (before : Hands earlier handed outcomes runtime) (command : Command)
    (undispatched : sentBy command (command.perform runtime).1 = [])
    (unconcluded : ∀ outcomes, ConcludedBy command outcomes → outcomes = []) :
    Hands earlier handed outcomes (command.perform runtime).2 := by
  obtain ⟨state, facts⟩ := before
  obtain ⟨next, later, after, moves, concluded⟩ := perform_moves command facts.synced
  cases unconcluded later concluded
  rw [undispatched] at moves
  have same := facts.moves after [] moves (fun _ member => by cases member)
  rw [List.append_nil, List.append_nil] at same
  exact ⟨next, same⟩

omit [Postcard] [FaithfulStore σ] in
theorem unconcluded {command : Command} {outcomes : List OutcomeRecord}
    (other : ∀ operationId attemptId outcome,
      command ≠ .recordEffectOutcome operationId attemptId outcome)
    (concluded : ConcludedBy command outcomes) : outcomes = [] := by
  rcases concluded with none | ⟨operationId, attemptId, outcome, same, _⟩
  · exact none
  · exact absurd same (other operationId attemptId outcome)

/-- A dispatch that succeeds hands over one more request. -/
theorem Hands.dispatch (before : Hands earlier handed outcomes runtime) {operationId : OperationId}
    {attemptId : AttemptId} {intent : EffectIntent}
    (found : runtime.journal.intent operationId = .ok intent)
    (answered : (dispatchEffect operationId runtime).1 = .ok attemptId) :
    Hands earlier (handed ++ [⟨(dispatchEffect operationId runtime).2.runId, intent.taskId,
      operationId, attemptId, intent.semantics⟩]) outcomes (dispatchEffect operationId runtime).2 := by
  obtain ⟨state, facts⟩ := before
  obtain ⟨next, later, after, moves, concluded⟩ :=
    perform_moves (.dispatchEffect operationId) facts.synced
  rw [Command.perform, run_map] at after moves
  rw [answered] at moves
  have stored := facts.synced.coherent.intent found
  have own : intent.operationId = operationId :=
    facts.synced.coherent.owned.lineage.intentKey operationId intent stored
  rcases concluded with rfl | ⟨_, _, _, same, _⟩
  · refine ⟨next, ?_⟩
    have more := facts.moves after [⟨(dispatchEffect operationId runtime).2.runId, intent.taskId,
      operationId, attemptId, intent.semantics⟩] moves fun request member => ?_
    · rw [List.append_nil] at more
      exact more
    · cases List.mem_singleton.mp member
      refine ⟨?_, ?_⟩
      · show (dispatchEffect operationId runtime).2.runId = state.runId
        rw [← after.coherent.runId, moves.more.runId]
      · rw [stored, ← own]
        rfl
  · cases same

/-- The recording of an outcome adds at most that outcome. -/
theorem Hands.outcome (before : Hands earlier handed outcomes runtime) (operationId : OperationId)
    (attemptId : AttemptId) (outcome : KnownEffectOutcome) :
    ∃ later, Hands earlier handed (outcomes ++ later)
        (recordEffectOutcome operationId attemptId outcome runtime).2 ∧
      (later = [] ∨ later = [⟨operationId, attemptId, outcome⟩]) := by
  obtain ⟨state, facts⟩ := before
  obtain ⟨next, later, after, moves, concluded⟩ :=
    perform_moves (.recordEffectOutcome operationId attemptId outcome) facts.synced
  have same := facts.moves after [] moves (fun _ member => by cases member)
  rw [List.append_nil] at same
  refine ⟨later, ⟨next, same⟩, ?_⟩
  rcases concluded with none | ⟨_, _, _, same, added⟩
  · exact .inl none
  · cases same
    exact .inr added

end Facts

end Runtime

/-! ### The functions of the driver -/

namespace RuntimeDriver

variable {σ ν α : Type} [Postcard] [FaithfulStore σ]

/-- The facts of a driver are those of its runtime. -/
def Hands (earlier : List DispatchRecord) (handed : List EffectDispatchRequest)
    (outcomes : List OutcomeRecord) (driver : RuntimeDriver σ ν) : Prop :=
  driver.runtime.Hands earlier handed outcomes

/-- A failure that names no lineage. -/
def Fails (earlier : List DispatchRecord) (handed : List EffectDispatchRequest)
    (outcomes : List OutcomeRecord) (error : DriverError) (driver : RuntimeDriver σ ν) : Prop :=
  error.lawful = true ∧ Hands earlier handed outcomes driver

/-- The requests that a wakeup hands over. -/
def Drive.handed : Drive → List EffectDispatchRequest
  | .done _ => []
  | .handOver request => [request]

section Functions

variable {earlier : List DispatchRecord} {handed : List EffectDispatchRequest}
  {outcomes : List OutcomeRecord} {driver : RuntimeDriver σ ν}

theorem Hands.keep (hands : Hands earlier handed outcomes driver) (error : RuntimeError) :
    Hands earlier handed outcomes (driver.keep error) := by
  unfold Hands
  rw [keep_runtime]
  exact hands

/-- Whatever a method answers. -/
theorem hands_method {operation : Operation ν} {method : Op σ ν α}
    (kept : ∀ runtime : Runtime σ ν, runtime.Hands earlier handed outcomes →
      (method runtime).2.Hands earlier handed outcomes) :
    Triple (Hands earlier handed outcomes) (call operation method)
      (fun _ => Hands earlier handed outcomes) (fun _ => Hands earlier handed outcomes) := by
  intro driver hands
  have after := kept driver.runtime hands
  rw [call]
  cases (method driver.runtime).1 with
  | error error => exact after
  | ok value => exact after

/-- A method whose command dispatches nothing and concludes nothing. -/
theorem hands_call {command : Command} {method : Op σ ν α} {wrap : α → Reply}
    (same : command.perform = method.map wrap)
    (undispatched : ∀ result, Runtime.sentBy command result = [])
    (other : ∀ operationId attemptId outcome,
      command ≠ .recordEffectOutcome operationId attemptId outcome) :
    Triple (Hands earlier handed outcomes) (call (.command command) method)
      (fun _ => Hands earlier handed outcomes) (fun _ => Hands earlier handed outcomes) := by
  refine hands_method fun runtime hands => ?_
  have after := hands.command command (undispatched _) fun _ => Runtime.unconcluded other
  rw [same] at after
  exact after

theorem hands_retry :
    Triple (Hands earlier handed outcomes)
      (retryPendingLifecycle : Fallible (RuntimeDriver σ ν) RuntimeError Unit)
      (fun _ driver => Hands earlier handed outcomes driver ∧ driver.pendingLifecycle = none)
      (fun _ => Hands earlier handed outcomes) := by
  intro driver hands
  cases pending : driver.pendingLifecycle with
  | none =>
    simp only [retryPendingLifecycle, pending]
    exact ⟨hands, pending⟩
  | some item =>
    have retried := Runtime.Hands.quiet hands (Runtime.quiet_retry item driver.runtime)
    simp only [retryPendingLifecycle, pending, call]
    rcases answered : Runtime.retryExecutionEvent item driver.runtime with ⟨error | _, reached⟩ <;>
      rw [answered] at retried
    · cases error <;> exact retried
    · exact ⟨retried, rfl⟩

/-- An error of the runtime names no lineage. -/
theorem fails_of {before : RuntimeDriver σ ν → Prop} {after : α → RuntimeDriver σ ν → Prop}
    {first : Fallible (RuntimeDriver σ ν) RuntimeError α}
    (triple : Triple before first after fun _ => Hands earlier handed outcomes) :
    Triple before (orRuntimeError first) after (Fails earlier handed outcomes) :=
  triple_orRuntimeError (triple.weaken (fun _ holds => holds) (fun _ _ holds => holds)
    fun error _ hands => ⟨rfl, Hands.keep hands error⟩)

/-- The dispatch of an operation whose intent is known. -/
theorem hands_dispatchEffect {operationId : OperationId} {intent : EffectIntent} :
    Triple (fun driver : RuntimeDriver σ ν =>
        driver.runtime.journal.intent operationId = .ok intent ∧ Hands earlier handed outcomes driver)
      (call (.command (.dispatchEffect operationId)) (Runtime.dispatchEffect operationId))
      (fun attemptId driver => Hands earlier (handed ++ [⟨driver.runtime.runId, intent.taskId,
        operationId, attemptId, intent.semantics⟩]) outcomes driver)
      (fun _ => Hands earlier handed outcomes) := by
  rintro driver ⟨found, hands⟩
  rw [call]
  cases answered : (Runtime.dispatchEffect operationId driver.runtime).1 with
  | ok attemptId => exact Runtime.Hands.dispatch hands found answered
  | error error =>
    have after := Runtime.Hands.command hands (.dispatchEffect operationId) ?_ ?_
    · exact after
    · rw [Command.perform, run_map, answered]
      exact Runtime.sentBy_error _ _
    · exact fun later => Runtime.unconcluded fun _ _ _ same => by cases same

/-- A dispatch without an expected attempt hands over one request. -/
theorem hands_dispatchEffectNow (operationId : OperationId) :
    Triple (Hands earlier handed outcomes)
      (dispatchEffectNow operationId none : DriverOp σ ν EffectDispatchRequest)
      (fun request => Hands earlier (handed ++ [request]) outcomes)
      (Fails earlier handed outcomes) := by
  have unchecked {before : RuntimeDriver σ ν → Prop} {actual : Option AttemptId} :
      Triple before (checkLineage operationId none actual) (fun _ => before)
        (Fails earlier handed outcomes) := triple_pure fun _ holds => holds
  unfold dispatchEffectNow
  refine (fails_of hands_retry).bind fun _ => ?_
  refine (triple_get (fun value driver => value = driver ∧ Hands earlier handed outcomes driver)
    fun driver holds => ⟨rfl, holds.1⟩).bind fun driver => ?_
  refine Triple.bind (fails_of (triple_lift
    (fun intent read state holds => (⟨?_, holds.2⟩ :
      state.runtime.journal.intent operationId = .ok intent ∧ Hands earlier handed outcomes state))
    fun _ _ _ holds => holds.2)) fun intent => ?_
  · rw [← holds.1]
    exact except_mapError_ok.mp read
  refine unchecked.bind fun _ => ?_
  refine (fails_of hands_dispatchEffect).bind fun attemptId => ?_
  refine unchecked.bind fun _ => ?_
  exact (triple_get (fun value driver => value = driver ∧ _) fun _ hands => ⟨rfl, hands⟩).bind
    fun driver => triple_pure fun state holds => by
      rw [holds.1]
      exact holds.2

/-- The task of an operation is the one that owns it. -/
theorem Hands.own (hands : Hands earlier handed outcomes driver) {taskId : Id}
    {operationId : OperationId}
    (owned : driver.runtime.journal.operationForTask taskId = some operationId)
    (intent : EffectIntent) (found : driver.runtime.journal.intent operationId = .ok intent) :
    intent.taskId = taskId := by
  obtain ⟨state, facts⟩ := hands
  have stored := facts.synced.coherent.intent found
  rw [facts.synced.coherent.journal] at owned
  obtain ⟨other, known, own⟩ :=
    (facts.synced.coherent.owned.lineage.inverse taskId operationId).mp owned
  rw [stored] at known
  cases known
  exact own

omit [Postcard] [FaithfulStore σ] in
theorem pendingLifecycle_call {operation : Operation ν} {method : Op σ ν α}
    {result : Except RuntimeError α} {reached : RuntimeDriver σ ν}
    (called : call operation method driver = (result, reached)) :
    reached.pendingLifecycle = driver.pendingLifecycle := by
  cases called
  rfl

theorem awaited_of_call {reached : RuntimeDriver σ ν} {taskId : Id} {attemptId : AttemptId}
    {operationId : OperationId}
    (called : call (.command .step) Runtime.step driver =
      (.ok (.effectPending taskId attemptId operationId), reached)) :
    reached.runtime.Awaited taskId attemptId operationId := by
  have answered : (Runtime.step driver.runtime).1 =
      .ok (.effectPending taskId attemptId operationId) := congrArg Prod.fst called
  have runtime : reached.runtime = (Command.step.perform driver.runtime).2 :=
    (congrArg (fun ended => ended.2.runtime) called).symm
  rw [runtime]
  refine Runtime.awaited_of_step ?_
  rw [Command.perform, run_map, answered]
  rfl

theorem hands_driveOnce :
    Triple (Hands earlier handed outcomes) (driveOnce : DriverOp σ ν Drive)
      (fun drive => Hands earlier (handed ++ Drive.handed drive) outcomes)
      (Fails earlier handed outcomes) := by
  have nothing {reached : RuntimeDriver σ ν} (hands : Hands earlier handed outcomes reached) :
      Hands earlier (handed ++ []) outcomes reached := by
    rw [List.append_nil]
    exact hands
  have refused (error : RuntimeError) :
      Triple (fun driver : RuntimeDriver σ ν => Hands earlier handed outcomes (driver.keep error))
        ((driveRuntimeError error).map Drive.done)
        (fun drive => Hands earlier (handed ++ Drive.handed drive) outcomes)
        (Fails earlier handed outcomes) :=
    triple_driveRuntimeError (Hands earlier handed outcomes) error (fun _ _ hands => nothing hands)
      fun _ _ hands => ⟨rfl, hands⟩
  intro driver hands
  unfold driveOnce
  have retried := hands_retry driver hands
  rcases tried : retryPendingLifecycle driver with ⟨error | _, middle⟩ <;> rw [tried] at retried
  · exact refused error middle (Hands.keep retried error)
  · obtain ⟨between, empty⟩ := retried
    have stepped := hands_call (show Command.step.perform = Runtime.step.map .stepped from rfl)
      (fun _ => rfl) (fun _ _ _ same => by cases same) middle between
    simp only
    rcases called : call (.command .step) Runtime.step middle with ⟨error | result, reached⟩ <;>
      rw [called] at stepped
    · exact refused error reached (Hands.keep stepped error)
    · cases result with
      | effectPending taskId attemptId operationId =>
        have awaited := awaited_of_call called
        have dispatched : Triple (Hands earlier handed outcomes)
            ((dispatchEffectNow operationId none).map Drive.handOver : DriverOp σ ν Drive)
            (fun drive => Hands earlier (handed ++ Drive.handed drive) outcomes)
            (Fails earlier handed outcomes) :=
          (hands_dispatchEffectNow operationId).map fun _ _ hands => hands
        have same := dispatch_expected awaited ((pendingLifecycle_call called).trans empty)
          (Hands.own stepped awaited.owned)
        simp only [run_map, same]
        exact dispatched reached stepped
      | _ => exact nothing stepped

theorem hands_recover (operationId : OperationId) :
    Triple (Hands earlier handed outcomes)
      (orRuntimeError (call (.command (.recover operationId)) (Runtime.recover operationId)) :
        DriverOp σ ν RecoveryDecision)
      (fun _ => Hands earlier handed outcomes) (Fails earlier handed outcomes) :=
  fails_of (hands_call rfl (fun _ => rfl) fun _ _ _ same => by cases same)

theorem hands_retried :
    Triple (Hands earlier handed outcomes)
      (orRuntimeError retryPendingLifecycle : DriverOp σ ν Unit)
      (fun _ => Hands earlier handed outcomes) (Fails earlier handed outcomes) :=
  (fails_of hands_retry).weaken (fun _ hands => hands) (fun _ _ holds => holds.1)
    fun _ _ fails => fails

theorem hands_recoverNow (operationId : OperationId) :
    Triple (Hands earlier handed outcomes) (recoverNow operationId : DriverOp σ ν RecoveryDecision)
      (fun _ => Hands earlier handed outcomes) (Fails earlier handed outcomes) :=
  hands_retried.bind fun _ => hands_recover operationId

theorem hands_cancelNow (taskId : Id) :
    Triple (Hands earlier handed outcomes) (cancelNow taskId : DriverOp σ ν Cancellation)
      (fun _ => Hands earlier handed outcomes) (Fails earlier handed outcomes) :=
  fails_of (hands_call rfl (fun _ => rfl) fun _ _ _ same => by cases same)

theorem hands_recoverAll (operationIds : List OperationId) :
    Triple (Hands earlier handed outcomes) (recoverAll operationIds : DriverOp σ ν Unit)
      (fun _ => Hands earlier handed outcomes) (Fails earlier handed outcomes) := by
  induction operationIds with
  | nil => exact triple_pure fun _ hands => hands
  | cons operationId rest ih => exact (hands_recover operationId).bind fun _ => ih

theorem hands_shutdownNow :
    Triple (Hands earlier handed outcomes) (shutdownNow : DriverOp σ ν ShutdownStatus)
      (fun _ => Hands earlier handed outcomes) (Fails earlier handed outcomes) := by
  have read {result : Except RuntimeError DurableRunState} :
      Triple (Hands earlier handed outcomes)
        (orRuntimeError (lift result) : DriverOp σ ν DurableRunState)
        (fun _ => Hands earlier handed outcomes) (Fails earlier handed outcomes) :=
    fails_of (triple_lift (fun _ _ _ hands => hands) fun _ _ _ hands => hands)
  have refuse : Triple (Hands earlier handed outcomes) (refusePending : DriverOp σ ν Unit)
      (fun _ => Hands earlier handed outcomes) (Fails earlier handed outcomes) := by
    intro driver hands
    unfold refusePending
    split
    · exact ⟨rfl, Hands.keep hands _⟩
    · exact hands
  unfold shutdownNow
  refine hands_retried.bind fun _ => ?_
  refine (triple_get (fun _ => Hands earlier handed outcomes) fun _ hands => hands).bind fun _ => ?_
  refine read.bind fun state => ?_
  refine (hands_recoverAll _).bind fun _ => ?_
  refine refuse.bind fun _ => ?_
  refine (triple_get (fun _ => Hands earlier handed outcomes) fun _ hands => hands).bind fun _ => ?_
  exact read.bind fun _ => triple_pure fun _ hands => hands

/-- **The answer of the dispatcher adds at most the outcome of its request.** -/
theorem hands_resumeDispatch (request : EffectDispatchRequest)
    (answer : Except EffectDispatchError KnownEffectOutcome)
    (hands : Hands earlier handed outcomes driver) :
    ∃ later, Hands earlier handed (outcomes ++ later) (resumeDispatch request answer driver).2 ∧
      (later = [] ∨ ∃ outcome, answer = .ok outcome ∧
        later = [⟨request.operationId, request.attemptId, outcome⟩]) ∧
      ∀ error, (resumeDispatch request answer driver).1 = .error error → error.lawful = true := by
  cases answer with
  | error error =>
    refine ⟨[], ?_, .inl rfl, fun _ failed => by cases failed⟩
    rw [List.append_nil]
    exact hands
  | ok outcome =>
    obtain ⟨later, after, added⟩ :=
      Runtime.Hands.outcome hands request.operationId request.attemptId outcome
    have recorded : Fallible.Ends (fun _ => Hands earlier handed (outcomes ++ later))
        (Fails earlier handed (outcomes ++ later))
        (resumeDispatch request (.ok outcome) driver) := by
      simp only [resumeDispatch, run_bind, orRuntimeError, call]
      rcases answered : Runtime.recordEffectOutcome request.operationId request.attemptId outcome
        driver.runtime with ⟨error | _, reached⟩ <;> rw [answered] at after
      · exact ⟨rfl, Hands.keep (show Hands earlier handed (outcomes ++ later) ⟨reached, _, _⟩ from after)
          error⟩
      · exact after
    rcases resumed : resumeDispatch request (.ok outcome) driver with ⟨error | result, reached⟩ <;>
      rw [resumed] at recorded
    · exact ⟨later, recorded.2, added.imp_right fun same => ⟨outcome, rfl, same⟩,
        fun _ same => (by cases same; exact recorded.1)⟩
    · exact ⟨later, recorded, added.imp_right fun same => ⟨outcome, rfl, same⟩,
        fun _ same => (by cases same)⟩

omit [Postcard] [FaithfulStore σ] in
theorem quiet_drainExecution (driver : RuntimeDriver σ ν) :
    Runtime.Quiet driver.runtime driver.drainExecution.2.runtime :=
  ⟨rfl, rfl, rfl, rfl, rfl, rfl, rfl, rfl, rfl, rfl, rfl⟩

omit [Postcard] [FaithfulStore σ] in
theorem quiet_drainProgress (driver : RuntimeDriver σ ν) :
    Runtime.Quiet driver.runtime driver.drainProgress.2.runtime :=
  ⟨rfl, rfl, rfl, rfl, rfl, rfl, rfl, rfl, rfl, rfl, rfl⟩

omit [Postcard] [FaithfulStore σ] in
theorem quiet_drainTelemetry (driver : RuntimeDriver σ ν) :
    Runtime.Quiet driver.runtime driver.drainTelemetry.2.runtime :=
  ⟨rfl, rfl, rfl, rfl, rfl, rfl, rfl, rfl, rfl, rfl, rfl⟩

/-- The durable facts after one command. -/
def Leaves (earlier : List DispatchRecord) (handed : List EffectDispatchRequest)
    (outcomes : List OutcomeRecord) : Progress × RuntimeDriver σ ν → Prop
  | (.reply result, reached) => Hands earlier handed outcomes reached ∧
      ∀ error, result = .error error → error.lawful = true
  | (.await request, reached) => Hands earlier (handed ++ [request]) outcomes reached
  | (.exit _, reached) => Hands earlier handed outcomes reached

theorem leaves_answer {first : DriverOp σ ν α} {wrap : α → DriverReply}
    (triple : Triple (Hands earlier handed outcomes) first (fun _ => Hands earlier handed outcomes)
      (Fails earlier handed outcomes)) (hands : Hands earlier handed outcomes driver) :
    Leaves earlier handed outcomes (answer first wrap driver) := by
  have ended := triple driver hands
  unfold answer
  rcases run : first driver with ⟨error | value, reached⟩ <;> rw [run] at ended
  · exact ⟨ended.2, fun _ same => (by cases same; exact ended.1)⟩
  · exact ⟨ended, fun _ same => (by cases same)⟩

/-- A failed command. -/
theorem leaves_error {error : DriverError} (fails : Fails earlier handed outcomes error driver) :
    Leaves earlier handed outcomes (.reply (.error error), driver) :=
  ⟨fails.2, fun _ same => by cases same; exact fails.1⟩

/-- A drain changes no durable fact. -/
theorem leaves_drain {reached : RuntimeDriver σ ν} {reply : DriverReply}
    (quiet : Runtime.Quiet driver.runtime reached.runtime)
    (hands : Hands earlier handed outcomes driver) :
    Leaves earlier handed outcomes (.reply (.ok reply), reached) :=
  ⟨Runtime.Hands.quiet hands quiet, fun _ same => by cases same⟩

/-- **One command hands over at most one request**, whose dispatch is durable by then. -/
theorem leaves_process (hands : Hands earlier handed outcomes driver) (request : DriverRequest) :
    Leaves earlier handed outcomes (driver.process request) := by
  cases request with
  | wake =>
    have drove := hands_driveOnce driver hands
    rw [process]
    rcases driven : driveOnce driver with ⟨error | drive, reached⟩ <;> rw [driven] at drove
    · exact leaves_error drove
    · cases drive with
      | done result =>
        have drove : Hands earlier (handed ++ []) outcomes reached := drove
        rw [List.append_nil] at drove
        exact ⟨drove, fun _ same => by cases same⟩
      | handOver request => exact drove
  | dispatchEffect operationId =>
    have dispatched := hands_dispatchEffectNow operationId driver hands
    rw [process, handOver]
    rcases ended : dispatchEffectNow operationId none driver with ⟨error | request, reached⟩ <;>
      rw [ended] at dispatched
    · exact leaves_error dispatched
    · exact dispatched
  | recover operationId => exact leaves_answer (hands_recoverNow operationId) hands
  | cancelTask taskId => exact leaves_answer (hands_cancelNow taskId) hands
  | drainExecutionEvents => exact leaves_drain (quiet_drainExecution driver) hands
  | drainProgressEvents => exact leaves_drain (quiet_drainProgress driver) hands
  | drainTelemetryEvents => exact leaves_drain (quiet_drainTelemetry driver) hands
  | shutdown =>
    have shut := hands_shutdownNow driver hands
    rw [process]
    rcases ended : shutdownNow driver with ⟨error | status, reached⟩ <;> rw [ended] at shut
    · exact leaves_error shut
    · exact shut

end Functions

end RuntimeDriver

/-! ### The system -/

/-- After the close a command fails only because of the close. -/
theorem MailboxState.completeAfterClose_lawful (mailbox : MailboxState) (request : DriverRequest)
    (error : DriverError) (failed : (mailbox.completeAfterClose request).1 = .error error) :
    error.lawful = true := by
  unfold completeAfterClose at failed
  have final {α : Type} {wrap : List α → DriverReply} {events : Option (List α)}
      (failed : finalEvents wrap events = .error error) : error.lawful = true := by
    cases events with
    | none =>
      cases failed
      rfl
    | some events => cases failed
  split at failed
  · cases failed
    rfl
  · cases request with
    | drainExecutionEvents | drainProgressEvents | drainTelemetryEvents => exact final failed
    | _ =>
      cases failed
      rfl

namespace DriverSystem

variable {σ ν : Type}

/-- Completing a reply changes the responses only. -/
theorem complete_eq (system : DriverSystem σ ν) (reply : Nat) (result : DriverResult) :
    ∃ responses, system.complete reply result = { system with responses := responses } ∧
      ∀ response ∈ responses, response ∈ system.responses ∨ response = (reply, result) := by
  unfold complete
  split
  · exact ⟨system.responses, rfl, fun _ member => .inl member⟩
  · refine ⟨_, rfl, fun response member => ?_⟩
    rcases List.mem_append.mp member with old | new
    · exact .inl old
    · exact .inr (List.mem_singleton.mp new)

variable [Postcard] [FaithfulStore σ]

/-- **The durable facts of the system**: the request that is awaited is the last one handed over, and
no reply names a lineage. -/
structure Disciplined (earlier : List DispatchRecord) (outcomes : List OutcomeRecord)
    (system : DriverSystem σ ν) : Prop where
  hands : RuntimeDriver.Hands earlier system.handed outcomes system.driver
  last : ∀ reply request, system.activity = .awaiting reply request →
    system.handed.getLast? = some request
  lawful : ∀ response ∈ system.responses, ∀ error, response.2 = .error error → error.lawful = true

omit [Postcard] [FaithfulStore σ] in
/-- **The outcomes that an event may add**: the one that the dispatcher answers for the awaited
request. -/
def Concludes (system : DriverSystem σ ν) (event : DriverEvent) (later : List OutcomeRecord) : Prop :=
  later = [] ∨ ∃ reply request outcome, system.activity = .awaiting reply request ∧
    event = .resolve (.ok outcome) ∧ later = [⟨request.operationId, request.attemptId, outcome⟩]

section Steps

variable {earlier : List DispatchRecord} {outcomes : List OutcomeRecord}
  {system : DriverSystem σ ν}

theorem Disciplined.complete (disciplined : Disciplined earlier outcomes system) (reply : Nat)
    {result : DriverResult} (lawful : ∀ error, result = .error error → error.lawful = true) :
    Disciplined earlier outcomes (system.complete reply result) := by
  obtain ⟨responses, completed, members⟩ := system.complete_eq reply result
  rw [completed]
  refine ⟨disciplined.hands, disciplined.last, fun response member => ?_⟩
  rcases members response member with old | rfl
  · exact disciplined.lawful response old
  · exact lawful

theorem Disciplined.completeAfterClose (disciplined : Disciplined earlier outcomes system)
    (command : DriverCommand) : Disciplined earlier outcomes (system.completeAfterClose command) := by
  refine Disciplined.complete ?_ _
    (system.mailbox.completeAfterClose_lawful command.request)
  exact ⟨disciplined.hands, disciplined.last, disciplined.lawful⟩

theorem Disciplined.submit (disciplined : Disciplined earlier outcomes system)
    (request : DriverRequest) : Disciplined earlier outcomes (system.submit request) := by
  unfold DriverSystem.submit
  split
  · exact ⟨disciplined.hands, disciplined.last, disciplined.lawful⟩
  · refine Disciplined.completeAfterClose ?_ _
    exact ⟨disciplined.hands, disciplined.last, disciplined.lawful⟩

theorem Disciplined.drop (disciplined : Disciplined earlier outcomes system) (replies : List Nat) :
    Disciplined earlier outcomes (system.drop replies) := by
  unfold DriverSystem.drop
  have dropped : Disciplined earlier outcomes
      { system with mailbox := system.mailbox.dropOwner.2, activity := .dropped } :=
    ⟨disciplined.hands, fun _ _ same => (by cases same), disciplined.lawful⟩
  generalize replies ++ system.mailbox.dropOwner.1.map DriverCommand.reply = lost
  generalize ({ system with mailbox := system.mailbox.dropOwner.2, activity := .dropped } :
    DriverSystem σ ν) = after at dropped ⊢
  induction lost generalizing after with
  | nil => exact dropped
  | cons reply rest ih =>
    exact ih _ (dropped.complete reply fun _ same => by cases same; rfl)

theorem Disciplined.exit (disciplined : Disciplined earlier outcomes system) (reply : Nat)
    (status : ShutdownStatus) : Disciplined earlier outcomes (system.exit reply status) := by
  have first := Runtime.Hands.quiet disciplined.hands
    (RuntimeDriver.quiet_drainExecution system.driver)
  have second := Runtime.Hands.quiet first (RuntimeDriver.quiet_drainProgress _)
  have third := Runtime.Hands.quiet second (RuntimeDriver.quiet_drainTelemetry _)
  have drained : Disciplined earlier outcomes { system with
      driver := system.driver.drainExecution.2.drainProgress.2.drainTelemetry.2 } :=
    ⟨third, disciplined.last, disciplined.lawful⟩
  have lawful (error : DriverError) (failed : (.ok (.shutDown status) : DriverResult) = .error error) :
      error.lawful = true := by cases failed
  have completed := drained.complete reply lawful
  exact ⟨completed.hands, fun _ _ same => (by cases same), completed.lawful⟩

/-- A command that was taken from the mailbox. -/
theorem Disciplined.process (disciplined : Disciplined earlier outcomes system)
    (command : DriverCommand) :
    Disciplined earlier outcomes (system.process command) := by
  have leaves := RuntimeDriver.leaves_process disciplined.hands command.request
  unfold DriverSystem.process
  rcases processed : system.driver.process command.request with ⟨result | request | status, driver⟩ <;>
    rw [processed] at leaves
  · refine Disciplined.complete ?_ _ leaves.2
    exact ⟨leaves.1, disciplined.last, disciplined.lawful⟩
  · refine ⟨leaves, fun reply other same => ?_, disciplined.lawful⟩
    cases same
    exact List.getLast?_concat
  · refine Disciplined.exit ?_ _ _
    exact ⟨leaves, disciplined.last, disciplined.lawful⟩

theorem Disciplined.poll (disciplined : Disciplined earlier outcomes system) :
    Disciplined earlier outcomes system.poll := by
  unfold DriverSystem.poll
  split
  · refine Disciplined.process ?_ _
    exact ⟨disciplined.hands, disciplined.last, disciplined.lawful⟩
  · split
    · exact disciplined
    · exact ⟨disciplined.hands, disciplined.last, disciplined.lawful⟩

/-- **Every event keeps the durable facts**, and only the answer of the dispatcher adds an outcome. -/
theorem Disciplined.step (disciplined : Disciplined earlier outcomes system) (event : DriverEvent) :
    ∃ later, Disciplined earlier (outcomes ++ later) (system.step event) ∧
      Concludes system event later := by
  have same {next : DriverSystem σ ν} (kept : Disciplined earlier outcomes next) :
      ∃ later, Disciplined earlier (outcomes ++ later) next ∧ Concludes system event later := by
    refine ⟨[], ?_, .inl rfl⟩
    rw [List.append_nil]
    exact kept
  cases event with
  | submit request => exact same (disciplined.submit request)
  | poll =>
    cases activity : system.activity with
    | idle =>
      simp only [DriverSystem.step, activity] at same ⊢
      exact same disciplined.poll
    | _ =>
      simp only [DriverSystem.step, activity] at same ⊢
      exact same disciplined
  | resolve answer =>
    cases activity : system.activity with
    | awaiting reply request =>
      obtain ⟨later, after, added, lawful⟩ :=
        RuntimeDriver.hands_resumeDispatch request answer disciplined.hands
      simp only [DriverSystem.step, activity]
      refine ⟨later, ?_, ?_⟩
      · refine Disciplined.complete ?_ reply fun error failed => ?_
        · exact ⟨after, fun _ _ same => (by cases same), disciplined.lawful⟩
        · refine lawful error ?_
          cases resumed : (RuntimeDriver.resumeDispatch request answer system.driver).1 with
          | error other =>
            rw [resumed] at failed
            cases failed
            rfl
          | ok result =>
            rw [resumed] at failed
            cases failed
      · rcases added with none | ⟨outcome, rfl, recorded⟩
        · exact .inl none
        · exact .inr ⟨reply, request, outcome, activity, rfl, recorded⟩
    | _ =>
      simp only [DriverSystem.step, activity] at same ⊢
      exact same disciplined
  | reject =>
    cases activity : system.activity with
    | closing status commands =>
      cases commands with
      | nil =>
        simp only [DriverSystem.step, activity] at same ⊢
        exact same disciplined
      | cons command rest =>
        simp only [DriverSystem.step, activity] at same ⊢
        refine same (Disciplined.completeAfterClose ?_ command)
        exact ⟨disciplined.hands, fun _ _ same => (by cases same), disciplined.lawful⟩
    | _ =>
      simp only [DriverSystem.step, activity] at same ⊢
      exact same disciplined
  | drop =>
    cases activity : system.activity with
    | idle =>
      simp only [DriverSystem.step, activity] at same ⊢
      exact same (disciplined.drop [])
    | awaiting reply request =>
      simp only [DriverSystem.step, activity] at same ⊢
      exact same (disciplined.drop [reply])
    | _ =>
      simp only [DriverSystem.step, activity] at same ⊢
      exact same disciplined

theorem disciplined_run (disciplined : Disciplined earlier outcomes system)
    (events : List DriverEvent) :
    ∃ outcomes, Disciplined earlier outcomes (system.run events) := by
  induction events generalizing outcomes system with
  | nil => exact ⟨outcomes, disciplined⟩
  | cons event rest ih =>
    obtain ⟨later, after, _⟩ := disciplined.step event
    exact ih after

end Steps

/-! ### When a request is handed over -/

section Moments

omit [Postcard] [FaithfulStore σ]

theorem complete_handed (system : DriverSystem σ ν) (reply : Nat) (result : DriverResult) :
    (system.complete reply result).handed = system.handed := by
  unfold complete
  split <;> rfl

theorem completeAfterClose_handed (system : DriverSystem σ ν) (command : DriverCommand) :
    (system.completeAfterClose command).handed = system.handed :=
  complete_handed _ _ _

theorem submit_handed (system : DriverSystem σ ν) (request : DriverRequest) :
    (system.submit request).handed = system.handed := by
  unfold submit
  split
  · rfl
  · exact completeAfterClose_handed _ _

theorem drop_handed (system : DriverSystem σ ν) (replies : List Nat) :
    (system.drop replies).handed = system.handed := by
  have folded (lost : List Nat) (after : DriverSystem σ ν) :
      (lost.foldl (fun system reply => system.complete reply (.error .ownerDropped)) after).handed =
        after.handed := by
    induction lost generalizing after with
    | nil => rfl
    | cons reply rest ih => exact (ih _).trans (complete_handed _ _ _)
  exact folded _ _

variable [DurableStore σ]

/-- **A request is handed over by a step that then awaits it.** -/
theorem handed_step (system : DriverSystem σ ν) (event : DriverEvent) :
    (system.step event).handed = system.handed ∨
      ∃ reply request, (system.step event).activity = .awaiting reply request ∧
        (system.step event).handed = system.handed ++ [request] := by
  cases event with
  | submit request => exact .inl (submit_handed _ _)
  | poll =>
    cases activity : system.activity with
    | idle =>
      simp only [step, activity, poll]
      split
      · unfold process
        split
        · exact .inl (complete_handed _ _ _)
        · exact .inr ⟨_, _, rfl, rfl⟩
        · exact .inl (complete_handed _ _ _)
      · split
        · exact .inl rfl
        · exact .inl rfl
    | _ =>
      left
      simp only [step, activity]
  | resolve answer =>
    cases activity : system.activity with
    | awaiting reply request =>
      simp only [step, activity]
      exact .inl (complete_handed _ _ _)
    | _ =>
      left
      simp only [step, activity]
  | reject =>
    cases activity : system.activity with
    | closing status commands =>
      cases commands with
      | nil =>
        left
        simp only [step, activity]
      | cons command rest =>
        simp only [step, activity]
        exact .inl (completeAfterClose_handed _ _)
    | _ =>
      left
      simp only [step, activity]
  | drop =>
    cases activity : system.activity with
    | idle | awaiting reply request =>
      simp only [step, activity]
      exact .inl (drop_handed _ _)
    | _ =>
      left
      simp only [step, activity]

end Moments

/-! ### The discipline -/

section Discipline

variable {earlier : List DispatchRecord} {outcomes : List OutcomeRecord} {system : DriverSystem σ ν}

/-- The last request that was handed over is durable. -/
theorem Disciplined.durable (disciplined : Disciplined earlier outcomes system)
    {before : List EffectDispatchRequest} {request : EffectDispatchRequest}
    (last : system.handed = before ++ [request]) : request.Durable system.driver.runtime.store := by
  obtain ⟨state, facts⟩ := disciplined.hands
  have member : request ∈ system.handed := by
    rw [last]
    exact List.mem_append_right before (List.mem_singleton_self request)
  have recorded : request.record ∈ state.dispatchHistory := by
    rw [facts.dispatched]
    exact List.mem_append_right earlier (List.mem_map_of_mem member)
  obtain ⟨own, intent⟩ := facts.prepared request member
  refine ⟨state, ?_, facts.synced.coherent.owned.lineage.dispatches.lookup recorded, intent⟩
  rw [own, facts.synced.coherent.runId]
  exact facts.synced.loaded

/-- No attempt is handed over twice. -/
theorem Disciplined.distinct (disciplined : Disciplined earlier outcomes system) :
    (system.handed.map EffectDispatchRequest.attemptId).Nodup := by
  obtain ⟨state, facts⟩ := disciplined.hands
  have unique := facts.synced.coherent.owned.lineage.dispatches.unique
  rw [facts.dispatched, List.map_append, List.map_map] at unique
  exact (List.nodup_append.mp unique).2.1

/-- No non-idempotent operation is handed over twice. -/
theorem Disciplined.once (disciplined : Disciplined earlier outcomes system)
    {request : EffectDispatchRequest} (member : request ∈ system.handed)
    (exclusive : request.semantics = .nonIdempotent) :
    (system.handed.filter fun other => other.operationId = request.operationId).length ≤ 1 := by
  obtain ⟨state, facts⟩ := disciplined.hands
  have once := facts.single request.operationId request.intent (facts.prepared request member).2
    exclusive
  rw [DurableRunState.dispatchesOf, facts.dispatched, List.filter_append, List.filter_map,
    List.length_append, List.length_map] at once
  exact Nat.le_trans (Nat.le_add_left _ _) once

/-- The outcomes that an event adds are those of the stored runs before and after it. -/
theorem Disciplined.outcomes_stored (disciplined : Disciplined earlier outcomes system)
    (event : DriverEvent) :
    ∃ state next later,
      DurableStore.loadRun system.driver.runtime.runId system.driver.runtime.store = .ok state ∧
      DurableStore.loadRun (system.step event).driver.runtime.runId
        (system.step event).driver.runtime.store = .ok next ∧
      next.outcomeHistory = state.outcomeHistory ++ later ∧ Concludes system event later := by
  obtain ⟨later, after, concluded⟩ := disciplined.step event
  obtain ⟨state, facts⟩ := disciplined.hands
  obtain ⟨next, following⟩ := after.hands
  refine ⟨state, next, later, facts.synced.loaded, following.synced.loaded, ?_, concluded⟩
  rw [following.concluded, facts.concluded]

end Discipline

/-- **The discipline of the dispatches.** Over a store that the driver owns, for any commands, answers
of the dispatcher and failed commits: a request is handed over when its dispatch is durable; no attempt
is handed over twice, and no non-idempotent operation; an outcome is recorded only when the dispatcher
answers the request that was handed over last; and no reply names an attempt lineage. -/
theorem dispatch_discipline (history : History ν) (runtime : Runtime σ ν)
    (driven : runtime.Driven history) (events : List DriverEvent) :
    let system := (DriverSystem.new runtime).run events
    (∀ event, (system.step event).handed = system.handed ∨
      ∃ request, (system.step event).handed = system.handed ++ [request] ∧
        request.Durable (system.step event).driver.runtime.store) ∧
    (system.handed.map EffectDispatchRequest.attemptId).Nodup ∧
    (∀ request ∈ system.handed, request.semantics = .nonIdempotent →
      (system.handed.filter fun other => other.operationId = request.operationId).length ≤ 1) ∧
    (∀ event, ∃ state next later,
      DurableStore.loadRun system.driver.runtime.runId system.driver.runtime.store = .ok state ∧
      DurableStore.loadRun (system.step event).driver.runtime.runId
        (system.step event).driver.runtime.store = .ok next ∧
      next.outcomeHistory = state.outcomeHistory ++ later ∧ Concludes system event later) ∧
    (∀ reply request, system.activity = .awaiting reply request →
      system.handed.getLast? = some request) ∧
    ∀ reply operationId expected actual,
      (reply, .error (.attemptLineageMismatch operationId expected actual)) ∉ system.responses := by
  intro system
  obtain ⟨state, synced, single⟩ := driven.single
  have start : Disciplined state.dispatchHistory state.outcomeHistory (DriverSystem.new runtime) :=
    ⟨⟨state, synced, single, (List.append_nil _).symm, rfl, fun _ member => (by cases member)⟩,
      fun _ _ same => (by cases same), fun _ member => by cases member⟩
  obtain ⟨outcomes, disciplined⟩ := disciplined_run start events
  refine ⟨fun event => ?_, disciplined.distinct, fun _ => disciplined.once,
    disciplined.outcomes_stored, disciplined.last, fun reply operationId expected actual member => ?_⟩
  · rcases system.handed_step event with same | ⟨_, request, _, handed⟩
    · exact .inl same
    · obtain ⟨_, after, _⟩ := disciplined.step event
      exact .inr ⟨request, handed, after.durable handed⟩
  · have lawful := disciplined.lawful _ member _ rfl
    cases lawful

end DriverSystem

/-- The intent of the sample operation, never safe to repeat. -/
def sampleIntent : Operation Unit :=
  .command (.recordEffectIntent sampleTask sampleOperation .nonIdempotent)

/-- The driver of the sample run, with one wakeup submitted. -/
def sampleWoken [Postcard] (runtime : Runtime InMemoryDurableStore Unit) :
    DriverSystem InMemoryDurableStore Unit :=
  (DriverSystem.new (runtime.performAll [sampleIntent])).run [.submit .wake]

/-- The wakeup hands over the sample operation, whose dispatch is durable then. -/
theorem dispatch_discipline_sample :
    let _ := Persisted.postcard
    ∃ runtime request, sampleStarted = .ok runtime ∧
      ((sampleWoken runtime).step .poll).handed = [request] ∧
      request.Durable ((sampleWoken runtime).step .poll).driver.runtime.store := by
  intro _
  obtain ⟨runtime, started, holds⟩ := exists_ok_of_any
    (show (sampleStarted.toOption.any fun runtime =>
      (sampleWoken runtime).handed = [] ∧
        ((sampleWoken runtime).step .poll).handed.length = 1) = true by decide +kernel)
  obtain ⟨nothing, once⟩ := of_decide_eq_true holds
  have driven := (sampleStarted_driven started).performAll [sampleIntent]
  obtain ⟨moment, _⟩ := DriverSystem.dispatch_discipline _ _ driven [.submit .wake]
  rcases moment .poll with same | ⟨request, handed, durable⟩
  · change ((sampleWoken runtime).step .poll).handed = (sampleWoken runtime).handed at same
    rw [same, nothing] at once
    cases once
  · change ((sampleWoken runtime).step .poll).handed = (sampleWoken runtime).handed ++ [request]
      at handed
    rw [nothing, List.nil_append] at handed
    exact ⟨runtime, request, started, handed, durable⟩

end Kernis
