/-
**The driver protocol, one critical section at a time.**

Handles submit commands, the run future processes them, callers poll the futures of their replies, and
the run future may return or be dropped. Each of them takes a mutex for a moment only, so whatever can
happen between two critical sections is an event of its own here.

* `Section` — what a party does under one lock; `DriverProtocol.enter` — what it changes, and what the
  party does next.
* `RunFuture` — where the run future stands; `DriverProtocol.step` — every event.
* `Replies.outcome` — the first result that was written for a future.
* `Replies.Balanced` — a future without an outcome is owed by exactly one party, and what a future
  returns is its outcome; `Balanced.complete`, `Balanced.dropSender`, `Balanced.receive` and
  `Balanced.join` keep it.
-/

import Kernis.Driver.Mailbox

namespace Kernis

open Std

/-! ### Drains -/

/-- The streams that are drained. -/
inductive DrainKind
  | execution
  | progress
  | telemetry
deriving DecidableEq

/-- The stream that a request drains. -/
def DriverRequest.drains : DriverRequest → Option DrainKind
  | .drainExecutionEvents => some .execution
  | .drainProgressEvents => some .progress
  | .drainTelemetryEvents => some .telemetry
  | _ => none

/-- The events that a shutdown drained. -/
structure ShutdownEvents where
  execution : List (StreamItem RuntimeEvent)
  progress : List (KeyedStreamItem Id RuntimeEvent)
  telemetry : List (StreamItem RuntimeEvent)

/-- The reply with the events of one stream. -/
def ShutdownEvents.reply (events : ShutdownEvents) : DrainKind → DriverReply
  | .execution => .executionEvents events.execution
  | .progress => .progressEvents events.progress
  | .telemetry => .telemetryEvents events.telemetry

/-- A handle's view of the owner. -/
inductive DriverOwnerState
  | running
  | shutdown
  | ownerDropped
deriving DecidableEq

namespace MailboxState

/-- The state of the owner. -/
def ownerState (mailbox : MailboxState) : DriverOwnerState :=
  if mailbox.ownerDropped then .ownerDropped
  else if mailbox.closed then .shutdown
  else .running

/-- The final events that nobody has taken. -/
def kept (mailbox : MailboxState) : ShutdownEvents :=
  ⟨mailbox.shutdownExecutionEvents, mailbox.shutdownProgressEvents,
    mailbox.shutdownTelemetryEvents⟩

/-- A drain takes its final events. -/
def takeShutdown (mailbox : MailboxState) : DrainKind → DriverResult × MailboxState
  | .execution => (finalEvents .executionEvents mailbox.takeShutdownExecutionEvents.1,
      mailbox.takeShutdownExecutionEvents.2)
  | .progress => (finalEvents .progressEvents mailbox.takeShutdownProgressEvents.1,
      mailbox.takeShutdownProgressEvents.2)
  | .telemetry => (finalEvents .telemetryEvents mailbox.takeShutdownTelemetryEvents.1,
      mailbox.takeShutdownTelemetryEvents.2)

end MailboxState

/-! ### Replies -/

/-- The state that a sender and its future share. -/
structure ResponseState where
  result : Option DriverResult
  waker : Bool

/-- The futures, and as history variables what was written for them and what they returned. -/
structure Replies where
  responses : List ResponseState
  writes : List (Nat × DriverResult)
  received : List (Nat × DriverResult)

namespace Replies

/-- The first result that was written for a future. -/
def outcome (replies : Replies) (reply : Nat) : Option DriverResult := replies.writes.lookup reply

/-- Writes a result. -/
def write (replies : Replies) (reply : Nat) (result : DriverResult) : Replies :=
  { replies with
    responses := replies.responses.set reply ⟨some result, false⟩
    writes := replies.writes ++ [(reply, result)] }

/-- A sender completes its reply, unless it has a result. -/
def complete (replies : Replies) (reply : Nat) (result : DriverResult) : Replies :=
  match replies.responses[reply]? with
  | some ⟨none, _⟩ => replies.write reply result
  | _ => replies

/-- A sender is dropped: a future without a result learns that the owner is gone. -/
def dropSender (replies : Replies) (reply : Nat) : Replies :=
  match replies.responses[reply]? with
  | some ⟨none, _⟩ => replies.write reply (.error .ownerDropped)
  | some ⟨some result, _⟩ =>
    { replies with responses := replies.responses.set reply ⟨some result, false⟩ }
  | none => replies

/-- A new future. -/
def join (replies : Replies) : Replies :=
  { replies with responses := replies.responses ++ [⟨none, false⟩] }

/-- A future is polled. One that has returned is not polled again. -/
def receive (replies : Replies) (reply : Nat) : Replies :=
  if reply ∈ replies.received.map Prod.fst then replies
  else
    match replies.responses[reply]? with
    | some ⟨some result, waker⟩ => { replies with
        responses := replies.responses.set reply ⟨none, waker⟩
        received := replies.received ++ [(reply, result)] }
    | some ⟨none, _⟩ =>
      { replies with responses := replies.responses.set reply ⟨none, true⟩ }
    | none => replies

end Replies

/-! ### Parties -/

/-- A critical section that is still to come: of `complete_after_close`, `finish` looks whether the
owner was dropped and `take` takes final events; `complete` completes a reply; `release` and `abandon`
drop a sender, used and unused; `close` and `dropOwner` are those of the end of the run. -/
inductive Section
  | finish (command : DriverCommand)
  | take (kind : DrainKind) (reply : Nat)
  | complete (reply : Nat) (result : DriverResult)
  | release (reply : Nat)
  | abandon (reply : Nat)
  | close (events : ShutdownEvents)
  | dropOwner

/-- Where the run future stands: it waits for a command or for the dispatcher, it is in the middle of
a turn, it returns, or it was dropped. -/
inductive RunFuture
  | suspended
  | dispatching (reply : Nat) (request : EffectDispatchRequest)
  | running (sections : List Section)
  | returning (sections : List Section)
  | dropped (sections : List Section)
  | panicked

/-- The driver, its mailbox and its futures, between two critical sections. `refusals` are the
submissions that a closed mailbox gave back, each completed by its handle. The rest are history
variables: what each future asked for; the accepted and the processed submissions, in order; the final
events, and the drains that took them. -/
structure DriverProtocol (σ ν : Type) where
  driver : RuntimeDriver σ ν
  mailbox : MailboxState
  owner : RunFuture
  refusals : List (List Section)
  replies : Replies
  requests : List DriverRequest
  accepted : List Nat
  processed : List Nat
  final : Option ShutdownEvents
  takers : List (DrainKind × Nat × DriverResult)

/-- What can happen next. -/
inductive ProtocolEvent
  | submit (request : DriverRequest)
  | refuse (index : Nat)
  | poll
  | resolve (answer : Except EffectDispatchError KnownEffectOutcome)
  | work
  | drop
  | receive (reply : Nat)

namespace DriverProtocol

variable {σ ν : Type}

/-- A new driver and its handle. -/
def new (runtime : Runtime σ ν) : DriverProtocol σ ν :=
  ⟨.new runtime, .new, .suspended, [], ⟨[], [], []⟩, [], [], [], none, []⟩

/-- **What a critical section changes**, and what its party does next. -/
def enter (system : DriverProtocol σ ν) : Section → List Section × DriverProtocol σ ν
  | .finish command =>
    if system.mailbox.ownerDropped then
      ([.complete command.reply (.error .ownerDropped)], system)
    else
      match command.request.drains with
      | some kind => ([.take kind command.reply], system)
      | none => ([.complete command.reply (.error .shuttingDown)], system)
  | .take kind reply =>
    ([.complete reply (system.mailbox.takeShutdown kind).1], { system with
      mailbox := (system.mailbox.takeShutdown kind).2
      takers := system.takers ++ [(kind, reply, (system.mailbox.takeShutdown kind).1)] })
  | .complete reply result =>
    ([.release reply], { system with replies := system.replies.complete reply result })
  | .release reply => ([], { system with replies := system.replies.dropSender reply })
  | .abandon reply => ([], { system with replies := system.replies.dropSender reply })
  | .close events =>
    ((system.mailbox.close events.execution events.progress events.telemetry).1.map .finish,
      { system with mailbox :=
        (system.mailbox.close events.execution events.progress events.telemetry).2 })
  | .dropOwner =>
    (system.mailbox.dropOwner.1.map fun command =>
        .complete command.reply (.error .ownerDropped),
      { system with mailbox := system.mailbox.dropOwner.2 })

/-- The run future goes on with its turn; at its end it waits again. -/
def turn : List Section → RunFuture
  | [] => .suspended
  | section_ :: rest => .running (section_ :: rest)

/-- A new future. -/
def join (system : DriverProtocol σ ν) (request : DriverRequest) : DriverProtocol σ ν :=
  { system with
    replies := system.replies.join
    requests := system.requests ++ [request] }

/-- A handle submits a command under a new future. -/
def submit (system : DriverProtocol σ ν) (request : DriverRequest) : DriverProtocol σ ν :=
  match system.mailbox.submit ⟨request, system.requests.length⟩ with
  | some mailbox => { system.join request with
      mailbox := mailbox
      accepted := system.accepted ++ [system.requests.length] }
  | none => { system.join request with
      refusals := system.refusals ++ [[.finish ⟨request, system.requests.length⟩]] }

/-- The end of the run: the streams are drained, the reply is completed, the mailbox is closed, and
what was queued is completed. The owner guard is dropped last. -/
def exit (system : DriverProtocol σ ν) (reply : Nat) (status : ShutdownStatus) :
    DriverProtocol σ ν :=
  let (execution, driver) := system.driver.drainExecution
  let (progress, driver) := driver.drainProgress
  let (telemetry, driver) := driver.drainTelemetry
  { system with
    driver := driver
    final := some ⟨execution, progress, telemetry⟩
    owner := .returning [.complete reply (.ok (.shutDown status)),
      .close ⟨execution, progress, telemetry⟩, .dropOwner] }

variable [DurableStore σ]

/-- Processes a command that was taken from the mailbox. -/
def process (system : DriverProtocol σ ν) (command : DriverCommand) : DriverProtocol σ ν :=
  match system.driver.process command.request with
  | (.reply result, driver) => { system with
      driver := driver
      owner := .running [.complete command.reply result] }
  | (.await request, driver) => { system with
      driver := driver
      owner := .dispatching command.reply request }
  | (.exit status, driver) => { system with driver := driver }.exit command.reply status

/-- The run future is polled while it waits for a command. -/
def poll (system : DriverProtocol σ ν) : DriverProtocol σ ν :=
  match system.mailbox.commands with
  | command :: rest => { system with
      mailbox := { system.mailbox with commands := rest }
      processed := system.processed ++ [command.reply] }.process command
  | [] =>
    if system.mailbox.closed then { system with owner := .panicked }
    else { system with mailbox := { system.mailbox with waker := true } }

/-- **What happens next.** An event that cannot happen changes nothing. -/
def step (system : DriverProtocol σ ν) : ProtocolEvent → DriverProtocol σ ν
  | .submit request => system.submit request
  | .receive reply => { system with replies := system.replies.receive reply }
  | .refuse index =>
    match system.refusals[index]? with
    | some (section_ :: rest) => { (system.enter section_).2 with
        refusals := system.refusals.set index ((system.enter section_).1 ++ rest) }
    | _ => system
  | .poll =>
    match system.owner with
    | .suspended => system.poll
    | _ => system
  | .resolve answer =>
    match system.owner with
    | .dispatching reply request => { system with
        driver := (RuntimeDriver.resumeDispatch request answer system.driver).2
        owner := .running [.complete reply
          ((RuntimeDriver.resumeDispatch request answer system.driver).1.map .drove)] }
    | _ => system
  | .work =>
    match system.owner with
    | .running (section_ :: rest) => { (system.enter section_).2 with
        owner := turn ((system.enter section_).1 ++ rest) }
    | .returning (section_ :: rest) => { (system.enter section_).2 with
        owner := .returning ((system.enter section_).1 ++ rest) }
    | .dropped (section_ :: rest) => { (system.enter section_).2 with
        owner := .dropped ((system.enter section_).1 ++ rest) }
    | _ => system
  | .drop =>
    match system.owner with
    | .suspended => { system with owner := .dropped [.dropOwner] }
    | .dispatching reply _ => { system with owner := .dropped [.abandon reply, .dropOwner] }
    | _ => system

/-- A run of events. -/
def run (system : DriverProtocol σ ν) (events : List ProtocolEvent) : DriverProtocol σ ν :=
  events.foldl step system

end DriverProtocol

/-! ### What is owed -/

namespace Replies

variable {replies : Replies} {owed rest : List Nat} {reply : Nat}

/-- **Every future without an outcome is owed once.** A future shows its outcome until it returns it,
and it returns nothing else. -/
structure Balanced (replies : Replies) (owed : List Nat) : Prop where
  nodup : owed.Nodup
  owed_iff : ∀ reply, reply ∈ owed ↔
    reply < replies.responses.length ∧ replies.outcome reply = none
  bound : ∀ reply result, replies.outcome reply = some result → reply < replies.responses.length
  blank : ∀ reply response, replies.responses[reply]? = some response →
    replies.outcome reply = none → response.result = none
  shown : ∀ reply response result, replies.responses[reply]? = some response →
    replies.outcome reply = some result → reply ∉ replies.received.map Prod.fst →
      response.result = some result
  returned : ∀ reply result, (reply, result) ∈ replies.received →
    replies.outcome reply = some result
  once : (replies.received.map Prod.fst).Nodup

theorem balanced_new : Balanced ⟨[], [], []⟩ [] where
  nodup := List.nodup_nil
  owed_iff reply := ⟨fun member => absurd member List.not_mem_nil,
    fun both => absurd both.1 (Nat.not_lt_zero _)⟩
  bound _ _ found := by cases found
  blank _ _ found := by cases found
  shown _ _ _ found := by cases found
  returned _ _ member := by cases member
  once := List.nodup_nil

theorem Balanced.perm (balanced : Balanced replies owed) (same : rest.Perm owed) :
    Balanced replies rest :=
  { balanced with
    nodup := same.nodup_iff.mpr balanced.nodup
    owed_iff := fun reply => same.mem_iff.trans (balanced.owed_iff reply) }

/-- The first result stays. -/
theorem outcome_write (replies : Replies) (reply other : Nat) (result : DriverResult) :
    (replies.write reply result).outcome other =
      (replies.outcome other).or (if other = reply then some result else none) := by
  unfold write outcome
  rw [List.lookup_append]
  congr 1
  rw [List.lookup_cons]
  by_cases same : other = reply
  · rw [if_pos same, beq_iff_eq.mpr same]
  · rw [if_neg same, beq_eq_false_iff_ne.mpr same]
    rfl

theorem outcome_complete (replies : Replies) {reply other : Nat} {result earlier : DriverResult}
    (found : replies.outcome other = some earlier) :
    (replies.complete reply result).outcome other = some earlier := by
  unfold complete
  split
  · rw [outcome_write, found, Option.some_or]
  · exact found

theorem outcome_dropSender (replies : Replies) {reply other : Nat} {earlier : DriverResult}
    (found : replies.outcome other = some earlier) :
    (replies.dropSender reply).outcome other = some earlier := by
  unfold dropSender
  split
  · rw [outcome_write, found, Option.some_or]
  · exact found
  · exact found

/-- The first result of an owed future. -/
theorem Balanced.write (balanced : Balanced replies (reply :: rest)) (result : DriverResult) :
    Balanced (replies.write reply result) rest := by
  obtain ⟨inside, unresolved⟩ := (balanced.owed_iff reply).mp List.mem_cons_self
  obtain ⟨fresh, distinct⟩ := List.nodup_cons.mp balanced.nodup
  have outcome_self : (replies.write reply result).outcome reply = some result := by
    rw [outcome_write, unresolved, Option.none_or, if_pos rfl]
  have outcome_ne {other : Nat} (different : other ≠ reply) :
      (replies.write reply result).outcome other = replies.outcome other := by
    rw [outcome_write, if_neg different, Option.or_none]
  have size : (replies.write reply result).responses.length = replies.responses.length :=
    List.length_set
  refine ⟨distinct, fun other => ?_, fun other earlier found => ?_, fun other response held none => ?_,
    fun other response earlier held found hidden => ?_, fun other earlier member => ?_,
    balanced.once⟩
  · rw [size]
    by_cases same : other = reply
    · subst same
      rw [outcome_self]
      exact ⟨fun member => absurd member fresh, fun both => by cases both.2⟩
    · rw [outcome_ne same, ← balanced.owed_iff other, List.mem_cons]
      exact ⟨.inr, fun either => either.resolve_left same⟩
  · rw [size]
    by_cases same : other = reply
    · exact same ▸ inside
    · rw [outcome_ne same] at found
      exact balanced.bound other earlier found
  · by_cases same : other = reply
    · subst same
      rw [outcome_self] at none
      cases none
    · rw [outcome_ne same] at none
      have before : (replies.responses.set reply ⟨some result, false⟩)[other]? = some response := held
      rw [List.getElem?_set_ne (Ne.symm same)] at before
      exact balanced.blank other response before none
  · have now : (replies.responses.set reply ⟨some result, false⟩)[other]? = some response := held
    by_cases same : other = reply
    · subst same
      rw [outcome_self] at found
      rw [List.getElem?_set_self inside] at now
      cases now
      exact found
    · rw [outcome_ne same] at found
      rw [List.getElem?_set_ne (Ne.symm same)] at now
      exact balanced.shown other response earlier now found hidden
  · have known := balanced.returned other earlier member
    rw [outcome_write, known, Option.some_or]

/-- An owed future has no result yet. -/
theorem Balanced.response (balanced : Balanced replies (reply :: rest)) :
    ∃ waker, replies.responses[reply]? = some ⟨none, waker⟩ := by
  obtain ⟨inside, unresolved⟩ := (balanced.owed_iff reply).mp List.mem_cons_self
  have held := List.getElem?_eq_getElem inside
  have blank := balanced.blank reply _ held unresolved
  generalize replies.responses[reply] = response at held blank
  obtain ⟨result, waker⟩ := response
  cases blank
  exact ⟨waker, held⟩

/-- **A sender completes its reply once.** -/
theorem Balanced.complete (balanced : Balanced replies (reply :: rest)) (result : DriverResult) :
    replies.complete reply result = replies.write reply result ∧
      Balanced (replies.complete reply result) rest := by
  obtain ⟨waker, held⟩ := balanced.response
  have written : replies.complete reply result = replies.write reply result := by
    unfold Replies.complete
    rw [held]
  rw [written]
  exact ⟨rfl, balanced.write result⟩

/-- **A sender that is dropped unused answers that the owner is gone.** -/
theorem Balanced.abandon (balanced : Balanced replies (reply :: rest)) :
    replies.dropSender reply = replies.write reply (.error .ownerDropped) ∧
      Balanced (replies.dropSender reply) rest := by
  obtain ⟨waker, held⟩ := balanced.response
  have written : replies.dropSender reply = replies.write reply (.error .ownerDropped) := by
    unfold dropSender
    rw [held]
  rw [written]
  exact ⟨rfl, balanced.write _⟩

/-- A change of what the futures show, where every outcome stays. -/
theorem Balanced.set (balanced : Balanced replies owed) {next : Replies} {response : ResponseState}
    (responses : next.responses = replies.responses.set reply response)
    (received : next.received = replies.received)
    (same : ∀ other, next.outcome other = replies.outcome other)
    (blank : replies.outcome reply = none → response.result = none)
    (shown : ∀ result, replies.outcome reply = some result →
      reply ∉ replies.received.map Prod.fst → response.result = some result) :
    Balanced next owed := by
  have size : next.responses.length = replies.responses.length := by
    rw [responses, List.length_set]
  have at_ {other : Nat} {found : ResponseState} (held : next.responses[other]? = some found) :
      (other = reply ∧ found = response) ∨ replies.responses[other]? = some found := by
    rw [responses] at held
    by_cases here : other = reply
    · subst here
      by_cases inside : other < replies.responses.length
      · rw [List.getElem?_set_self inside] at held
        exact .inl ⟨rfl, (Option.some.inj held).symm⟩
      · rw [List.getElem?_eq_none (by rw [List.length_set]; omega)] at held
        cases held
    · rw [List.getElem?_set_ne (Ne.symm here)] at held
      exact .inr held
  refine ⟨balanced.nodup, fun other => ?_, fun other result found => ?_, fun other found held none => ?_,
    fun other found result held outcome hidden => ?_, fun other result member => ?_, ?_⟩
  · rw [size, same]
    exact balanced.owed_iff other
  · rw [size]
    rw [same] at found
    exact balanced.bound other result found
  · rw [same] at none
    rcases at_ held with ⟨rfl, rfl⟩ | before
    · exact blank none
    · exact balanced.blank other found before none
  · rw [same] at outcome
    rw [received] at hidden
    rcases at_ held with ⟨rfl, rfl⟩ | before
    · exact shown result outcome hidden
    · exact balanced.shown other found result before outcome hidden
  · rw [received] at member
    rw [same]
    exact balanced.returned other result member
  · rw [received]
    exact balanced.once

/-- **A sender that is dropped used changes no outcome**, though it may write again to a future that
has returned. -/
theorem Balanced.release (balanced : Balanced replies owed)
    (resolved : replies.outcome reply ≠ none) :
    Balanced (replies.dropSender reply) owed ∧
      ∀ other, (replies.dropSender reply).outcome other = replies.outcome other := by
  obtain ⟨result, found⟩ := Option.ne_none_iff_exists'.mp resolved
  have same (other : Nat) :
      (replies.dropSender reply).outcome other = replies.outcome other := by
    unfold dropSender
    split
    · rw [outcome_write]
      by_cases here : other = reply
      · subst here
        rw [found, Option.some_or]
      · rw [if_neg here, Option.or_none]
    · rfl
    · rfl
  refine ⟨?_, same⟩
  unfold dropSender at same ⊢
  split
  · rename_i waker held
    rw [held] at same
    refine balanced.set rfl rfl same (fun none => absurd none resolved)
      fun earlier outcome hidden => ?_
    have visible := balanced.shown reply _ earlier held outcome hidden
    cases visible
  · rename_i shown waker held
    refine balanced.set rfl rfl (fun _ => rfl) (fun none => absurd none resolved)
      fun earlier outcome hidden => ?_
    have visible := balanced.shown reply _ earlier held outcome hidden
    exact visible
  · exact balanced

/-- **A poll returns the outcome of its future.** -/
theorem Balanced.receive (balanced : Balanced replies owed) (reply : Nat) :
    Balanced (replies.receive reply) owed := by
  unfold Replies.receive
  by_cases returned : reply ∈ replies.received.map Prod.fst
  · rw [if_pos returned]
    exact balanced
  · rw [if_neg returned]
    split
    · rename_i result waker held
      have outcome : replies.outcome reply = some result := by
        cases known : replies.outcome reply with
        | none => cases balanced.blank reply _ held known
        | some earlier => exact (balanced.shown reply _ earlier held known returned).symm
      have inside := balanced.bound reply result outcome
      have size : (replies.responses.set reply (⟨none, waker⟩ : ResponseState)).length =
        replies.responses.length := List.length_set
      refine ⟨balanced.nodup, fun other => ?_, fun other earlier found => ?_,
        fun other response now none => ?_, fun other response earlier now found hidden => ?_,
        fun other earlier member => ?_, ?_⟩
      · exact (balanced.owed_iff other).trans (by rw [← size]; rfl)
      · exact size.symm ▸ balanced.bound other earlier found
      · by_cases same : other = reply
        · subst same
          rw [List.getElem?_set_self inside] at now
          cases now
          rfl
        · rw [List.getElem?_set_ne (Ne.symm same)] at now
          exact balanced.blank other response now none
      · rw [List.map_append, List.mem_append, not_or] at hidden
        have different : reply ≠ other := fun same => hidden.2 (by rw [same]; simp)
        rw [List.getElem?_set_ne different] at now
        exact balanced.shown other response earlier now found hidden.1
      · rcases List.mem_append.mp member with old | new
        · exact balanced.returned other earlier old
        · cases List.mem_singleton.mp new
          exact outcome
      · rw [List.map_append, List.nodup_append]
        refine ⟨balanced.once, List.nodup_singleton _, fun first member second new same => ?_⟩
        cases List.mem_singleton.mp new
        cases same
        exact returned member
    · rename_i waker held
      refine balanced.set rfl rfl (fun _ => rfl) (fun _ => rfl) fun result outcome hidden => ?_
      have visible := balanced.shown reply _ result held outcome hidden
      exact visible
    · exact balanced

theorem outcome_receive (replies : Replies) (reply other : Nat) :
    (replies.receive reply).outcome other = replies.outcome other := by
  unfold Replies.receive
  split
  · rfl
  · split <;> rfl

/-- **A new future is owed.** -/
theorem Balanced.join (balanced : Balanced replies owed) :
    Balanced replies.join (owed ++ [replies.responses.length]) := by
  have size : replies.join.responses.length = replies.responses.length + 1 := by
    unfold Replies.join
    rw [List.length_append, List.length_singleton]
  have unresolved : replies.outcome replies.responses.length = none := by
    cases known : replies.outcome replies.responses.length with
    | none => rfl
    | some result => exact absurd (balanced.bound _ result known) (Nat.lt_irrefl _)
  have at_ {other : Nat} {response : ResponseState}
      (held : replies.join.responses[other]? = some response) :
      replies.responses[other]? = some response ∨
        other = replies.responses.length ∧ response = ⟨none, false⟩ := by
    unfold Replies.join at held
    rcases Nat.lt_or_ge other replies.responses.length with older | newer
    · rw [List.getElem?_append_left older] at held
      exact .inl held
    · rw [List.getElem?_append_right newer] at held
      have place := (List.getElem?_eq_some_iff.mp held).1
      rw [List.length_singleton] at place
      have here : other - replies.responses.length = 0 := by omega
      rw [here] at held
      exact .inr ⟨by omega, (Option.some.inj held).symm⟩
  refine ⟨?_, fun other => ?_, fun other result found => ?_, fun other response held none => ?_,
    fun other response result held found hidden => ?_, balanced.returned, balanced.once⟩
  · rw [List.nodup_append]
    refine ⟨balanced.nodup, List.nodup_singleton _, fun first member second new same => ?_⟩
    rw [same, List.mem_singleton.mp new] at member
    exact Nat.lt_irrefl _ ((balanced.owed_iff _).mp member).1
  · rw [List.mem_append, List.mem_singleton, balanced.owed_iff, size]
    show _ ↔ _ ∧ replies.outcome other = none
    constructor
    · rintro (⟨inside, none⟩ | rfl)
      · exact ⟨by omega, none⟩
      · exact ⟨by omega, unresolved⟩
    · rintro ⟨inside, none⟩
      by_cases last : other = replies.responses.length
      · exact .inr last
      · exact .inl ⟨by omega, none⟩
  · rw [size]
    have := balanced.bound other result found
    omega
  · rcases at_ held with before | ⟨_, rfl⟩
    · exact balanced.blank other response before none
    · rfl
  · rcases at_ held with before | ⟨rfl, _⟩
    · exact balanced.shown other response result before found hidden
    · have known : replies.outcome replies.responses.length = some result := found
      rw [unresolved] at known
      cases known

end Replies

end Kernis
