/-
**What the parties of a driver still have to do.**

* `Accounted` — the futures without an outcome are queued or owed by one critical section;
  `Accounted.enter`: entering a section keeps it, and writes at most the outcome it is about.
* `Queue` — commands are queued in the order of their submission.
* `Shut` — after a shutdown, every section completes a command as it must; `Drained`: each kind of
  drain gets the final events once.
* `Gone` — after the loss of the owner, every section says so.
-/

import Kernis.Driver.Protocol

namespace Kernis

open Std

/-! ### What sections owe -/

/-- The reply that a section still has to complete. -/
def Section.owes : Section → Option Nat
  | .finish command => some command.reply
  | .take _ reply => some reply
  | .complete reply _ => some reply
  | .abandon reply => some reply
  | .release _ | .close _ | .dropOwner => none

/-- What a section writes. -/
def Section.writes : Section → Option (Nat × DriverResult)
  | .complete reply result => some (reply, result)
  | .abandon reply => some (reply, .error .ownerDropped)
  | _ => none

/-- What remains to be done of a section, at most. -/
def Section.weight : Section → Nat
  | .finish _ => 4
  | .take _ _ => 3
  | .complete _ _ => 2
  | .release _ | .abandon _ | .close _ | .dropOwner => 1

/-- The replies that some sections owe. -/
def owed (sections : List Section) : List Nat := sections.filterMap Section.owes

/-- What a party has before it. The future that waits for the dispatcher owes a reply: if it is
dropped, it drops the sender. -/
def RunFuture.sections : RunFuture → List Section
  | .suspended | .panicked => []
  | .dispatching reply _ => [.abandon reply]
  | .running sections | .returning sections | .dropped sections => sections

theorem owed_append (first second : List Section) : owed (first ++ second) = owed first ++ owed second :=
  List.filterMap_append

theorem owed_finish (commands : List DriverCommand) :
    owed (commands.map .finish) = commands.map DriverCommand.reply := by
  unfold owed
  rw [List.filterMap_map]
  exact congrFun (@List.filterMap_eq_map _ _ DriverCommand.reply) commands

theorem owed_reject (commands : List DriverCommand) (result : DriverResult) :
    owed (commands.map fun command => .complete command.reply result) =
      commands.map DriverCommand.reply := by
  unfold owed
  rw [List.filterMap_map]
  exact congrFun (@List.filterMap_eq_map _ _ DriverCommand.reply) commands

namespace DriverProtocol

variable {σ ν : Type} {system : DriverProtocol σ ν} {list rest : List Section}

/-- The replies of the queued commands. -/
def queued (system : DriverProtocol σ ν) : List Nat :=
  system.mailbox.commands.map DriverCommand.reply

/-- The sections that are still to come. -/
def sections (system : DriverProtocol σ ν) : List Section :=
  system.owner.sections ++ system.refusals.flatten

/-- The first result of a future. -/
def outcome (system : DriverProtocol σ ν) (reply : Nat) : Option DriverResult :=
  system.replies.outcome reply

/-- **Every future without an outcome is queued or owed by one section.** -/
structure Accounted (system : DriverProtocol σ ν) (list : List Section) : Prop where
  balanced : system.replies.Balanced (system.queued ++ owed list)
  released : ∀ reply, .release reply ∈ list → system.replies.outcome reply ≠ none

theorem Accounted.perm (accounted : Accounted system list) (same : rest.Perm list) :
    Accounted system rest where
  balanced := accounted.balanced.perm ((same.filterMap _).append_left _)
  released reply member := accounted.released reply (same.mem_iff.mp member)

/-- The head of the sections is first among what is owed. -/
theorem owed_perm {reply : Nat} (queue : List Nat) {section_ : Section} (owes : section_.owes = some reply) :
    (reply :: (queue ++ owed rest)).Perm (queue ++ owed (section_ :: rest)) := by
  unfold owed
  rw [List.filterMap_cons_some owes]
  exact List.perm_middle.symm

theorem owed_skip {section_ : Section} (owes : section_.owes = none) :
    owed (section_ :: rest) = owed rest :=
  List.filterMap_cons_none owes

/-- **Entering a section** keeps what is owed; it writes one outcome at most. -/
theorem Accounted.enter {section_ : Section} (accounted : Accounted system (section_ :: rest)) :
    Accounted (system.enter section_).2 ((system.enter section_).1 ++ rest) ∧
      (∀ reply result, system.outcome reply = some result →
        (system.enter section_).2.outcome reply = some result) ∧
      (∀ reply result, (system.enter section_).2.outcome reply = some result →
        system.outcome reply = some result ∨ section_.writes = some (reply, result)) ∧
      ∀ reply result, section_.writes = some (reply, result) →
        (system.enter section_).2.outcome reply = some result := by
  obtain ⟨balanced, released⟩ := accounted
  have stays {reply : Nat} (member : .release reply ∈ rest) :
      system.replies.outcome reply ≠ none := released reply (List.mem_cons_of_mem _ member)
  cases section_ with
  | finish command =>
    have same : ∃ section_ : Section, system.enter (.finish command) = ([section_], system) ∧
        section_.owes = some command.reply ∧ ∀ reply, section_ ≠ .release reply := by
      simp only [DriverProtocol.enter]
      split
      · exact ⟨_, rfl, rfl, fun _ same => by cases same⟩
      · split
        · exact ⟨_, rfl, rfl, fun _ same => by cases same⟩
        · exact ⟨_, rfl, rfl, fun _ same => by cases same⟩
    obtain ⟨section_, entered, owes, unused⟩ := same
    rw [entered]
    refine ⟨⟨?_, fun reply member => ?_⟩, fun _ _ found => found, fun _ _ found => .inl found,
      fun _ _ none => by cases none⟩
    · exact balanced.perm ((owed_perm _ owes).symm.trans (owed_perm _ rfl))
    · rcases List.mem_cons.mp member with same | inside
      · exact absurd same.symm (unused reply)
      · exact stays inside
  | take kind reply =>
    have queue : (system.mailbox.takeShutdown kind).2.commands = system.mailbox.commands := by
      cases kind
      all_goals
        simp only [MailboxState.takeShutdown, MailboxState.takeShutdownExecutionEvents,
          MailboxState.takeShutdownProgressEvents, MailboxState.takeShutdownTelemetryEvents]
        split <;> rfl
    refine ⟨⟨?_, fun other member => ?_⟩, fun _ _ found => found, fun _ _ found => .inl found,
      fun _ _ none => by cases none⟩
    · show system.replies.Balanced ((system.mailbox.takeShutdown kind).2.commands.map _ ++ _)
      rw [queue]
      exact balanced.perm ((owed_perm _ rfl).symm.trans (owed_perm _ rfl))
    · rcases List.mem_cons.mp member with same | inside
      · cases same
      · exact stays inside
  | complete reply result =>
    obtain ⟨written, after⟩ := (balanced.perm (owed_perm _ rfl)).complete result
    have unresolved : system.replies.outcome reply = none :=
      ((balanced.perm (owed_perm _ rfl)).owed_iff reply).mp List.mem_cons_self |>.2
    have self : (system.replies.complete reply result).outcome reply = some result := by
      rw [written, Replies.outcome_write, unresolved, Option.none_or, if_pos rfl]
    refine ⟨⟨after, fun other member => ?_⟩, fun other earlier found =>
      system.replies.outcome_complete found, fun other later found => ?_, fun other later wrote => ?_⟩
    · rcases List.mem_cons.mp member with same | inside
      · cases same
        exact Option.ne_none_iff_exists'.mpr ⟨result, self⟩
      · obtain ⟨earlier, found⟩ := Option.ne_none_iff_exists'.mp (stays inside)
        exact Option.ne_none_iff_exists'.mpr ⟨earlier, system.replies.outcome_complete found⟩
    · have found : (system.replies.complete reply result).outcome other = some later := found
      rw [written, Replies.outcome_write] at found
      by_cases same : other = reply
      · subst same
        rw [unresolved, Option.none_or, if_pos rfl] at found
        cases found
        exact .inr rfl
      · rw [if_neg same, Option.or_none] at found
        exact .inl found
    · cases wrote
      exact self
  | release reply =>
    have resolved := released reply List.mem_cons_self
    rw [owed_skip rfl] at balanced
    obtain ⟨after, same⟩ := balanced.release resolved
    refine ⟨⟨after, fun other member => ?_⟩, fun other earlier found => (same other).trans found,
      fun other later found => .inl ((same other).symm.trans found), fun _ _ none => by cases none⟩
    exact (same other).symm ▸ stays member
  | abandon reply =>
    obtain ⟨written, after⟩ := (balanced.perm (owed_perm _ rfl)).abandon
    have unresolved : system.replies.outcome reply = none :=
      ((balanced.perm (owed_perm _ rfl)).owed_iff reply).mp List.mem_cons_self |>.2
    have self : (system.replies.dropSender reply).outcome reply = some (.error .ownerDropped) := by
      rw [written, Replies.outcome_write, unresolved, Option.none_or, if_pos rfl]
    refine ⟨⟨after, fun other member => ?_⟩, fun other earlier found =>
      system.replies.outcome_dropSender found, fun other later found => ?_,
      fun other later wrote => ?_⟩
    · obtain ⟨earlier, found⟩ := Option.ne_none_iff_exists'.mp (stays member)
      exact Option.ne_none_iff_exists'.mpr ⟨earlier, system.replies.outcome_dropSender found⟩
    · have found : (system.replies.dropSender reply).outcome other = some later := found
      rw [written, Replies.outcome_write] at found
      by_cases same : other = reply
      · subst same
        rw [unresolved, Option.none_or, if_pos rfl] at found
        cases found
        exact .inr rfl
      · rw [if_neg same, Option.or_none] at found
        exact .inl found
    · cases wrote
      exact self
  | close events =>
    refine ⟨⟨?_, fun other member => ?_⟩, fun _ _ found => found, fun _ _ found => .inl found,
      fun _ _ none => by cases none⟩
    · show system.replies.Balanced ([] ++ owed (system.mailbox.commands.map .finish ++ rest))
      rw [owed_append, owed_finish]
      exact balanced
    · rcases List.mem_append.mp member with new | old
      · obtain ⟨command, _, same⟩ := List.mem_map.mp new
        cases same
      · exact stays old
  | dropOwner =>
    refine ⟨⟨?_, fun other member => ?_⟩, fun _ _ found => found, fun _ _ found => .inl found,
      fun _ _ none => by cases none⟩
    · show system.replies.Balanced (system.mailbox.dropOwner.2.commands.map _ ++
        owed (system.mailbox.dropOwner.1.map _ ++ rest))
      by_cases closed : system.mailbox.closed
      · rw [MailboxState.dropOwner, if_pos closed]
        exact balanced
      · rw [MailboxState.dropOwner, if_neg closed, owed_append, owed_reject]
        exact balanced
    · rcases List.mem_append.mp member with new | old
      · obtain ⟨command, _, same⟩ := List.mem_map.mp new
        cases same
      · exact stays old


/-! ### The queue -/

/-- **Commands are queued in the order of their submission.** -/
structure Queue (system : DriverProtocol σ ν) : Prop where
  size : system.requests.length = system.replies.responses.length
  recorded : ∀ command ∈ system.mailbox.commands,
    system.requests[command.reply]? = some command.request
  rising : system.accepted.Pairwise (· < ·)
  older : ∀ reply ∈ system.accepted, reply < system.requests.length
  processed : system.processed <+: system.accepted
  queue : system.mailbox.closed = false → system.accepted = system.processed ++ system.queued
  woken : system.mailbox.commands ≠ [] → system.mailbox.waker = false

/-- A change that leaves the queue as it is, or closes the mailbox. -/
theorem Queue.of (queue : Queue system) {next : DriverProtocol σ ν}
    (requests : next.requests = system.requests) (accepted : next.accepted = system.accepted)
    (processed : next.processed = system.processed)
    (size : next.replies.responses.length = system.replies.responses.length)
    (mailbox : (next.mailbox.commands = system.mailbox.commands ∧
        next.mailbox.closed = system.mailbox.closed ∧ next.mailbox.waker = system.mailbox.waker) ∨
      (next.mailbox.commands = [] ∧ next.mailbox.closed = true)) :
    Queue next where
  size := by rw [requests, size, queue.size]
  recorded command member := by
    rw [requests]
    rcases mailbox with ⟨commands, _, _⟩ | ⟨commands, _⟩
    · exact queue.recorded command (commands ▸ member)
    · rw [commands] at member
      cases member
  rising := accepted.symm ▸ queue.rising
  older reply member := requests.symm ▸ queue.older reply (accepted ▸ member)
  processed := by
    rw [processed, accepted]
    exact queue.processed
  queue opened := by
    rcases mailbox with ⟨commands, closed, _⟩ | ⟨_, closed⟩
    · rw [accepted, processed, queued, commands]
      exact queue.queue (closed ▸ opened)
    · rw [closed] at opened
      cases opened
  woken held := by
    rcases mailbox with ⟨commands, _, waker⟩ | ⟨commands, _⟩
    · exact waker.trans (queue.woken (commands ▸ held))
    · exact absurd commands held

end DriverProtocol

namespace Replies

theorem length_complete (replies : Replies) (reply : Nat) (result : DriverResult) :
    (replies.complete reply result).responses.length = replies.responses.length := by
  unfold complete
  split
  · exact List.length_set
  · rfl

theorem length_dropSender (replies : Replies) (reply : Nat) :
    (replies.dropSender reply).responses.length = replies.responses.length := by
  unfold dropSender
  split
  · exact List.length_set
  · exact List.length_set
  · rfl

theorem length_receive (replies : Replies) (reply : Nat) :
    (replies.receive reply).responses.length = replies.responses.length := by
  unfold receive
  split
  · rfl
  · split
    · exact List.length_set
    · exact List.length_set
    · rfl

end Replies

namespace MailboxState

theorem takeShutdown_kept (mailbox : MailboxState) (kind : DrainKind) :
    (mailbox.takeShutdown kind).2.commands = mailbox.commands ∧
      (mailbox.takeShutdown kind).2.closed = mailbox.closed ∧
      (mailbox.takeShutdown kind).2.ownerDropped = mailbox.ownerDropped ∧
      (mailbox.takeShutdown kind).2.waker = mailbox.waker := by
  cases kind
  all_goals
    simp only [takeShutdown, takeShutdownExecutionEvents, takeShutdownProgressEvents,
      takeShutdownTelemetryEvents]
    split <;> exact ⟨rfl, rfl, rfl, rfl⟩

end MailboxState

/-- No events. -/
def ShutdownEvents.empty : ShutdownEvents := ⟨[], [], []⟩

namespace MailboxState

/-- **A drain takes what is kept of its stream**, and nothing else. -/
theorem takeShutdown_closed {mailbox : MailboxState} (closed : mailbox.closed = true)
    (kind : DrainKind) :
    (mailbox.takeShutdown kind).1 = .ok (mailbox.kept.reply kind) ∧
      (mailbox.takeShutdown kind).2.kept.reply kind = ShutdownEvents.empty.reply kind ∧
      ∀ other, other ≠ kind →
        (mailbox.takeShutdown kind).2.kept.reply other = mailbox.kept.reply other := by
  cases kind
  all_goals
    simp only [takeShutdown, takeShutdownExecutionEvents, takeShutdownProgressEvents,
      takeShutdownTelemetryEvents, if_pos closed]
    refine ⟨rfl, rfl, fun other different => ?_⟩
    cases other
    all_goals first | exact absurd rfl different | rfl

end MailboxState

namespace DriverProtocol

variable {σ ν : Type} {system : DriverProtocol σ ν} {list rest : List Section}

theorem enter_finish (system : DriverProtocol σ ν) (command : DriverCommand) :
    (system.enter (.finish command)).2 = system := by
  simp only [DriverProtocol.enter]
  split
  · rfl
  · split <;> rfl

/-- A section leaves the queue as it is, or closes the mailbox. -/
theorem Queue.enter (queue : Queue system) (section_ : Section) :
    Queue (system.enter section_).2 := by
  cases section_ with
  | finish command =>
    rw [enter_finish]
    exact queue
  | take kind reply =>
    obtain ⟨commands, closed, _, waker⟩ := system.mailbox.takeShutdown_kept kind
    exact queue.of rfl rfl rfl rfl (.inl ⟨commands, closed, waker⟩)
  | complete reply result =>
    exact queue.of rfl rfl rfl (Replies.length_complete _ _ _) (.inl ⟨rfl, rfl, rfl⟩)
  | release reply =>
    exact queue.of rfl rfl rfl (Replies.length_dropSender _ _) (.inl ⟨rfl, rfl, rfl⟩)
  | abandon reply =>
    exact queue.of rfl rfl rfl (Replies.length_dropSender _ _) (.inl ⟨rfl, rfl, rfl⟩)
  | close events => exact queue.of rfl rfl rfl rfl (.inr ⟨rfl, rfl⟩)
  | dropOwner =>
    refine queue.of rfl rfl rfl rfl ?_
    show (system.mailbox.dropOwner.2.commands = _ ∧ system.mailbox.dropOwner.2.closed = _ ∧
      system.mailbox.dropOwner.2.waker = _) ∨
        system.mailbox.dropOwner.2.commands = _ ∧ system.mailbox.dropOwner.2.closed = _
    by_cases closed : system.mailbox.closed
    · rw [MailboxState.dropOwner, if_pos closed]
      exact .inl ⟨rfl, rfl, rfl⟩
    · rw [MailboxState.dropOwner, if_neg closed]
      exact .inr ⟨rfl, rfl⟩

/-! ### After a shutdown -/

/-- The results of the drains of one kind that took final events, in order. -/
def taken (system : DriverProtocol σ ν) (kind : DrainKind) : List DriverResult :=
  (system.takers.filter fun taker => taker.1 = kind).map fun taker => taker.2.2

/-- **Each kind of drain gets the final events once**: they are kept until the first drain takes them,
and every other one gets nothing. -/
def Drained (system : DriverProtocol σ ν) (events : ShutdownEvents) (kind : DrainKind) : Prop :=
  (system.taken kind = [] ∧ system.mailbox.kept.reply kind = events.reply kind) ∨
    ∃ others, system.taken kind =
        .ok (events.reply kind) :: List.replicate others (.ok (ShutdownEvents.empty.reply kind)) ∧
      system.mailbox.kept.reply kind = ShutdownEvents.empty.reply kind

/-- What a command gets after a shutdown: a drain gets what it took, another command is refused. -/
def Late (system : DriverProtocol σ ν) (reply : Nat) (result : DriverResult) : Prop :=
  ∃ request, system.requests[reply]? = some request ∧
    match request.drains with
    | none => result = .error .shuttingDown
    | some kind => (kind, reply, result) ∈ system.takers

/-- A section that completes a command after a shutdown. -/
def Finishes (system : DriverProtocol σ ν) : Section → Prop
  | .finish command => system.requests[command.reply]? = some command.request
  | .take kind reply => ∃ request, system.requests[reply]? = some request ∧
      request.drains = some kind
  | .complete reply result => system.Late reply result
  | .release _ | .dropOwner => True
  | .abandon _ | .close _ => False

/-- **The driver has shut down**: every section that is to come completes a command as it must. -/
structure Shut (system : DriverProtocol σ ν) (events : ShutdownEvents) (list : List Section) :
    Prop where
  closed : system.mailbox.closed = true
  kept : system.mailbox.ownerDropped = false
  emptied : system.mailbox.commands = []
  finishes : ∀ section_ ∈ list, system.Finishes section_
  drained : ∀ kind, system.Drained events kind
  delivered : ∀ kind reply result, (kind, reply, result) ∈ system.takers →
    system.outcome reply = some result ∨ .complete reply result ∈ list

theorem getElem?_of_prefix {α : Type} {first last : List α} {index : Nat} {value : α}
    (grown : first <+: last) (found : first[index]? = some value) : last[index]? = some value := by
  obtain ⟨more, rfl⟩ := grown
  rw [List.getElem?_append_left (List.getElem?_eq_some_iff.mp found).1]
  exact found

theorem Late.mono {next : DriverProtocol σ ν} {reply : Nat} {result : DriverResult}
    (late : system.Late reply result) (requests : system.requests <+: next.requests)
    (takers : system.takers <+: next.takers) : next.Late reply result := by
  obtain ⟨request, asked, answer⟩ := late
  refine ⟨request, getElem?_of_prefix requests asked, ?_⟩
  cases drains : request.drains with
  | none =>
    rw [drains] at answer
    exact answer
  | some kind =>
    rw [drains] at answer
    exact takers.subset answer

/-- What is to come finishes the more, the more is known. -/
theorem Finishes.mono {next : DriverProtocol σ ν} {section_ : Section}
    (finishes : system.Finishes section_) (requests : system.requests <+: next.requests)
    (takers : system.takers <+: next.takers) : next.Finishes section_ := by
  cases section_ with
  | finish command => exact getElem?_of_prefix requests finishes
  | take kind reply =>
    obtain ⟨request, asked, drains⟩ := finishes
    exact ⟨request, getElem?_of_prefix requests asked, drains⟩
  | complete reply result => exact Late.mono finishes requests takers
  | release reply => trivial
  | dropOwner => trivial
  | abandon reply => exact finishes
  | close events => exact finishes

theorem Shut.perm {events : ShutdownEvents} (shut : Shut system events list)
    (same : rest.Perm list) : Shut system events rest :=
  { shut with
    finishes := fun section_ member => shut.finishes section_ (same.mem_iff.mp member)
    delivered := fun kind reply result member =>
      (shut.delivered kind reply result member).imp_right same.mem_iff.mpr }

/-- A change of the replies or the requests after the shutdown. -/
theorem Shut.of {events : ShutdownEvents} (shut : Shut system events list)
    {next : DriverProtocol σ ν} (mailbox : next.mailbox = system.mailbox)
    (takers : next.takers = system.takers) (requests : system.requests <+: next.requests)
    (finishes : ∀ section_ ∈ rest, section_ ∉ list → next.Finishes section_)
    (delivered : ∀ reply result, system.outcome reply = some result ∨ .complete reply result ∈ list →
      next.outcome reply = some result ∨ .complete reply result ∈ rest) :
    Shut next events rest where
  closed := mailbox ▸ shut.closed
  kept := mailbox ▸ shut.kept
  emptied := mailbox ▸ shut.emptied
  finishes section_ member := by
    by_cases old : section_ ∈ list
    · exact (shut.finishes section_ old).mono requests (takers ▸ List.prefix_rfl)
    · exact finishes section_ member old
  drained kind := by
    unfold Drained taken
    rw [mailbox, takers]
    exact shut.drained kind
  delivered kind reply result member :=
    delivered reply result (shut.delivered kind reply result (takers ▸ member))

/-- **Entering a section after the shutdown.** -/
theorem Shut.enter {events : ShutdownEvents} {section_ : Section}
    (shut : Shut system events (section_ :: rest)) (accounted : Accounted system (section_ :: rest)) :
    Shut (system.enter section_).2 events ((system.enter section_).1 ++ rest) := by
  obtain ⟨_, kept, _, written⟩ := accounted.enter
  have finishes := shut.finishes section_ List.mem_cons_self
  cases section_ with
  | finish command =>
    have asked : system.requests[command.reply]? = some command.request := finishes
    have open_ : ¬ system.mailbox.ownerDropped := by
      rw [shut.kept]
      exact Bool.false_ne_true
    have entered : (system.enter (.finish command)).2 = system ∧
        ∀ section_ ∈ (system.enter (.finish command)).1, system.Finishes section_ := by
      simp only [DriverProtocol.enter, if_neg open_]
      cases drains : command.request.drains with
      | some kind =>
        refine ⟨rfl, fun section_ member => ?_⟩
        cases List.mem_singleton.mp member
        exact ⟨command.request, asked, drains⟩
      | none =>
        refine ⟨rfl, fun section_ member => ?_⟩
        cases List.mem_singleton.mp member
        refine ⟨command.request, asked, ?_⟩
        rw [drains]
    rw [entered.1]
    refine shut.of rfl rfl List.prefix_rfl (fun section_ member fresh => ?_)
      fun reply result => Or.imp_right fun member => ?_
    · rcases List.mem_append.mp member with new | old
      · exact entered.2 section_ new
      · exact absurd (List.mem_cons_of_mem _ old) fresh
    · rcases List.mem_cons.mp member with same | old
      · cases same
      · exact List.mem_append_right _ old
  | take kind reply =>
    obtain ⟨request, asked, drains⟩ := finishes
    obtain ⟨commands, closed, dropped, _⟩ := system.mailbox.takeShutdown_kept kind
    obtain ⟨answered, emptied, others⟩ := MailboxState.takeShutdown_closed shut.closed kind
    have grown : system.takers <+: (system.enter (.take kind reply)).2.takers :=
      List.prefix_append _ _
    refine ⟨closed.trans shut.closed, dropped.trans shut.kept, commands.trans shut.emptied,
      fun section_ member => ?_, fun other => ?_, fun other earlier result member => ?_⟩
    · rcases List.mem_cons.mp member with rfl | old
      · refine ⟨request, asked, ?_⟩
        rw [drains]
        exact List.mem_append_right _ List.mem_cons_self
      · exact (shut.finishes section_ (List.mem_cons_of_mem _ old)).mono List.prefix_rfl grown
    · have taken_now : (system.enter (.take kind reply)).2.taken other =
          system.taken other ++ if other = kind then [.ok (system.mailbox.kept.reply kind)] else [] := by
        unfold taken DriverProtocol.enter
        rw [List.filter_append, List.map_append, answered]
        congr 1
        by_cases same : other = kind
        · subst same
          simp
        · simp [same, Ne.symm same]
      unfold Drained
      rw [taken_now]
      by_cases same : other = kind
      · subst same
        rw [if_pos rfl]
        rcases shut.drained other with ⟨none, held⟩ | ⟨more, taken, held⟩
        · rw [none, held]
          exact .inr ⟨0, rfl, emptied⟩
        · rw [taken, held]
          refine .inr ⟨more + 1, ?_, emptied⟩
          rw [List.cons_append, List.replicate_succ']
      · rw [if_neg same, List.append_nil]
        rcases shut.drained other with ⟨none, held⟩ | ⟨more, taken, held⟩
        · exact .inl ⟨none, (others other same).trans held⟩
        · exact .inr ⟨more, taken, (others other same).trans held⟩
    · rcases List.mem_append.mp member with old | new
      · rcases shut.delivered other earlier result old with found | pending
        · exact .inl found
        · rcases List.mem_cons.mp pending with same | inside
          · cases same
          · exact .inr (List.mem_cons_of_mem _ inside)
      · cases List.mem_singleton.mp new
        exact .inr List.mem_cons_self
  | complete reply result =>
    refine shut.of rfl rfl List.prefix_rfl (fun section_ member fresh => ?_)
      fun other later => Or.rec (fun found => .inl (kept other later found)) fun member => ?_
    · rcases List.mem_cons.mp member with rfl | old
      · trivial
      · exact absurd (List.mem_cons_of_mem _ old) fresh
    · rcases List.mem_cons.mp member with same | old
      · cases same
        exact .inl (written reply result rfl)
      · exact .inr (List.mem_cons_of_mem _ old)
  | release reply =>
    refine shut.of rfl rfl List.prefix_rfl (fun section_ old fresh =>
      absurd (List.mem_cons_of_mem _ old) fresh) fun other later =>
      Or.imp (kept other later) fun member => ?_
    rcases List.mem_cons.mp member with same | old
    · cases same
    · exact old
  | dropOwner =>
    have entered : system.enter .dropOwner = ([], system) := by
      simp only [DriverProtocol.enter, MailboxState.dropOwner, if_pos shut.closed]
      rfl
    rw [entered]
    refine shut.of rfl rfl List.prefix_rfl (fun section_ old fresh =>
      absurd (List.mem_cons_of_mem _ old) fresh) fun other later => Or.imp_right fun member => ?_
    rcases List.mem_cons.mp member with same | old
    · cases same
    · exact old
  | abandon reply => exact absurd finishes not_false
  | close events => exact absurd finishes not_false

/-! ### After the owner is lost -/

/-- A section that tells a caller that the owner is gone. -/
def Gives : Section → Prop
  | .complete _ result => result = .error .ownerDropped
  | .finish _ | .release _ => True
  | .take _ _ | .abandon _ | .close _ | .dropOwner => False

/-- **The owner is lost**: every section that is to come says so. -/
structure Gone (system : DriverProtocol σ ν) (list : List Section) : Prop where
  closed : system.mailbox.closed = true
  lost : system.mailbox.ownerDropped = true
  emptied : system.mailbox.commands = []
  gives : ∀ section_ ∈ list, Gives section_

theorem Gone.perm (gone : Gone system list) (same : rest.Perm list) : Gone system rest :=
  { gone with gives := fun section_ member => gone.gives section_ (same.mem_iff.mp member) }

theorem Gone.of (gone : Gone system list) {next : DriverProtocol σ ν}
    (mailbox : next.mailbox = system.mailbox)
    (gives : ∀ section_ ∈ rest, section_ ∉ list → Gives section_) : Gone next rest where
  closed := mailbox ▸ gone.closed
  lost := mailbox ▸ gone.lost
  emptied := mailbox ▸ gone.emptied
  gives section_ member := by
    by_cases old : section_ ∈ list
    · exact gone.gives section_ old
    · exact gives section_ member old

/-- **Entering a section after the loss.** -/
theorem Gone.enter {section_ : Section} (gone : Gone system (section_ :: rest)) :
    Gone (system.enter section_).2 ((system.enter section_).1 ++ rest) := by
  have gives := gone.gives section_ List.mem_cons_self
  have fresh {new : List Section} (all : ∀ section_ ∈ new, Gives section_) :
      ∀ other ∈ new ++ rest, other ∉ section_ :: rest → Gives other := by
    intro other member unseen
    rcases List.mem_append.mp member with inside | old
    · exact all other inside
    · exact absurd (List.mem_cons_of_mem _ old) unseen
  cases section_ with
  | finish command =>
    have entered : system.enter (.finish command) =
        ([.complete command.reply (.error .ownerDropped)], system) := by
      simp only [DriverProtocol.enter, if_pos gone.lost]
    rw [entered]
    exact gone.of rfl (fresh (List.forall_mem_singleton.mpr rfl))
  | complete reply result => exact gone.of rfl (fresh (List.forall_mem_singleton.mpr trivial))
  | release reply => exact gone.of rfl (fresh fun _ member => absurd member List.not_mem_nil)
  | take kind reply => exact absurd gives not_false
  | abandon reply => exact absurd gives not_false
  | close events => exact absurd gives not_false
  | dropOwner => exact absurd gives not_false

end DriverProtocol

end Kernis
