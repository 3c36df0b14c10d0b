/-
**Every command of a driver is answered once.**

* `Phase` — how far the run has come: it works, it stops, it has shut down, it is dropped, its owner is
  lost.
* `Orderly` — the invariant of the protocol; `Keeps` — what every later state keeps of an earlier one.
  `Orderly.step`: every event keeps the first and achieves the second.
* `Busy`, `weight` — what the parties can do on their own, and how much of it there is at most.
* `Protocol`, `mailbox_protocol` — the protocol over every two states of a run.
-/

import Kernis.Driver.Resolves

namespace Kernis

open Std

namespace DriverProtocol

variable {σ ν : Type} {system : DriverProtocol σ ν}

/-! ### Phases -/

/-- A shutdown was answered. -/
def Answered (system : DriverProtocol σ ν) : Prop :=
  ∃ reply status, system.outcome reply = some (.ok (.shutDown status))

/-- The run future was dropped. -/
def Lost (system : DriverProtocol σ ν) : Prop := ∃ list, system.owner = .dropped list

/-- The run future works: it waits, or it answers a command. -/
inductive Working : RunFuture → Prop
  | suspended : Working .suspended
  | dispatching (reply : Nat) (request : EffectDispatchRequest) : Working (.dispatching reply request)
  | replying (reply : Nat) {result : DriverResult}
      (other : ∀ status, result ≠ .ok (.shutDown status)) :
      Working (.running [.complete reply result])
  | replied (reply : Nat) : Working (.running [.release reply])

/-- The run future answers its shutdown, then it closes the mailbox. -/
inductive Stops (events : ShutdownEvents) : Bool → List Section → Prop
  | answering (reply : Nat) (status : ShutdownStatus) :
      Stops events false [.complete reply (.ok (.shutDown status)), .close events, .dropOwner]
  | answered (reply : Nat) : Stops events true [.release reply, .close events, .dropOwner]
  | closing : Stops events true [.close events, .dropOwner]

/-- The run future was dropped, and has not reached its owner guard yet. -/
inductive Drops : List Section → Prop
  | abandoning (reply : Nat) : Drops [.abandon reply, .dropOwner]
  | dropping : Drops [.dropOwner]

/-- The mailbox is open: nobody was refused, and nobody took final events. -/
structure Opened (system : DriverProtocol σ ν) : Prop where
  opened : system.mailbox.closed = false
  kept : system.mailbox.ownerDropped = false
  unrefused : system.refusals = []
  untaken : system.takers = []

/-- **How far the run has come.** -/
inductive Phase (system : DriverProtocol σ ν) : Prop
  | working (works : Working system.owner) (opened : Opened system) (unanswered : ¬ system.Answered)
      (unfinished : system.final = none)
  | stopping {list : List Section} {events : ShutdownEvents} {answered : Bool}
      (owner : system.owner = .returning list)
      (stops : Stops events answered list) (opened : Opened system)
      (final : system.final = some events) (answers : system.Answered ↔ answered = true)
  | shutDown {list : List Section} {events : ShutdownEvents} (owner : system.owner = .returning list)
      (final : system.final = some events) (answered : system.Answered)
      (shut : Shut system events system.sections)
  | dropping {list : List Section} (owner : system.owner = .dropped list) (drops : Drops list) (opened : Opened system)
      (unanswered : ¬ system.Answered)
  | lost {list : List Section} (owner : system.owner = .dropped list) (gone : Gone system system.sections)
      (unanswered : ¬ system.Answered)

/-- **The invariant of the protocol.** -/
structure Orderly (system : DriverProtocol σ ν) : Prop where
  accounted : Accounted system system.sections
  queue : Queue system
  phase : Phase system

/-- **What every later state keeps of an earlier one.** -/
structure Keeps (first last : DriverProtocol σ ν) : Prop where
  outcome : ∀ reply result, first.outcome reply = some result → last.outcome reply = some result
  requests : first.requests <+: last.requests
  accepted : first.accepted <+: last.accepted
  processed : first.processed <+: last.processed
  takers : first.takers <+: last.takers
  final : ∀ events, first.final = some events → last.final = some events
  ownerState : first.mailbox.ownerState = .running ∨
    last.mailbox.ownerState = first.mailbox.ownerState
  late : first.Answered → ∀ reply result, first.outcome reply = none →
    last.outcome reply = some result → last.Late reply result
  lost : first.Lost → last.Lost ∧ ∀ reply result, first.outcome reply = none →
    last.outcome reply = some result → result = .error .ownerDropped

theorem Keeps.refl (system : DriverProtocol σ ν) : Keeps system system where
  outcome _ _ found := found
  requests := List.prefix_rfl
  accepted := List.prefix_rfl
  processed := List.prefix_rfl
  takers := List.prefix_rfl
  final _ found := found
  ownerState := .inr rfl
  late _ reply result none found := by
    rw [none] at found
    cases found
  lost lost := ⟨lost, fun reply result none found => by
    rw [none] at found
    cases found⟩

theorem Keeps.answered {first last : DriverProtocol σ ν} (keeps : Keeps first last)
    (answered : first.Answered) : last.Answered := by
  obtain ⟨reply, status, found⟩ := answered
  exact ⟨reply, status, keeps.outcome reply _ found⟩

theorem Keeps.trans {first middle last : DriverProtocol σ ν} (keeps : Keeps first middle)
    (more : Keeps middle last) : Keeps first last where
  outcome reply result found := more.outcome reply result (keeps.outcome reply result found)
  requests := List.IsPrefix.trans keeps.requests more.requests
  accepted := List.IsPrefix.trans keeps.accepted more.accepted
  processed := List.IsPrefix.trans keeps.processed more.processed
  takers := List.IsPrefix.trans keeps.takers more.takers
  final events found := more.final events (keeps.final events found)
  ownerState := by
    rcases keeps.ownerState with running | same
    · exact .inl running
    · rw [← same]
      exact more.ownerState
  late answered reply result none found := by
    cases between : middle.outcome reply with
    | none => exact more.late (keeps.answered answered) reply result between found
    | some earlier =>
      have later := more.outcome reply earlier between
      rw [found] at later
      cases later
      exact (keeps.late answered reply result none between).mono more.requests more.takers
  lost lost := by
    refine ⟨(more.lost (keeps.lost lost).1).1, fun reply result none found => ?_⟩
    cases between : middle.outcome reply with
    | none => exact (more.lost (keeps.lost lost).1).2 reply result between found
    | some earlier =>
      have later := more.outcome reply earlier between
      rw [found] at later
      cases later
      exact (keeps.lost lost).2 reply result none between

/-- An event that writes nothing. -/
theorem Keeps.quiet {first last : DriverProtocol σ ν}
    (outcome : ∀ reply, last.outcome reply = first.outcome reply)
    (requests : first.requests <+: last.requests) (accepted : first.accepted <+: last.accepted)
    (processed : first.processed <+: last.processed) (takers : first.takers <+: last.takers)
    (final : ∀ events, first.final = some events → last.final = some events)
    (ownerState : first.mailbox.ownerState = .running ∨
      last.mailbox.ownerState = first.mailbox.ownerState)
    (lost : first.Lost → last.Lost) : Keeps first last where
  outcome reply result found := (outcome reply).trans found
  requests := requests
  accepted := accepted
  processed := processed
  takers := takers
  final := final
  ownerState := ownerState
  late _ reply result none found := by
    rw [outcome, none] at found
    cases found
  lost before := ⟨lost before, fun reply result none found => by
    rw [outcome, none] at found
    cases found⟩

/-- Whether a shutdown was answered depends on the outcomes. -/
theorem answered_congr {next : DriverProtocol σ ν}
    (outcome : ∀ reply, next.outcome reply = system.outcome reply) :
    next.Answered ↔ system.Answered := by
  unfold Answered
  constructor
  · rintro ⟨reply, status, found⟩
    exact ⟨reply, status, (outcome reply).symm.trans found⟩
  · rintro ⟨reply, status, found⟩
    exact ⟨reply, status, (outcome reply).trans found⟩

theorem Opened.running (opened : Opened system) : system.mailbox.ownerState = .running := by
  unfold MailboxState.ownerState
  rw [if_neg (by rw [opened.kept]; exact Bool.false_ne_true),
    if_neg (by rw [opened.opened]; exact Bool.false_ne_true)]

theorem Opened.sections_eq (opened : Opened system) : system.sections = system.owner.sections := by
  unfold sections
  rw [opened.unrefused]
  exact List.append_nil _

/-- The state of the owner is settled once the mailbox is closed. -/
theorem Phase.running (phase : Phase system) (opened : system.mailbox.closed = false) :
    system.mailbox.ownerState = .running := by
  cases phase with
  | working _ open_ _ _ => exact open_.running
  | stopping _ _ open_ _ _ => exact open_.running
  | shutDown _ _ _ shut =>
    rw [shut.closed] at opened
    cases opened
  | dropping _ _ open_ _ => exact open_.running
  | lost _ gone _ =>
    rw [gone.closed] at opened
    cases opened

/-! ### Entering a section -/

/-- What a section leaves as it is. -/
theorem enter_kept (system : DriverProtocol σ ν) (section_ : Section) :
    (system.enter section_).2.requests = system.requests ∧
      (system.enter section_).2.accepted = system.accepted ∧
      (system.enter section_).2.processed = system.processed ∧
      (system.enter section_).2.final = system.final ∧
      system.takers <+: (system.enter section_).2.takers := by
  cases section_ with
  | finish command =>
    rw [enter_finish]
    exact ⟨rfl, rfl, rfl, rfl, List.prefix_rfl⟩
  | take kind reply => exact ⟨rfl, rfl, rfl, rfl, List.prefix_append _ _⟩
  | complete reply result => exact ⟨rfl, rfl, rfl, rfl, List.prefix_rfl⟩
  | release reply => exact ⟨rfl, rfl, rfl, rfl, List.prefix_rfl⟩
  | abandon reply => exact ⟨rfl, rfl, rfl, rfl, List.prefix_rfl⟩
  | close events => exact ⟨rfl, rfl, rfl, rfl, List.prefix_rfl⟩
  | dropOwner => exact ⟨rfl, rfl, rfl, rfl, List.prefix_rfl⟩

/-- A section is about one party, so the others stay. -/
theorem enter_parties (system : DriverProtocol σ ν) (section_ : Section) :
    (system.enter section_).2.owner = system.owner ∧
      (system.enter section_).2.refusals = system.refusals := by
  cases section_ with
  | finish command =>
    rw [enter_finish]
    exact ⟨rfl, rfl⟩
  | take _ _ | complete _ _ | release _ | abandon _ | close _ | dropOwner => exact ⟨rfl, rfl⟩

/-- The state of the owner stays once the mailbox is closed. -/
theorem enter_ownerState (closed : system.mailbox.closed = true) (section_ : Section) :
    (system.enter section_).2.mailbox.ownerState = system.mailbox.ownerState := by
  cases section_ with
  | finish command => rw [enter_finish]
  | take kind reply =>
    obtain ⟨_, same, dropped, _⟩ := system.mailbox.takeShutdown_kept kind
    show (system.mailbox.takeShutdown kind).2.ownerState = _
    unfold MailboxState.ownerState
    rw [same, dropped]
  | complete reply result => rfl
  | release reply => rfl
  | abandon reply => rfl
  | close events =>
    unfold MailboxState.ownerState DriverProtocol.enter MailboxState.close
    rw [closed]
  | dropOwner =>
    show system.mailbox.dropOwner.2.ownerState = _
    rw [MailboxState.dropOwner, if_pos closed]

/-- **What is written late**: after a shutdown a refusal or what a drain took, after the loss of the
owner that it is gone. -/
theorem Orderly.writes (orderly : Orderly system) {section_ : Section}
    (member : section_ ∈ system.sections) {reply : Nat} {result : DriverResult}
    (writes : section_.writes = some (reply, result)) :
    (system.Answered → system.Late reply result) ∧
      (system.Lost → result = .error .ownerDropped) := by
  cases orderly.phase with
  | working works _ unanswered _ =>
    refine ⟨fun answered => absurd answered unanswered, fun lost => ?_⟩
    obtain ⟨list, owner⟩ := lost
    rw [owner] at works
    cases works
  | stopping owner stops opened _ answers =>
    refine ⟨fun answered => ?_, fun lost => ?_⟩
    · rw [opened.sections_eq, owner] at member
      cases stops with
      | answering reply status => cases answers.mp answered
      | answered other =>
        simp only [RunFuture.sections, List.mem_cons, List.not_mem_nil, or_false] at member
        rcases member with rfl | rfl | rfl <;> cases writes
      | closing =>
        simp only [RunFuture.sections, List.mem_cons, List.not_mem_nil, or_false] at member
        rcases member with rfl | rfl <;> cases writes
    · obtain ⟨_, dropped⟩ := lost
      rw [owner] at dropped
      cases dropped
  | shutDown owner _ _ shut =>
    refine ⟨fun _ => ?_, fun lost => ?_⟩
    · have finishes := shut.finishes section_ member
      cases section_ with
      | complete other earlier =>
        cases writes
        exact finishes
      | abandon other => exact absurd finishes not_false
      | finish _ | take _ _ | release _ | close _ | dropOwner => cases writes
    · obtain ⟨_, dropped⟩ := lost
      rw [owner] at dropped
      cases dropped
  | dropping owner drops opened unanswered =>
    refine ⟨fun answered => absurd answered unanswered, fun _ => ?_⟩
    rw [opened.sections_eq, owner] at member
    cases drops with
    | abandoning other =>
      simp only [RunFuture.sections, List.mem_cons, List.not_mem_nil, or_false] at member
      rcases member with rfl | rfl
      · cases writes
        rfl
      · cases writes
    | dropping =>
      cases List.mem_singleton.mp member
      cases writes
  | lost owner gone unanswered =>
    refine ⟨fun answered => absurd answered unanswered, fun _ => ?_⟩
    have gives := gone.gives section_ member
    cases section_ with
    | complete other earlier =>
      cases writes
      exact gives
    | abandon other => exact absurd gives not_false
    | finish _ | take _ _ | release _ | close _ | dropOwner => cases writes

/-- **A party enters a section**: `others` are the sections that remain. -/
theorem Orderly.enter (orderly : Orderly system) {section_ : Section} {others : List Section}
    {owner : RunFuture} {refusals : List (List Section)}
    (before : system.sections.Perm (section_ :: others))
    (after : (owner.sections ++ refusals.flatten).Perm ((system.enter section_).1 ++ others))
    (lost : system.Lost → ∃ list, owner = .dropped list)
    (phase : Accounted system (section_ :: others) →
      Phase { (system.enter section_).2 with owner := owner, refusals := refusals }) :
    Orderly { (system.enter section_).2 with owner := owner, refusals := refusals } ∧
      Keeps system { (system.enter section_).2 with owner := owner, refusals := refusals } := by
  have accounted := orderly.accounted.perm before.symm
  have member : section_ ∈ system.sections := before.mem_iff.mpr List.mem_cons_self
  obtain ⟨requests, accepted, processed, final, takers⟩ := system.enter_kept section_
  obtain ⟨left, kept, new, _⟩ := accounted.enter
  have settled := left.perm after
  have queue := orderly.queue.enter section_
  refine ⟨⟨⟨settled.balanced, settled.released⟩, queue.of rfl rfl rfl rfl (.inl ⟨rfl, rfl, rfl⟩),
    phase accounted⟩, ?_⟩
  refine ⟨kept, requests ▸ List.prefix_rfl, accepted ▸ List.prefix_rfl, processed ▸ List.prefix_rfl,
    takers, fun events found => final.trans found, ?_, fun answered reply result none found => ?_,
    fun dropped => ⟨lost dropped, fun reply result none found => ?_⟩⟩
  · by_cases closed : system.mailbox.closed = true
    · exact .inr (enter_ownerState closed section_)
    · exact .inl (orderly.phase.running (Bool.eq_false_iff.mpr closed))
  · rcases new reply result found with old | writes
    · rw [none] at old
      cases old
    · exact ((orderly.writes member writes).1 answered).mono (requests ▸ List.prefix_rfl) takers
  · rcases new reply result found with old | writes
    · rw [none] at old
      cases old
    · exact (orderly.writes member writes).2 dropped

/-- The first section of one refusal, and what becomes of it. -/
theorem flatten_set {α : Type} {lists : List (List α)} {index : Nat} {head : α} {rest : List α}
    (found : lists[index]? = some (head :: rest)) :
    ∃ others, lists.flatten.Perm (head :: others) ∧
      ∀ new, (lists.set index (new ++ rest)).flatten.Perm (new ++ others) := by
  induction lists generalizing index with
  | nil => cases found
  | cons first lists ih =>
    cases index with
    | zero =>
      cases found
      refine ⟨rest ++ lists.flatten, .rfl, fun new => ?_⟩
      rw [List.set_cons_zero, List.flatten_cons, List.append_assoc]
    | succ index =>
      obtain ⟨others, before, after⟩ := ih found
      refine ⟨first ++ others, (before.append_left first).trans List.perm_middle, fun new => ?_⟩
      rw [List.set_cons_succ, List.flatten_cons]
      exact ((after new).append_left first).trans (List.perm_append_comm_assoc _ _ _)

theorem answered_enter {section_ : Section} {others : List Section}
    (accounted : Accounted system (section_ :: others)) (answered : system.Answered) :
    (system.enter section_).2.Answered := by
  obtain ⟨reply, status, found⟩ := answered
  exact ⟨reply, status, accounted.enter.2.1 reply _ found⟩

theorem unanswered_enter {section_ : Section} {others : List Section}
    (accounted : Accounted system (section_ :: others)) (unanswered : ¬ system.Answered)
    (other : ∀ reply status, section_.writes ≠ some (reply, .ok (.shutDown status))) :
    ¬ (system.enter section_).2.Answered := by
  rintro ⟨reply, status, found⟩
  rcases accounted.enter.2.2.1 reply _ found with old | writes
  · exact unanswered ⟨reply, status, old⟩
  · exact other reply status writes

/-! ### Steps -/

variable [DurableStore σ]

/-- A refusal goes on. -/
theorem Orderly.refuse (orderly : Orderly system) {index : Nat} {section_ : Section}
    {rest : List Section} (found : system.refusals[index]? = some (section_ :: rest)) :
    Orderly (system.step (.refuse index)) ∧ Keeps system (system.step (.refuse index)) := by
  obtain ⟨others, before, after⟩ := flatten_set found
  obtain ⟨owner, refusals⟩ := system.enter_parties section_
  obtain ⟨_, _, _, final, _⟩ := system.enter_kept section_
  have stepped : system.step (.refuse index) = { (system.enter section_).2 with
      owner := (system.enter section_).2.owner
      refusals := system.refusals.set index ((system.enter section_).1 ++ rest) } := by
    unfold DriverProtocol.step
    simp only [found]
  have before' : system.sections.Perm (section_ :: (system.owner.sections ++ others)) :=
    (before.append_left _).trans List.perm_middle
  have after' : ((system.enter section_).2.owner.sections ++
      (system.refusals.set index ((system.enter section_).1 ++ rest)).flatten).Perm
        ((system.enter section_).1 ++ (system.owner.sections ++ others)) := by
    rw [owner]
    exact ((after _).append_left _).trans (List.perm_append_comm_assoc _ _ _)
  rw [stepped]
  refine orderly.enter before' after' (fun lost => owner ▸ lost) fun accounted => ?_
  have unopened (opened : Opened system) : False := by
    rw [opened.unrefused] at found
    cases found
  cases orderly.phase with
  | working _ opened _ _ => exact (unopened opened).elim
  | stopping _ _ opened _ _ => exact (unopened opened).elim
  | dropping _ _ opened _ => exact (unopened opened).elim
  | shutDown returning ended answered shut =>
    have later := ((shut.perm before'.symm).enter accounted).perm after'
    exact .shutDown (owner.trans returning) (final.trans ended) (answered_enter accounted answered)
      (later.of rfl rfl List.prefix_rfl (fun _ member fresh => absurd member fresh) fun _ _ => id)
  | lost dropped gone unanswered =>
    have later := (gone.perm before'.symm).enter.perm after'
    have gives := gone.gives section_ (before'.mem_iff.mpr List.mem_cons_self)
    refine .lost (owner.trans dropped) (later.of rfl fun _ member fresh => absurd member fresh)
      (unanswered_enter accounted unanswered fun reply status writes => ?_)
    have result := (orderly.writes (before'.mem_iff.mpr List.mem_cons_self) writes).2 ⟨_, dropped⟩
    cases result

omit [DurableStore σ] in
/-- Sections that only touch replies leave the mailbox open. -/
theorem Opened.of (opened : Opened system) {next : DriverProtocol σ ν}
    (closed : next.mailbox.closed = system.mailbox.closed)
    (dropped : next.mailbox.ownerDropped = system.mailbox.ownerDropped)
    (refusals : next.refusals = system.refusals) (takers : next.takers = system.takers) :
    Opened next where
  opened := closed.trans opened.opened
  kept := dropped.trans opened.kept
  unrefused := refusals.trans opened.unrefused
  untaken := takers.trans opened.untaken

/-- The run future goes on with its turn. -/
theorem Orderly.turn (orderly : Orderly system) {section_ : Section} {rest : List Section}
    (running : system.owner = .running (section_ :: rest)) :
    Orderly (system.step .work) ∧ Keeps system (system.step .work) := by
  have stepped : system.step .work = { (system.enter section_).2 with
      owner := DriverProtocol.turn ((system.enter section_).1 ++ rest)
      refusals := (system.enter section_).2.refusals } := by
    unfold DriverProtocol.step
    simp only [running]
  rw [stepped]
  cases orderly.phase with
  | stopping owner | shutDown owner | dropping owner | lost owner =>
    rw [running] at owner
    cases owner
  | working works opened unanswered unfinished =>
    have before : system.sections = section_ :: rest := by
      rw [opened.sections_eq, running]
      rfl
    rw [running] at works
    have parted : (system.enter section_).2.refusals = [] :=
      (system.enter_parties section_).2.trans opened.unrefused
    cases works with
    | replying reply other =>
      refine orderly.enter (.of_eq before) (.of_eq ?_) (fun lost => ?_) fun accounted => ?_
      · rw [parted]
        rfl
      · obtain ⟨_, dropped⟩ := lost
        rw [running] at dropped
        cases dropped
      · exact .working (.replied reply) (opened.of rfl rfl rfl rfl)
          (unanswered_enter accounted unanswered fun _ status writes => by
            cases writes
            exact other status rfl) unfinished
    | replied reply =>
      refine orderly.enter (.of_eq before) (.of_eq ?_) (fun lost => ?_) fun accounted => ?_
      · rw [parted]
        rfl
      · obtain ⟨_, dropped⟩ := lost
        rw [running] at dropped
        cases dropped
      · exact .working .suspended (opened.of rfl rfl rfl rfl)
          (unanswered_enter accounted unanswered fun _ _ writes => by cases writes) unfinished

/-- The run future returns. -/
theorem Orderly.returns (orderly : Orderly system) {section_ : Section} {rest : List Section}
    (returning : system.owner = .returning (section_ :: rest)) :
    Orderly (system.step .work) ∧ Keeps system (system.step .work) := by
  have stepped : system.step .work = { (system.enter section_).2 with
      owner := .returning ((system.enter section_).1 ++ rest)
      refusals := (system.enter section_).2.refusals } := by
    unfold DriverProtocol.step
    simp only [returning]
  obtain ⟨_, parted⟩ := system.enter_parties section_
  have before : system.sections = section_ :: (rest ++ system.refusals.flatten) := by
    unfold sections
    rw [returning]
    rfl
  have after : ((system.enter section_).1 ++ rest ++ (system.enter section_).2.refusals.flatten) =
      (system.enter section_).1 ++ (rest ++ system.refusals.flatten) := by
    rw [parted, List.append_assoc]
  rw [stepped]
  refine orderly.enter (.of_eq before) (.of_eq after) (fun lost => ?_) fun accounted => ?_
  · obtain ⟨_, dropped⟩ := lost
    rw [returning] at dropped
    cases dropped
  cases orderly.phase with
  | dropping owner | lost owner =>
    rw [returning] at owner
    cases owner
  | working works =>
    rw [returning] at works
    cases works
  | stopping owner stops opened final answers =>
    cases returning.symm.trans owner
    cases stops with
    | answering reply status =>
      refine .stopping rfl (.answered reply) (opened.of rfl rfl rfl rfl) final
        (iff_of_true ?_ rfl)
      exact ⟨reply, status, accounted.enter.2.2.2 reply _ rfl⟩
    | answered reply =>
      exact .stopping rfl .closing (opened.of rfl rfl rfl rfl) final
        (iff_of_true (answered_enter accounted (answers.mpr rfl)) rfl)
    | closing =>
      refine .shutDown rfl final (answered_enter accounted (answers.mpr rfl)) ⟨rfl, opened.kept, rfl,
        fun section_ member => ?_, fun kind => .inl ⟨?_, ?_⟩, fun kind reply result member => ?_⟩
      · have inside : section_ ∈ (system.mailbox.commands.map .finish ++ [.dropOwner]) ++
          system.refusals.flatten := member
        rw [opened.unrefused, List.flatten_nil, List.append_nil] at inside
        rcases List.mem_append.mp inside with new | old
        · obtain ⟨command, queued, rfl⟩ := List.mem_map.mp new
          exact orderly.queue.recorded command queued
        · cases List.mem_singleton.mp old
          trivial
      · show (system.takers.filter _).map _ = []
        rw [opened.untaken]
        rfl
      · cases kind <;> rfl
      · have none : system.takers = [] := opened.untaken
        exact absurd (none ▸ member) List.not_mem_nil
  | shutDown owner final answered shut =>
    rw [before] at shut
    have later := shut.enter accounted
    rw [← after] at later
    exact .shutDown rfl ((system.enter_kept section_).2.2.2.1.trans final)
      (answered_enter accounted answered)
      (later.of rfl rfl List.prefix_rfl (fun _ member fresh => absurd member fresh) fun _ _ => id)

/-- The run future that was dropped loses its owner guard. -/
theorem Orderly.drops (orderly : Orderly system) {section_ : Section} {rest : List Section}
    (dropped : system.owner = .dropped (section_ :: rest)) :
    Orderly (system.step .work) ∧ Keeps system (system.step .work) := by
  have stepped : system.step .work = { (system.enter section_).2 with
      owner := .dropped ((system.enter section_).1 ++ rest)
      refusals := (system.enter section_).2.refusals } := by
    unfold DriverProtocol.step
    simp only [dropped]
  obtain ⟨_, parted⟩ := system.enter_parties section_
  have before : system.sections = section_ :: (rest ++ system.refusals.flatten) := by
    unfold sections
    rw [dropped]
    rfl
  have after : ((system.enter section_).1 ++ rest ++ (system.enter section_).2.refusals.flatten) =
      (system.enter section_).1 ++ (rest ++ system.refusals.flatten) := by
    rw [parted, List.append_assoc]
  rw [stepped]
  refine orderly.enter (.of_eq before) (.of_eq after) (fun _ => ⟨_, rfl⟩) fun accounted => ?_
  have unshut (unanswered : ¬ system.Answered) : ¬ (system.enter section_).2.Answered :=
    unanswered_enter accounted unanswered fun reply status writes => by
      have member : section_ ∈ system.sections := before ▸ List.mem_cons_self
      cases (orderly.writes member writes).2 ⟨_, dropped⟩
  cases orderly.phase with
  | shutDown owner | stopping owner =>
    rw [dropped] at owner
    cases owner
  | working works =>
    rw [dropped] at works
    cases works
  | dropping owner drops opened unanswered =>
    cases dropped.symm.trans owner
    cases drops with
    | abandoning reply =>
      exact .dropping rfl .dropping (opened.of rfl rfl rfl rfl) (unshut unanswered)
    | dropping =>
      have entered : system.mailbox.dropOwner = (system.mailbox.commands, { system.mailbox with
          commands := []
          closed := true
          ownerDropped := true
          waker := false }) := by
        rw [MailboxState.dropOwner, if_neg (by rw [opened.opened]; exact Bool.false_ne_true)]
      have mailbox : (system.enter .dropOwner).2.mailbox = system.mailbox.dropOwner.2 := rfl
      rw [entered] at mailbox
      refine .lost rfl ⟨congrArg MailboxState.closed mailbox,
        congrArg MailboxState.ownerDropped mailbox, congrArg MailboxState.commands mailbox,
        fun section_ member => ?_⟩ (unshut unanswered)
      have inside : section_ ∈ (system.enter .dropOwner).1 ++ [] ++ system.refusals.flatten := member
      rw [opened.unrefused, List.flatten_nil, List.append_nil, List.append_nil] at inside
      obtain ⟨command, _, rfl⟩ := List.mem_map.mp inside
      rfl
  | lost owner gone unanswered =>
    rw [before] at gone
    have later := gone.enter
    rw [← after] at later
    exact .lost rfl (later.of rfl fun _ member fresh => absurd member fresh) (unshut unanswered)

end DriverProtocol

/-! ### Taking a command -/

theorem map_ne_shutDown {α : Type} (result : Except DriverError α) {wrap : α → DriverReply}
    (other : ∀ value status, wrap value ≠ .shutDown status) (status : ShutdownStatus) :
    result.map wrap ≠ .ok (.shutDown status) := by
  intro same
  cases result with
  | error error => cases same
  | ok value => exact other value status (Except.ok.inj same)

namespace RuntimeDriver

variable {σ ν : Type} [DurableStore σ]

/-- A reply is no shutdown, which only the end of the run answers. -/
theorem process_reply {driver reached : RuntimeDriver σ ν} {request : DriverRequest}
    {result : DriverResult} (processed : driver.process request = (.reply result, reached))
    (status : ShutdownStatus) : result ≠ .ok (.shutDown status) := by
  cases request with
  | wake =>
    simp only [process] at processed
    split at processed
    · cases processed
      exact fun same => by cases same
    · cases processed
    · cases processed
      exact fun same => by cases same
  | dispatchEffect operationId =>
    simp only [process, handOver] at processed
    split at processed
    · cases processed
    · cases processed
      exact fun same => by cases same
  | recover operationId =>
    cases processed
    exact map_ne_shutDown _ (fun _ _ same => by cases same) status
  | cancelTask taskId =>
    cases processed
    exact map_ne_shutDown _ (fun _ _ same => by cases same) status
  | drainExecutionEvents | drainProgressEvents | drainTelemetryEvents =>
    cases processed
    exact fun same => by cases same
  | shutdown =>
    simp only [process] at processed
    split at processed
    · cases processed
    · cases processed
      exact fun same => by cases same

end RuntimeDriver

namespace DriverProtocol

variable {σ ν : Type} {system : DriverProtocol σ ν} [DurableStore σ]

/-- What the run future comes to with a command. -/
inductive Took (reply : Nat) : RunFuture → Option ShutdownEvents → Prop
  | replying {result : DriverResult} (other : ∀ status, result ≠ .ok (.shutDown status)) :
      Took reply (.running [.complete reply result]) none
  | dispatching (request : EffectDispatchRequest) : Took reply (.dispatching reply request) none
  | stopping (events : ShutdownEvents) (status : ShutdownStatus) :
      Took reply (.returning [.complete reply (.ok (.shutDown status)), .close events, .dropOwner])
        (some events)

theorem process_cases (system : DriverProtocol σ ν) (command : DriverCommand)
    (unfinished : system.final = none) :
    ∃ driver owner final, Took command.reply owner final ∧
      system.process command = { system with driver := driver, owner := owner, final := final } := by
  unfold process
  split
  · rename_i result driver processed
    exact ⟨driver, _, none, .replying (RuntimeDriver.process_reply processed),
      by rw [← unfinished]⟩
  · rename_i request driver processed
    exact ⟨driver, _, none, .dispatching request, by rw [← unfinished]⟩
  · rename_i status driver processed
    exact ⟨_, _, _, .stopping _ status, rfl⟩

omit [DurableStore σ] in
/-- The run future owes the reply of the command that it took. -/
theorem Took.owes {reply : Nat} {owner : RunFuture} {final : Option ShutdownEvents}
    (took : Took reply owner final) :
    owed owner.sections = [reply] ∧ ∀ other, .release other ∉ owner.sections := by
  cases took with
  | replying other => exact ⟨rfl, fun _ => by simp [RunFuture.sections]⟩
  | dispatching request => exact ⟨rfl, fun _ => by simp [RunFuture.sections]⟩
  | stopping events status => exact ⟨rfl, fun _ => by simp [RunFuture.sections]⟩

omit [DurableStore σ] in
/-- A run future that waits for a command works. -/
theorem Phase.suspended (phase : Phase system) (suspended : system.owner = .suspended) :
    Opened system ∧ ¬ system.Answered ∧ system.final = none := by
  cases phase with
  | working _ opened unanswered unfinished => exact ⟨opened, unanswered, unfinished⟩
  | stopping owner | shutDown owner | dropping owner | lost owner =>
    rw [suspended] at owner
    cases owner

/-- **The run future is polled while it waits for a command.** -/
theorem Orderly.poll (orderly : Orderly system) (suspended : system.owner = .suspended) :
    Orderly (system.step .poll) ∧ Keeps system (system.step .poll) := by
  obtain ⟨opened, unanswered, unfinished⟩ := orderly.phase.suspended suspended
  have unlost : ¬ system.Lost := by
    rintro ⟨_, dropped⟩
    rw [suspended] at dropped
    cases dropped
  have stepped : system.step .poll = system.poll := by
    unfold DriverProtocol.step
    simp only [suspended]
  rw [stepped]
  unfold DriverProtocol.poll
  split
  · rename_i command rest commands
    obtain ⟨driver, owner, final, took, processed⟩ := process_cases { system with
      mailbox := { system.mailbox with commands := rest }
      processed := system.processed ++ [command.reply] } command unfinished
    rw [processed]
    obtain ⟨owes, unreleased⟩ := took.owes
    have before : system.queued ++ owed system.sections =
        command.reply :: rest.map DriverCommand.reply := by
      rw [opened.sections_eq, suspended, queued, commands]
      exact List.append_nil _
    have inOrder : system.accepted =
        (system.processed ++ [command.reply]) ++ rest.map DriverCommand.reply := by
      rw [orderly.queue.queue opened.opened, queued, commands, List.append_assoc]
      rfl
    have sections_eq : owner.sections ++ system.refusals.flatten = owner.sections := by
      rw [opened.unrefused]
      exact List.append_nil _
    refine ⟨⟨⟨?_, ?_⟩, ⟨orderly.queue.size, fun other member => ?_, orderly.queue.rising,
      orderly.queue.older, ⟨_, inOrder.symm⟩, fun _ => inOrder, fun _ => ?_⟩, ?_⟩, ?_⟩
    · show system.replies.Balanced (rest.map DriverCommand.reply ++
        owed (owner.sections ++ system.refusals.flatten))
      rw [sections_eq, owes]
      exact orderly.accounted.balanced.perm (before ▸ List.perm_append_singleton _ _)
    · intro other member
      have inside : .release other ∈ owner.sections ++ system.refusals.flatten := member
      rw [sections_eq] at inside
      exact absurd inside (unreleased other)
    · exact orderly.queue.recorded other (commands ▸ List.mem_cons_of_mem _ member)
    · exact orderly.queue.woken (commands ▸ List.cons_ne_nil _ _)
    · cases took with
      | replying other =>
        exact .working (.replying _ other) (opened.of rfl rfl rfl rfl) unanswered rfl
      | dispatching request =>
        exact .working (.dispatching _ _) (opened.of rfl rfl rfl rfl) unanswered rfl
      | stopping events status =>
        exact .stopping rfl (.answering _ _) (opened.of rfl rfl rfl rfl) rfl
          (iff_of_false unanswered Bool.false_ne_true)
    · refine .quiet (fun _ => rfl) List.prefix_rfl List.prefix_rfl (List.prefix_append _ _)
        List.prefix_rfl (fun events found => ?_) (.inl opened.running)
        fun lost => absurd lost unlost
      rw [unfinished] at found
      cases found
  · rename_i commands
    rw [if_neg (by rw [opened.opened]; exact Bool.false_ne_true)]
    refine ⟨⟨⟨orderly.accounted.balanced, orderly.accounted.released⟩, ?_, ?_⟩, ?_⟩
    · exact ⟨orderly.queue.size, orderly.queue.recorded, orderly.queue.rising, orderly.queue.older,
        orderly.queue.processed, orderly.queue.queue, fun held => absurd commands held⟩
    · exact .working (suspended ▸ .suspended) (opened.of rfl rfl rfl rfl) unanswered unfinished
    · exact .quiet (fun _ => rfl) List.prefix_rfl List.prefix_rfl List.prefix_rfl List.prefix_rfl
        (fun _ found => found) (.inl opened.running) fun lost => absurd lost unlost

/-- The dispatcher answers. -/
theorem Orderly.resolve (orderly : Orderly system) {reply : Nat} {request : EffectDispatchRequest}
    (dispatching : system.owner = .dispatching reply request)
    (answer : Except EffectDispatchError KnownEffectOutcome) :
    Orderly (system.step (.resolve answer)) ∧ Keeps system (system.step (.resolve answer)) := by
  have stepped : system.step (.resolve answer) = { system with
      driver := (RuntimeDriver.resumeDispatch request answer system.driver).2
      owner := .running [.complete reply
        ((RuntimeDriver.resumeDispatch request answer system.driver).1.map .drove)] } := by
    unfold DriverProtocol.step
    simp only [dispatching]
  rw [stepped]
  cases orderly.phase with
  | stopping owner | shutDown owner | dropping owner | lost owner =>
    rw [dispatching] at owner
    cases owner
  | working works opened unanswered unfinished =>
    have before : system.sections = [.abandon reply] := by
      rw [opened.sections_eq, dispatching]
      rfl
    refine ⟨⟨⟨?_, fun other member => ?_⟩, ?_, ?_⟩, ?_⟩
    · have balanced := orderly.accounted.balanced
      rw [before] at balanced
      show system.replies.Balanced (system.queued ++ owed ([.complete reply _] ++
        system.refusals.flatten))
      rw [opened.unrefused]
      exact balanced
    · have inside : .release other ∈ [.complete reply _] ++ system.refusals.flatten := member
      rw [opened.unrefused] at inside
      cases List.mem_singleton.mp inside
    · exact orderly.queue.of rfl rfl rfl rfl (.inl ⟨rfl, rfl, rfl⟩)
    · exact .working (.replying reply (map_ne_shutDown _ fun _ _ same => by cases same))
        (opened.of rfl rfl rfl rfl) unanswered unfinished
    · refine .quiet (fun _ => rfl) List.prefix_rfl List.prefix_rfl List.prefix_rfl List.prefix_rfl
        (fun _ found => found) (.inl opened.running) fun lost => ?_
      obtain ⟨_, dropped⟩ := lost
      rw [dispatching] at dropped
      cases dropped

omit [DurableStore σ] in
/-- The run future is dropped while it waits: what it owed is owed by its drop. -/
theorem Orderly.dropped (orderly : Orderly system) {list : List Section}
    (works : Working system.owner) (drops : Drops list)
    (owes : owed list = owed system.owner.sections)
    (unreleased : ∀ reply, .release reply ∉ list) :
    Orderly { system with owner := .dropped list } ∧
      Keeps system { system with owner := .dropped list } := by
  cases orderly.phase with
  | stopping owner | shutDown owner | dropping owner | lost owner =>
    rw [owner] at works
    cases works
  | working _ opened unanswered unfinished =>
    refine ⟨⟨⟨?_, fun other member => ?_⟩, ?_, ?_⟩, ?_⟩
    · have balanced := orderly.accounted.balanced
      rw [opened.sections_eq, ← owes] at balanced
      show system.replies.Balanced (system.queued ++ owed (list ++ system.refusals.flatten))
      rw [opened.unrefused, List.flatten_nil, List.append_nil]
      exact balanced
    · have inside : .release other ∈ list ++ system.refusals.flatten := member
      rw [opened.unrefused, List.flatten_nil, List.append_nil] at inside
      exact absurd inside (unreleased other)
    · exact orderly.queue.of rfl rfl rfl rfl (.inl ⟨rfl, rfl, rfl⟩)
    · exact .dropping rfl drops (opened.of rfl rfl rfl rfl) unanswered
    · exact .quiet (fun _ => rfl) List.prefix_rfl List.prefix_rfl List.prefix_rfl List.prefix_rfl
        (fun _ found => found) (.inl opened.running) fun _ => ⟨list, rfl⟩

omit [DurableStore σ] in
/-- **A handle submits a command.** -/
theorem Orderly.submit (orderly : Orderly system) (request : DriverRequest) :
    Orderly (system.submit request) ∧ Keeps system (system.submit request) := by
  have size := orderly.queue.size
  have asked : (system.requests ++ [request])[system.requests.length]? = some request :=
    List.getElem?_concat_length
  have grown : system.requests <+: system.requests ++ [request] := List.prefix_append _ _
  have joined := orderly.accounted.balanced.join
  have longer : (system.requests ++ [request]).length = system.replies.join.responses.length := by
    unfold Replies.join
    rw [List.length_append, List.length_append, size]
    rfl
  unfold DriverProtocol.submit MailboxState.submit
  by_cases closed : system.mailbox.closed = true
  · rw [if_pos closed]
    have unopened (opened : Opened system) : False := by
      rw [opened.opened] at closed
      cases closed
    have sections_eq : system.owner.sections ++
        (system.refusals ++ [[Section.finish ⟨request, system.requests.length⟩]]).flatten =
          system.sections ++ [Section.finish ⟨request, system.requests.length⟩] := by
      rw [sections, List.flatten_append, List.append_assoc]
      rfl
    refine ⟨⟨⟨?_, fun reply member => ?_⟩, ⟨longer, fun command member => ?_, orderly.queue.rising,
      fun reply member => ?_, orderly.queue.processed, orderly.queue.queue, orderly.queue.woken⟩, ?_⟩,
      ?_⟩
    · show system.replies.join.Balanced (system.queued ++ owed (system.owner.sections ++ _))
      rw [sections_eq, owed_append, ← List.append_assoc]
      exact size ▸ joined
    · have inside : .release reply ∈ system.owner.sections ++
        (system.refusals ++ [[Section.finish ⟨request, system.requests.length⟩]]).flatten := member
      rw [sections_eq] at inside
      rcases List.mem_append.mp inside with old | new
      · exact orderly.accounted.released reply old
      · cases List.mem_singleton.mp new
    · exact getElem?_of_prefix grown (orderly.queue.recorded command member)
    · have older := orderly.queue.older reply member
      show reply < (system.requests ++ [request]).length
      rw [List.length_append]
      omega
    · have fresh {section_ : Section} (member : section_ ∈ system.sections ++
          [.finish ⟨request, system.requests.length⟩]) (unseen : section_ ∉ system.sections) :
          section_ = .finish ⟨request, system.requests.length⟩ :=
        List.mem_singleton.mp ((List.mem_append.mp member).resolve_left unseen)
      cases orderly.phase with
      | working _ opened | stopping _ _ opened | dropping _ _ opened => exact (unopened opened).elim
      | shutDown owner final answered shut =>
        refine .shutDown owner final answered
          (shut.of rfl rfl grown (fun section_ member unseen => ?_) fun reply result => Or.imp_right
            fun member => ?_)
        · rw [fresh (sections_eq ▸ member) unseen]
          exact asked
        · show _ ∈ system.owner.sections ++ (system.refusals ++ _).flatten
          rw [sections_eq]
          exact List.mem_append_left _ member
      | lost owner gone unanswered =>
        refine .lost owner (gone.of rfl fun section_ member unseen => ?_) unanswered
        rw [fresh (sections_eq ▸ member) unseen]
        trivial
    · exact .quiet (fun _ => rfl) grown List.prefix_rfl List.prefix_rfl List.prefix_rfl
        (fun _ found => found) (.inr rfl) id
  · rw [if_neg closed]
    have opened : system.mailbox.closed = false := Bool.eq_false_iff.mpr closed
    refine ⟨⟨⟨?_, orderly.accounted.released⟩, ⟨longer, fun command member => ?_, ?_,
      fun reply member => ?_, ?_, fun _ => ?_, fun _ => rfl⟩, ?_⟩, ?_⟩
    · show system.replies.join.Balanced
        ((system.mailbox.commands ++ [DriverCommand.mk request system.requests.length]).map
          DriverCommand.reply ++ owed system.sections)
      refine joined.perm ?_
      rw [List.map_append, List.append_assoc, List.append_assoc, ← size]
      exact List.perm_append_comm.append_left _
    · rcases List.mem_append.mp member with old | new
      · exact getElem?_of_prefix grown (orderly.queue.recorded command old)
      · cases List.mem_singleton.mp new
        exact asked
    · refine List.pairwise_append.mpr ⟨orderly.queue.rising, List.pairwise_singleton _ _,
        fun reply member other new => ?_⟩
      cases List.mem_singleton.mp new
      exact orderly.queue.older reply member
    · show reply < (system.requests ++ [request]).length
      rw [List.length_append]
      rcases List.mem_append.mp member with old | new
      · have older := orderly.queue.older reply old
        omega
      · cases List.mem_singleton.mp new
        exact Nat.lt_succ_self _
    · exact List.IsPrefix.trans orderly.queue.processed (List.prefix_append _ _)
    · show system.accepted ++ [system.requests.length] = system.processed ++
        (system.mailbox.commands ++ [DriverCommand.mk request system.requests.length]).map
          DriverCommand.reply
      rw [orderly.queue.queue opened, List.map_append, List.append_assoc]
      rfl
    · cases orderly.phase with
      | working works opened unanswered unfinished =>
        exact .working works (opened.of rfl rfl rfl rfl) unanswered unfinished
      | stopping owner stops opened final answers =>
        exact .stopping owner stops (opened.of rfl rfl rfl rfl) final answers
      | dropping owner drops opened unanswered =>
        exact .dropping owner drops (opened.of rfl rfl rfl rfl) unanswered
      | shutDown _ _ _ shut => exact absurd shut.closed closed
      | lost _ gone _ => exact absurd gone.closed closed
    · exact .quiet (fun _ => rfl) grown (List.prefix_append _ _) List.prefix_rfl List.prefix_rfl
        (fun _ found => found) (.inr rfl) id

omit [DurableStore σ] in
/-- **A future is polled.** -/
theorem Orderly.receive (orderly : Orderly system) (reply : Nat) :
    Orderly { system with replies := system.replies.receive reply } ∧
      Keeps system { system with replies := system.replies.receive reply } := by
  have outcome (other : Nat) : (system.replies.receive reply).outcome other =
      system.replies.outcome other := system.replies.outcome_receive reply other
  have answered : Answered { system with replies := system.replies.receive reply } ↔
      system.Answered := answered_congr outcome
  refine ⟨⟨⟨orderly.accounted.balanced.receive reply, fun other member => ?_⟩,
    orderly.queue.of rfl rfl rfl (Replies.length_receive _ _) (.inl ⟨rfl, rfl, rfl⟩), ?_⟩, ?_⟩
  · rw [outcome]
    exact orderly.accounted.released other member
  · cases orderly.phase with
    | working works opened unanswered unfinished =>
      exact .working works (opened.of rfl rfl rfl rfl) (mt answered.mp unanswered) unfinished
    | stopping owner stops opened final answers =>
      exact .stopping owner stops (opened.of rfl rfl rfl rfl) final (answered.trans answers)
    | dropping owner drops opened unanswered =>
      exact .dropping owner drops (opened.of rfl rfl rfl rfl) (mt answered.mp unanswered)
    | shutDown owner final before shut =>
      exact .shutDown owner final (answered.mpr before)
        (shut.of rfl rfl List.prefix_rfl (fun _ member fresh => absurd member fresh)
          fun other result => Or.imp_left (outcome other).trans)
    | lost owner gone unanswered =>
      exact .lost owner (gone.of rfl fun _ member fresh => absurd member fresh)
        (mt answered.mp unanswered)
  · exact .quiet outcome List.prefix_rfl List.prefix_rfl List.prefix_rfl List.prefix_rfl
      (fun _ found => found) (.inr rfl) id

omit [DurableStore σ] in
theorem Orderly.same (orderly : Orderly system) : Orderly system ∧ Keeps system system :=
  ⟨orderly, .refl system⟩

/-- **Every event keeps the invariant.** -/
theorem Orderly.step (orderly : Orderly system) (event : ProtocolEvent) :
    Orderly (system.step event) ∧ Keeps system (system.step event) := by
  cases event with
  | submit request => exact orderly.submit request
  | receive reply => exact orderly.receive reply
  | refuse index =>
    by_cases waits : ∃ section_ rest, system.refusals[index]? = some (section_ :: rest)
    · obtain ⟨section_, rest, found⟩ := waits
      exact orderly.refuse found
    · have stays : system.step (.refuse index) = system := by
        simp only [DriverProtocol.step]
        split
        · rename_i section_ rest found
          exact absurd ⟨section_, rest, found⟩ waits
        · rfl
      rw [stays]
      exact orderly.same
  | poll =>
    cases owner : system.owner with
    | suspended => exact orderly.poll owner
    | dispatching _ _ | running _ | returning _ | dropped _ | panicked =>
      simp only [DriverProtocol.step, owner]
      exact orderly.same
  | resolve answer =>
    cases owner : system.owner with
    | dispatching reply request => exact orderly.resolve owner answer
    | suspended | running _ | returning _ | dropped _ | panicked =>
      simp only [DriverProtocol.step, owner]
      exact orderly.same
  | work =>
    cases owner : system.owner with
    | suspended | dispatching _ _ | panicked =>
      simp only [DriverProtocol.step, owner]
      exact orderly.same
    | running list =>
      cases list with
      | nil =>
        simp only [DriverProtocol.step, owner]
        exact orderly.same
      | cons section_ rest => exact orderly.turn owner
    | returning list =>
      cases list with
      | nil =>
        simp only [DriverProtocol.step, owner]
        exact orderly.same
      | cons section_ rest => exact orderly.returns owner
    | dropped list =>
      cases list with
      | nil =>
        simp only [DriverProtocol.step, owner]
        exact orderly.same
      | cons section_ rest => exact orderly.drops owner
  | drop =>
    cases owner : system.owner with
    | suspended =>
      simp only [DriverProtocol.step, owner]
      refine orderly.dropped (owner ▸ .suspended) .dropping ?_ fun reply => by simp
      rw [owner]
      rfl
    | dispatching reply request =>
      simp only [DriverProtocol.step, owner]
      refine orderly.dropped (owner ▸ .dispatching _ _) (.abandoning reply) ?_ fun other => by simp
      rw [owner]
      rfl
    | running _ | returning _ | dropped _ | panicked =>
      simp only [DriverProtocol.step, owner]
      exact orderly.same

/-- **Every run keeps the invariant.** -/
theorem Orderly.run (orderly : Orderly system) (events : List ProtocolEvent) :
    Orderly (system.run events) ∧ Keeps system (system.run events) := by
  induction events generalizing system with
  | nil => exact orderly.same
  | cons event rest ih =>
    obtain ⟨next, keeps⟩ := orderly.step event
    obtain ⟨last, more⟩ := ih next
    exact ⟨last, keeps.trans more⟩

omit [DurableStore σ] in
theorem orderly_new (runtime : Runtime σ ν) : Orderly (new runtime) where
  accounted := ⟨Replies.balanced_new, fun _ member => absurd member List.not_mem_nil⟩
  queue := ⟨rfl, fun _ member => absurd member List.not_mem_nil, .nil,
    fun _ member => absurd member List.not_mem_nil, List.prefix_rfl, fun _ => rfl,
    fun held => absurd rfl held⟩
  phase := .working .suspended ⟨rfl, rfl, rfl, rfl⟩ (fun answered => by
    obtain ⟨_, _, found⟩ := answered
    cases found) rfl

end DriverProtocol

/-! ### What is left to do -/

/-- What remains to be done of some sections, at most. -/
def weights : List Section → Nat
  | [] => 0
  | section_ :: rest => section_.weight + weights rest

/-- What remains to be done of a turn, at most. -/
def RunFuture.weight : RunFuture → Nat
  | .suspended | .panicked => 0
  | .dispatching _ _ => 3
  | .running list | .returning list | .dropped list => weights list

theorem weights_append (first second : List Section) :
    weights (first ++ second) = weights first + weights second := by
  induction first with
  | nil => exact (Nat.zero_add _).symm
  | cons section_ rest ih =>
    rw [List.cons_append, weights, weights, ih, Nat.add_assoc]

theorem weights_perm {first second : List Section} (same : first.Perm second) :
    weights first = weights second := by
  induction same with
  | nil => rfl
  | cons section_ _ ih => rw [weights, weights, ih]
  | swap section_ other rest => exact Nat.add_left_comm _ _ _
  | trans _ _ ih more => exact ih.trans more

/-- Sections of one weight. -/
theorem weights_map {α : Type} (list : List α) {section_ : α → Section} {weight : Nat}
    (same : ∀ value, (section_ value).weight = weight) :
    weights (list.map section_) = weight * list.length := by
  induction list with
  | nil => rfl
  | cons value rest ih =>
    rw [List.map_cons, weights, ih, same, List.length_cons, Nat.mul_succ, Nat.add_comm]

namespace DriverProtocol

variable {σ ν : Type} {system : DriverProtocol σ ν}

/-- **What is left to do**, at most, until every command is answered. -/
def weight (system : DriverProtocol σ ν) : Nat :=
  5 * system.mailbox.commands.length + system.owner.weight + weights system.refusals.flatten

/-- A section leaves less to do. -/
theorem enter_weight (system : DriverProtocol σ ν) (section_ : Section) :
    5 * (system.enter section_).2.mailbox.commands.length + weights (system.enter section_).1 <
      5 * system.mailbox.commands.length + section_.weight := by
  cases section_ with
  | finish command =>
    have lighter : weights (system.enter (.finish command)).1 < 4 := by
      simp only [DriverProtocol.enter]
      split
      · exact (by decide : 2 < 4)
      · split
        · exact (by decide : 3 < 4)
        · exact (by decide : 2 < 4)
    rw [enter_finish]
    exact Nat.add_lt_add_left lighter _
  | take kind reply =>
    have commands : (system.enter (.take kind reply)).2.mailbox.commands =
        system.mailbox.commands := (system.mailbox.takeShutdown_kept kind).1
    rw [commands]
    exact Nat.add_lt_add_left (by decide : 2 < 3) _
  | complete reply result => exact Nat.add_lt_add_left (by decide : 1 < 2) _
  | release reply => exact Nat.add_lt_add_left Nat.zero_lt_one _
  | abandon reply => exact Nat.add_lt_add_left Nat.zero_lt_one _
  | close events =>
    have heavy : weights (system.mailbox.commands.map .finish) =
      4 * system.mailbox.commands.length := weights_map _ fun _ => rfl
    show 5 * 0 + weights (system.mailbox.commands.map .finish) < _ + 1
    rw [heavy]
    omega
  | dropOwner =>
    have heavy : weights (system.enter .dropOwner).1 =
      2 * system.mailbox.dropOwner.1.length := weights_map _ fun _ => rfl
    rw [heavy]
    show 5 * system.mailbox.dropOwner.2.commands.length + _ < _ + 1
    by_cases closed : system.mailbox.closed
    · rw [MailboxState.dropOwner, if_pos closed]
      exact Nat.lt_succ_self _
    · rw [MailboxState.dropOwner, if_neg closed]
      show 5 * 0 + 2 * system.mailbox.commands.length < _
      omega

/-- An event with which a party goes on. -/
def Busy (system : DriverProtocol σ ν) : ProtocolEvent → Prop
  | .poll => system.owner = .suspended ∧ system.mailbox.commands ≠ []
  | .resolve _ => ∃ reply request, system.owner = .dispatching reply request
  | .work => ∃ section_ rest, system.owner = .running (section_ :: rest) ∨
      system.owner = .returning (section_ :: rest) ∨ system.owner = .dropped (section_ :: rest)
  | .refuse index => ∃ section_ rest, system.refusals[index]? = some (section_ :: rest)
  | .submit _ | .drop | .receive _ => False

theorem weight_turn (list : List Section) : (turn list).weight = weights list := by
  cases list with
  | nil => rfl
  | cons section_ rest => rfl

variable [DurableStore σ]

/-- A turn is short, up to the mailbox. -/
theorem process_weight (system : DriverProtocol σ ν) (command : DriverCommand) :
    (system.process command).owner.weight ≤ 4 ∧
      (system.process command).mailbox = system.mailbox ∧
      (system.process command).refusals = system.refusals := by
  unfold process
  split
  · exact ⟨(by decide : 2 ≤ 4), rfl, rfl⟩
  · exact ⟨(by decide : 3 ≤ 4), rfl, rfl⟩
  · exact ⟨Nat.le_refl 4, rfl, rfl⟩

/-- **Whoever goes on leaves less to do.** -/
theorem Busy.weight {event : ProtocolEvent} (busy : system.Busy event) :
    (system.step event).weight < system.weight := by
  -- The run future enters a section of its list.
  have entered {section_ : Section} {rest : List Section} {owner : RunFuture}
      (before : system.owner.weight = weights (section_ :: rest))
      (after : owner.weight = weights ((system.enter section_).1 ++ rest)) :
      DriverProtocol.weight { (system.enter section_).2 with owner := owner } < system.weight := by
    have lighter := system.enter_weight section_
    obtain ⟨_, refusals⟩ := system.enter_parties section_
    show 5 * (system.enter section_).2.mailbox.commands.length + owner.weight +
      weights (system.enter section_).2.refusals.flatten <
        5 * system.mailbox.commands.length + system.owner.weight + weights system.refusals.flatten
    rw [before, after, refusals, weights_append, weights]
    omega
  cases event with
  | submit _ | drop | receive _ => exact absurd busy not_false
  | poll =>
    obtain ⟨suspended, waiting⟩ := busy
    have stepped : system.step .poll = system.poll := by
      unfold DriverProtocol.step
      simp only [suspended]
    rw [stepped]
    unfold DriverProtocol.poll
    split
    · rename_i command rest commands
      obtain ⟨light, mailbox, refusals⟩ := process_weight { system with
        mailbox := { system.mailbox with commands := rest }
        processed := system.processed ++ [command.reply] } command
      unfold DriverProtocol.weight
      rw [mailbox, refusals, commands, suspended, List.length_cons]
      exact Nat.add_lt_add_right
        (Nat.add_lt_add_left (Nat.lt_succ_of_le light) (5 * rest.length)) _
    · rename_i commands
      exact absurd commands waiting
  | resolve answer =>
    obtain ⟨reply, request, owner⟩ := busy
    simp only [DriverProtocol.step, owner]
    show 5 * _ + 2 + _ < 5 * _ + system.owner.weight + _
    rw [owner]
    exact Nat.add_lt_add_right (Nat.add_lt_add_left (by decide : 2 < 3) _) _
  | work =>
    obtain ⟨section_, rest, owner | owner | owner⟩ := busy
    · simp only [DriverProtocol.step, owner]
      exact entered (by rw [owner]; rfl) (weight_turn _)
    · simp only [DriverProtocol.step, owner]
      exact entered (by rw [owner]; rfl) rfl
    · simp only [DriverProtocol.step, owner]
      exact entered (by rw [owner]; rfl) rfl
  | refuse index =>
    obtain ⟨section_, rest, found⟩ := busy
    obtain ⟨others, before, after⟩ := flatten_set found
    obtain ⟨owner, _⟩ := system.enter_parties section_
    have lighter := system.enter_weight section_
    simp only [DriverProtocol.step, found]
    show 5 * (system.enter section_).2.mailbox.commands.length +
      (system.enter section_).2.owner.weight + weights _ <
        5 * system.mailbox.commands.length + system.owner.weight + weights system.refusals.flatten
    rw [owner, weights_perm before, weights_perm (after _), weights_append, weights]
    omega

/-- Events with which parties go on, one after the other. -/
def Goes (system : DriverProtocol σ ν) : List ProtocolEvent → Prop
  | [] => True
  | event :: rest => system.Busy event ∧ (system.step event).Goes rest

/-- **The parties go on for a bounded number of events.** -/
theorem Goes.bounded {events : List ProtocolEvent} (goes : system.Goes events) :
    events.length + (system.run events).weight ≤ system.weight := by
  induction events generalizing system with
  | nil => exact Nat.le_of_eq (Nat.zero_add _)
  | cons event rest ih =>
    have lighter := goes.1.weight
    have more := ih goes.2
    show rest.length + 1 + ((system.step event).run rest).weight ≤ _
    omega

omit [DurableStore σ] in
/-- **When nobody can go on, every future has an outcome.** -/
theorem Orderly.settled (orderly : Orderly system) (quiet : ∀ event, ¬ system.Busy event) :
    ∀ reply < system.requests.length, system.outcome reply ≠ none := by
  have refused : system.refusals.flatten = [] := by
    rw [List.flatten_eq_nil_iff]
    intro list member
    obtain ⟨index, found⟩ := List.mem_iff_getElem?.mp member
    cases list with
    | nil => rfl
    | cons section_ rest => exact absurd ⟨section_, rest, found⟩ (quiet (.refuse index))
  have idle : system.queued = [] ∧ system.owner.sections = [] := by
    unfold queued
    cases orderly.phase with
    | working works opened _ _ =>
      cases owner : system.owner with
      | suspended =>
        have empty : system.mailbox.commands = [] :=
          Classical.byContradiction fun waiting => quiet .poll ⟨owner, waiting⟩
        rw [empty]
        exact ⟨rfl, rfl⟩
      | dispatching reply request =>
        exact absurd ⟨reply, request, owner⟩ (quiet (.resolve (.error (.unknownOutcome []))))
      | running list =>
        cases list with
        | nil =>
          rw [owner] at works
          cases works
        | cons section_ rest => exact absurd ⟨section_, rest, .inl owner⟩ (quiet .work)
      | returning _ | dropped _ | panicked =>
        rw [owner] at works
        cases works
    | stopping owner stops =>
      cases stops <;> exact absurd ⟨_, _, .inr (.inl owner)⟩ (quiet .work)
    | dropping owner drops =>
      cases drops <;> exact absurd ⟨_, _, .inr (.inr owner)⟩ (quiet .work)
    | @shutDown list _ owner _ _ shut =>
      rw [shut.emptied, owner]
      cases list with
      | nil => exact ⟨rfl, rfl⟩
      | cons section_ rest => exact absurd ⟨section_, rest, .inr (.inl owner)⟩ (quiet .work)
    | @lost list owner gone _ =>
      rw [gone.emptied, owner]
      cases list with
      | nil => exact ⟨rfl, rfl⟩
      | cons section_ rest => exact absurd ⟨section_, rest, .inr (.inr owner)⟩ (quiet .work)
  intro reply inside unresolved
  have owes := (orderly.accounted.balanced.owed_iff reply).mpr
    ⟨orderly.queue.size ▸ inside, unresolved⟩
  rw [idle.1, sections, idle.2, refused] at owes
  cases owes

omit [DurableStore σ] in
/-- A closed mailbox tells whether the driver shut down or was lost. -/
theorem Orderly.closed (orderly : Orderly system) :
    (system.mailbox.ownerState = .shutdown → system.Answered ∧
      ∃ events, system.final = some events ∧ Shut system events system.sections) ∧
      (system.mailbox.ownerState = .ownerDropped → system.Lost) := by
  have unopened {state : DriverOwnerState} (opened : Opened system)
      (reached : system.mailbox.ownerState = state) (other : state ≠ .running) : False :=
    other (reached.symm.trans opened.running)
  cases orderly.phase with
  | working _ opened | stopping _ _ opened | dropping _ _ opened =>
    exact ⟨fun reached => (unopened opened reached nofun).elim,
      fun reached => (unopened opened reached nofun).elim⟩
  | shutDown owner final answered shut =>
    refine ⟨fun _ => ⟨answered, _, final, shut⟩, fun reached => ?_⟩
    unfold MailboxState.ownerState at reached
    rw [shut.kept, shut.closed] at reached
    cases reached
  | lost owner gone _ =>
    refine ⟨fun reached => ?_, fun _ => ⟨_, owner⟩⟩
    unfold MailboxState.ownerState at reached
    rw [gone.lost] at reached
    cases reached

/-! ### The protocol -/

/-- **What holds between an earlier and a later state of one run.** -/
structure Protocol (first last : DriverProtocol σ ν) : Prop where
  /-- The first result of a future is never overwritten, -/
  kept : ∀ reply result, first.outcome reply = some result → last.outcome reply = some result
  /-- it stays in the shared state until the future returns it, -/
  shown : ∀ reply response result, last.replies.responses[reply]? = some response →
    first.outcome reply = some result → reply ∉ last.replies.received.map Prod.fst →
      response.result = some result
  /-- and it is what the future returns, once. -/
  returned : ∀ reply result, (reply, result) ∈ last.replies.received →
    last.outcome reply = some result
  once : (last.replies.received.map Prod.fst).Nodup
  /-- A future without a result is queued or owed by exactly one party. -/
  held : (last.queued ++ owed last.sections).Nodup ∧ ∀ reply,
    reply ∈ last.queued ++ owed last.sections ↔
      reply < last.requests.length ∧ last.outcome reply = none
  /-- The parties go on for a bounded time, and then every future has its result. -/
  bounded : ∀ events, last.Goes events → events.length ≤ last.weight
  settled : ∀ events, last.Goes events → (∀ event, ¬ (last.run events).Busy event) →
    ∀ reply < last.requests.length, (last.run events).outcome reply ≠ none
  /-- Accepted commands are processed in the order of their submission. -/
  inOrder : last.accepted.Pairwise (· < ·) ∧ last.processed <+: last.accepted ∧
    first.accepted <+: last.accepted ∧ first.processed <+: last.processed
  /-- What is answered after a shutdown is a refusal, or final events that a drain took. -/
  refused : first.Answered ∨ first.mailbox.ownerState = .shutdown → ∀ reply result,
    first.outcome reply = none → last.outcome reply = some result → last.Late reply result
  /-- Each kind of drain gets the final events once. -/
  drained : last.mailbox.ownerState = .shutdown →
    ∃ events, last.final = some events ∧ ∀ kind, last.Drained events kind
  final : ∀ events, first.final = some events → last.final = some events
  delivered : last.mailbox.ownerState = .shutdown → ∀ kind reply result,
    (kind, reply, result) ∈ last.takers →
      last.outcome reply = some result ∨ .complete reply result ∈ last.sections
  /-- What is answered after the loss of the owner says so. -/
  lost : first.Lost ∨ first.mailbox.ownerState = .ownerDropped → ∀ reply result,
    first.outcome reply = none → last.outcome reply = some result → result = .error .ownerDropped
  /-- The state of the owner moves once, away from running. -/
  ownerState : first.mailbox.ownerState = .running ∨
    last.mailbox.ownerState = first.mailbox.ownerState
  /-- No command waits beside a waker that was not signalled. -/
  woken : last.mailbox.commands ≠ [] → last.mailbox.waker = false
  /-- The run future finds no closed mailbox when it waits for a command. -/
  unpanicked : last.owner ≠ .panicked

/-- **The mailbox protocol of a driver**, between any two states of any run of its handles, its run
future and its dispatcher. -/
theorem mailbox_protocol (runtime : Runtime σ ν) (earlier later : List ProtocolEvent) :
    Protocol ((new runtime).run earlier) (((new runtime).run earlier).run later) := by
  obtain ⟨early, _⟩ := (orderly_new runtime).run earlier
  obtain ⟨late, keeps⟩ := early.run later
  have balanced := late.accounted.balanced
  refine ⟨keeps.outcome, fun reply response result held found hidden => ?_, balanced.returned,
    balanced.once, ⟨balanced.nodup, fun reply => ?_⟩, fun events goes => ?_,
    fun events goes quiet reply inside => ?_,
    ⟨late.queue.rising, late.queue.processed, keeps.accepted, keeps.processed⟩, fun stopped => ?_,
    fun stopped => ?_, keeps.final, fun stopped => ?_, fun gone => ?_, keeps.ownerState,
    late.queue.woken, fun panicked => ?_⟩
  · exact balanced.shown reply response result held (keeps.outcome reply result found) hidden
  · rw [late.queue.size]
    exact balanced.owed_iff reply
  · have bound := goes.bounded
    omega
  · obtain ⟨last, more⟩ := late.run events
    exact last.settled quiet reply (Nat.lt_of_lt_of_le inside more.requests.length_le)
  · exact keeps.late (stopped.elim id fun closed => (early.closed.1 closed).1)
  · obtain ⟨_, events, final, shut⟩ := late.closed.1 stopped
    exact ⟨events, final, shut.drained⟩
  · obtain ⟨_, events, _, shut⟩ := late.closed.1 stopped
    exact shut.delivered
  · exact (keeps.lost (gone.elim id early.closed.2)).2
  · cases late.phase with
    | working works =>
      rw [panicked] at works
      cases works
    | stopping owner | shutDown owner | dropping owner | lost owner =>
      rw [panicked] at owner
      cases owner

end DriverProtocol

end Kernis
