/-
**What the execution sequencer emits.**

A lifecycle item is numbered once, when an admission or a completion has been accepted, and is then
enqueued or handed back. This file follows the numbered items of an operation, whatever becomes of
them.

* `Operation.emissions` — the items that an operation makes the execution sequencer emit, in order.
* `Numbered` — they carry consecutive numbers, from the sequencer's next one on.
* `Conveys` — they go behind the buffered items, and the last one may be handed back.
* `conveys_command` — a command of a runtime with nothing parked conveys what it emits, and parks
  nothing but the item that it hands back.
-/

import Kernis.Runtime.Delivery

namespace Kernis

open Std Fallible

/-! ### Numbers -/

/-- **Consecutive numbers** from the sequencer's next one on, and none once it is exhausted. -/
structure Numbered (sequencer : StreamSequencer) (items : List (StreamItem RuntimeEvent))
    (next : StreamSequencer) : Prop where
  consecutive : items.map StreamItem.sequence = List.range' sequencer.nextSequence items.length
  follows : next.exhausted = false → next.nextSequence = sequencer.nextSequence + items.length
  silent : sequencer.exhausted = true → items = [] ∧ next.exhausted = true

namespace Numbered

theorem refl (sequencer : StreamSequencer) : Numbered sequencer [] sequencer :=
  ⟨rfl, fun _ => rfl, fun exhausted => ⟨rfl, exhausted⟩⟩

theorem trans {sequencer middle next : StreamSequencer} {first second : List (StreamItem RuntimeEvent)}
    (one : Numbered sequencer first middle) (two : Numbered middle second next) :
    Numbered sequencer (first ++ second) next := by
  by_cases exhausted : middle.exhausted = true
  · obtain ⟨rfl, ended⟩ := two.silent exhausted
    rw [List.append_nil]
    refine ⟨one.consecutive, fun live => ?_, fun spent => ⟨(one.silent spent).1, ended⟩⟩
    rw [ended] at live
    cases live
  · have between := one.follows (Bool.eq_false_iff.mpr exhausted)
    refine ⟨?_, fun live => ?_, fun spent => absurd (one.silent spent).2 exhausted⟩
    · rw [List.map_append, one.consecutive, two.consecutive, between, List.length_append,
        List.range'_append_1]
    · rw [two.follows live, between, List.length_append, Nat.add_assoc]

/-- One emission. -/
theorem emit {sequencer next : StreamSequencer} {event : RuntimeEvent}
    {item : StreamItem RuntimeEvent} (emitted : sequencer.emit event = (.ok item, next)) :
    Numbered sequencer [item] next := by
  unfold StreamSequencer.emit at emitted
  split at emitted
  · cases emitted
  · rename_i live
    simp only at emitted
    split at emitted
    · rename_i following advanced
      obtain ⟨_, rfl⟩ := checkedNext_eq_some advanced
      cases emitted
      exact ⟨rfl, fun _ => rfl, fun exhausted => absurd exhausted live⟩
    · cases emitted
      exact ⟨rfl, fun none => (by cases none), fun exhausted => absurd exhausted live⟩

/-- The numbers grow. -/
theorem increasing {sequencer next : StreamSequencer} {items : List (StreamItem RuntimeEvent)}
    (numbered : Numbered sequencer items next) :
    (items.map StreamItem.sequence).Pairwise (· < ·) := by
  rw [numbered.consecutive]
  exact List.pairwise_lt_range' 1

end Numbered

/-! ### Emissions -/

/-- The item of an emission, if there is one. -/
def emission (sequencer : StreamSequencer) (event : RuntimeEvent) :
    List (StreamItem RuntimeEvent) :=
  match sequencer.emit event with
  | (.ok item, _) => [item]
  | (.error _, _) => []

/-- What is emitted for an action that the store accepted: an admission announces a start, unless the
attempt number cannot advance, and a completion is announced. -/
def Action.emissions {σ ν : Type} (action : Action) (runtime : Runtime σ ν) :
    List (StreamItem RuntimeEvent) :=
  match action with
  | .admission attempt =>
    match checkedNext runtime.nextAttemptNumber with
    | none => []
    | some _ => emission runtime.executionSequencer
        (.taskStarted attempt.runId attempt.taskId attempt.attemptId)
  | .complete fact _ => emission runtime.executionSequencer
      (.taskCompleted runtime.runId fact.taskId fact.attemptId)
  | _ => []

/-- Whether an action announces. -/
def Action.announces : Action → Bool
  | .admission _ | .complete _ _ => true
  | _ => false

/-- The item that an error hands back. -/
def RuntimeError.rejected : RuntimeError → List (StreamItem RuntimeEvent)
  | .executionBackpressure item => [item]
  | _ => []

/-- The item that a result hands back. -/
def rejectedItems {α : Type} : Except RuntimeError α → List (StreamItem RuntimeEvent)
  | .error error => error.rejected
  | .ok _ => []

theorem rejectedItems_map {α β : Type} (result : Except RuntimeError α) (change : α → β) :
    rejectedItems (result.map change) = rejectedItems result := by
  cases result with
  | ok value => rfl
  | error error => rfl

namespace Runtime

variable {σ ν : Type} [DurableStore σ]

/-- What an action emits: nothing when the store refuses. -/
def actEmissions (action : Action) (runtime : Runtime σ ν) : List (StreamItem RuntimeEvent) :=
  match DurableStore.commit (action.request runtime) runtime.store with
  | (.error _, _) => []
  | (.ok _, _) => action.emissions runtime

end Runtime

/-- What the first action of a decision emits. -/
def Decision.emissions {σ ν : Type} [DurableStore σ] (runtime : Runtime σ ν) :
    Decision → List (StreamItem RuntimeEvent)
  | .halt _ => []
  | .act action _ => runtime.actEmissions action

/-- What a command emits. It starts over at most once (`not_again_twice`), and the dispatch that may
follow an admission emits nothing. -/
def Command.emissions {σ ν : Type} [DurableStore σ] (command : Command) (runtime : Runtime σ ν) :
    List (StreamItem RuntimeEvent) :=
  match command.decide runtime with
  | .act action .again =>
    match Runtime.act action runtime with
    | (.ok (), reached) => runtime.actEmissions action ++ (command.decide reached).emissions reached
    | (.error _, _) => runtime.actEmissions action
  | decision => decision.emissions runtime

/-- What the scheduler loop emits. -/
def Runtime.stepsEmissions {σ ν : Type} [DurableStore σ] :
    Nat → Runtime σ ν → List (StreamItem RuntimeEvent)
  | 0, _ => []
  | fuel + 1, runtime =>
    Command.step.emissions runtime ++
      match Runtime.step runtime with
      | (.ok result, reached) => if result.goesOn then stepsEmissions fuel reached else []
      | (.error _, _) => []

/-- What an operation emits. -/
def Operation.emissions {σ ν : Type} [DurableStore σ] (runtime : Runtime σ ν) :
    Operation ν → List (StreamItem RuntimeEvent)
  | .command inner => inner.emissions runtime
  | .runUntilBlocked => Runtime.stepsEmissions (runtime.workflow.tasks.length + 1) runtime
  | _ => []

namespace Runtime

variable {σ ν : Type}

/-- **What was emitted goes behind what was buffered**, and the last item may be handed back. -/
structure Conveys (runtime : Runtime σ ν) (items rejected : List (StreamItem RuntimeEvent))
    (reached : Runtime σ ν) : Prop where
  placed : reached.executionEvents.items ++ rejected = runtime.executionEvents.items ++ items
  numbered : Numbered runtime.executionSequencer items reached.executionSequencer

namespace Conveys

variable {runtime middle reached : Runtime σ ν}
  {first second rejected : List (StreamItem RuntimeEvent)}

theorem refl (runtime : Runtime σ ν) : Conveys runtime [] [] runtime :=
  ⟨rfl, .refl _⟩

theorem trans (one : Conveys runtime first [] middle) (two : Conveys middle second rejected reached) :
    Conveys runtime (first ++ second) rejected reached := by
  refine ⟨?_, one.numbered.trans two.numbered⟩
  have between := one.placed
  rw [List.append_nil] at between
  rw [two.placed, between, List.append_assoc]

/-- Nothing was touched. -/
theorem of_same (events : reached.executionEvents = runtime.executionEvents)
    (sequencer : reached.executionSequencer = runtime.executionSequencer) :
    Conveys runtime [] [] reached := by
  refine ⟨by rw [events], ?_⟩
  rw [sequencer]
  exact .refl _

end Conveys

/-- The lifecycle stream and the parked item are as they were. -/
structure Still (runtime reached : Runtime σ ν) : Prop where
  events : reached.executionEvents = runtime.executionEvents
  sequencer : reached.executionSequencer = runtime.executionSequencer
  pending : reached.pendingStarted = runtime.pendingStarted

theorem Still.refl (runtime : Runtime σ ν) : Still runtime runtime := ⟨rfl, rfl, rfl⟩

theorem Still.conveys {runtime reached : Runtime σ ν} (still : Still runtime reached) :
    Conveys runtime [] [] reached := .of_same still.events still.sequencer

/-- A parked item is one that was parked before or the one that is handed back. -/
def Parks (runtime : Runtime σ ν) (rejected : List (StreamItem RuntimeEvent))
    (reached : Runtime σ ν) : Prop :=
  reached.pendingStarted = runtime.pendingStarted ∨
    ∃ attempt item, reached.pendingStarted = some (attempt, item) ∧ rejected = [item]

/-- An emission that is enqueued, or handed back. -/
theorem conveys_push {runtime reached : Runtime σ ν} {event : RuntimeEvent}
    {item : StreamItem RuntimeEvent} {sequencer : StreamSequencer}
    {events : LosslessBuffer RuntimeEvent}
    (emitted : runtime.executionSequencer.emit event = (.ok item, sequencer))
    (pushed : runtime.executionEvents.tryPush item = .ok events)
    (buffered : reached.executionEvents = events)
    (advanced : reached.executionSequencer = sequencer) :
    Conveys runtime (emission runtime.executionSequencer event) [] reached := by
  rw [emission, emitted]
  refine ⟨?_, ?_⟩
  · rw [buffered, items_of_push pushed, List.append_nil]
  · rw [advanced]
    exact .emit emitted

theorem conveys_reject {runtime reached : Runtime σ ν} {event : RuntimeEvent}
    {item rejected : StreamItem RuntimeEvent} {sequencer : StreamSequencer}
    (emitted : runtime.executionSequencer.emit event = (.ok item, sequencer))
    (full : runtime.executionEvents.tryPush item = .error rejected)
    (buffered : reached.executionEvents = runtime.executionEvents)
    (advanced : reached.executionSequencer = sequencer) :
    Conveys runtime (emission runtime.executionSequencer event) [rejected] reached := by
  cases rejected_of_push full
  rw [emission, emitted]
  refine ⟨by rw [buffered], ?_⟩
  rw [advanced]
  exact .emit emitted

/-- No emission: the sequencer is exhausted. -/
theorem conveys_exhausted {runtime reached : Runtime σ ν} {event : RuntimeEvent}
    {error : SequenceError} {sequencer : StreamSequencer}
    (refused : runtime.executionSequencer.emit event = (.error error, sequencer))
    (buffered : reached.executionEvents = runtime.executionEvents)
    (advanced : reached.executionSequencer = sequencer) :
    Conveys runtime (emission runtime.executionSequencer event) [] reached := by
  rw [emission, refused]
  refine .of_same buffered ?_
  rw [advanced, StreamSequencer.emit_error refused]

/-! ### One action -/

theorem conveys_settle (action : Action) (runtime : Runtime σ ν) :
    Conveys runtime (action.emissions runtime) (rejectedItems (action.settle runtime).1)
        (action.settle runtime).2 ∧
      Parks runtime (rejectedItems (action.settle runtime).1) (action.settle runtime).2 := by
  cases action with
  | admission attempt =>
    rw [settle_admission, Action.emissions]
    cases checkedNext runtime.nextAttemptNumber with
    | none => exact ⟨.refl _, .inl rfl⟩
    | some next =>
      simp only
      split
      · exact ⟨conveys_exhausted ‹_› rfl rfl, .inl rfl⟩
      · split
        · exact ⟨conveys_push ‹_› ‹_› rfl rfl, .inl rfl⟩
        · exact ⟨conveys_reject ‹_› ‹_› rfl rfl, .inr ⟨_, _, rfl, rfl⟩⟩
  | complete fact workflow =>
    rw [settle_complete, Action.emissions]
    split
    · exact ⟨conveys_exhausted ‹_› rfl rfl, .inl rfl⟩
    · split
      · exact ⟨conveys_push ‹_› ‹_› rfl rfl, .inl rfl⟩
      · exact ⟨conveys_reject ‹_› ‹_› rfl rfl, .inl rfl⟩
  | _ => exact ⟨.of_same rfl rfl, .inl rfl⟩

variable [DurableStore σ]

/-- **An action conveys what it emits.** -/
theorem conveys_act (action : Action) (runtime : Runtime σ ν) :
    Conveys runtime (runtime.actEmissions action) (rejectedItems (act action runtime).1)
        (act action runtime).2 ∧
      Parks runtime (rejectedItems (act action runtime).1) (act action runtime).2 := by
  rw [act_eq, actEmissions]
  rcases DurableStore.commit (action.request runtime) runtime.store with ⟨_ | result, store⟩
  · exact ⟨.of_same rfl rfl, .inl rfl⟩
  · obtain ⟨conveyed, parks⟩ := conveys_settle action (runtime.accepted store result.revision)
    exact ⟨⟨conveyed.placed, conveyed.numbered⟩, parks⟩

/-! ### Commands -/

omit [DurableStore σ] in
theorem Parks.trans {runtime middle reached : Runtime σ ν}
    {rejected : List (StreamItem RuntimeEvent)} (one : Parks runtime [] middle)
    (two : Parks middle rejected reached) : Parks runtime rejected reached := by
  rcases one with same | ⟨_, _, _, none⟩
  · rcases two with kept | parked
    · exact .inl (kept.trans same)
    · exact .inr parked
  · cases none

omit [DurableStore σ] in
/-- Nothing is parked when nothing was and nothing is handed back. -/
theorem Parks.idle {runtime reached : Runtime σ ν} (parks : Parks runtime [] reached)
    (idle : runtime.pendingStarted = none) : reached.pendingStarted = none := by
  rcases parks with same | ⟨_, _, _, none⟩
  · rw [same, idle]
  · cases none

omit [DurableStore σ] in
/-- A decision to halt hands back nothing when nothing is parked. -/
theorem rejectedItems_halt {command : Command} {runtime : Runtime σ ν}
    {result : Except RuntimeError Reply} (idle : runtime.pendingStarted = none)
    (decided : command.decide runtime = .halt result) : rejectedItems result = [] := by
  cases result with
  | ok reply => rfl
  | error error =>
    have plain := plain_of_halt decided
    cases error with
    | executionBackpressure item =>
      obtain ⟨attempt, pending⟩ := plain
      rw [idle] at pending
      cases pending
    | _ => rfl

/-- An action that announces nothing leaves the lifecycle alone. -/
theorem act_still {action : Action} (silent : action.announces = false) (runtime : Runtime σ ν) :
    rejectedItems (act action runtime).1 = [] ∧ Still runtime (act action runtime).2 := by
  rw [act_eq]
  rcases DurableStore.commit (action.request runtime) runtime.store with ⟨_ | result, store⟩
  · exact ⟨rfl, rfl, rfl, rfl⟩
  · cases action with
    | admission attempt => cases silent
    | complete fact workflow => cases silent
    | _ => exact ⟨rfl, rfl, rfl, rfl⟩

/-- Going on without starting over leaves the lifecycle alone. -/
theorem follow_still (command : Command) {after : After} (single : after ≠ .again)
    (runtime : Runtime σ ν) :
    rejectedItems (command.follow after runtime).1 = [] ∧
      Still runtime (command.follow after runtime).2 := by
  cases after with
  | reply reply => exact ⟨rfl, .refl _⟩
  | again => exact absurd rfl single
  | dispatch operationId attemptId =>
    rw [Command.follow, run_map, rejectedItems_map, recordDispatch_eq]
    cases runtime.journal.persistDispatch ⟨operationId, attemptId⟩ with
    | error error => exact ⟨rfl, .refl _⟩
    | ok journal =>
      simp only [run_map, rejectedItems_map]
      exact act_still rfl runtime

/-- A decision that does not start its command over. -/
theorem conveys_execute {command : Command} {decision : Decision} {runtime : Runtime σ ν}
    (idle : runtime.pendingStarted = none) (decided : command.decide runtime = decision)
    (single : ∀ action, decision ≠ .act action .again) :
    Conveys runtime (decision.emissions runtime)
        (rejectedItems (command.execute decision runtime).1) (command.execute decision runtime).2 ∧
      Parks runtime (rejectedItems (command.execute decision runtime).1)
        (command.execute decision runtime).2 := by
  cases decision with
  | halt result =>
    rw [Command.execute, run_lift, rejectedItems_halt idle decided]
    exact ⟨.refl _, .inl rfl⟩
  | act action after =>
    obtain ⟨conveyed, parks⟩ := conveys_act action runtime
    rw [Command.execute, run_bind, Decision.emissions]
    rcases acted : act action runtime with ⟨error | _, middle⟩
    · rw [acted] at conveyed parks
      exact ⟨conveyed, parks⟩
    · rw [acted] at conveyed parks
      have once : after ≠ .again := fun again => single action (congrArg _ again)
      obtain ⟨none, still⟩ := follow_still command once middle
      simp only
      rw [none]
      refine ⟨?_, parks.trans (.inl still.pending)⟩
      have more := conveyed.trans still.conveys
      rwa [List.append_nil] at more

/-- **A command conveys what it emits**, and parks nothing but the item that it hands back. -/
theorem conveys_command (command : Command) {runtime : Runtime σ ν}
    (idle : runtime.pendingStarted = none) :
    Conveys runtime (command.emissions runtime) (rejectedItems (command.perform runtime).1)
        (command.perform runtime).2 ∧
      Parks runtime (rejectedItems (command.perform runtime).1) (command.perform runtime).2 := by
  rw [Command.perform_eq]
  by_cases twice : ∃ action, command.decide runtime = .act action .again
  · obtain ⟨action, decided⟩ := twice
    obtain ⟨conveyed, parks⟩ := conveys_act action runtime
    simp only [Command.emissions, decided, Command.execute, run_bind]
    rcases acted : act action runtime with ⟨error | _, middle⟩
    · rw [acted] at conveyed parks
      exact ⟨conveyed, parks⟩
    · rw [acted] at conveyed parks
      obtain ⟨more, then_⟩ := conveys_execute (parks.idle idle) rfl fun other again =>
        not_again_twice (decide_chooses decided) acted (decide_chooses again)
      simp only [Command.follow]
      rw [Command.perform_eq]
      exact ⟨conveyed.trans more, parks.trans then_⟩
  · have single : ∀ action, command.decide runtime ≠ .act action .again :=
      fun action decided => twice ⟨action, decided⟩
    have emissions : command.emissions runtime = (command.decide runtime).emissions runtime := by
      unfold Command.emissions
      split
      · exact absurd ‹_› (single _)
      · rfl
    rw [emissions]
    exact conveys_execute idle rfl single

/-! ### Commands that announce nothing -/

theorem actEmissions_silent {action : Action} (silent : action.announces = false)
    (runtime : Runtime σ ν) : runtime.actEmissions action = [] := by
  unfold actEmissions
  split
  · rfl
  · cases action with
    | admission attempt => cases silent
    | complete fact workflow => cases silent
    | _ => rfl

end Runtime

/-- The next decision of a command neither announces nor hands back anything, and is its last. -/
def Command.Quiet {σ ν : Type} (command : Command) (runtime : Runtime σ ν) : Prop :=
  match command.decide runtime with
  | .halt result => rejectedItems result = []
  | .act action after => action.announces = false ∧ after ≠ .again

namespace Runtime

variable {σ ν : Type}

theorem quiet_cancelTask (taskId : Id) (runtime : Runtime σ ν) :
    (Command.cancelTask taskId).Quiet runtime := by
  simp only [Command.Quiet, Command.decide, decideCancel]
  split
  · rename_i decided
    split at decided
    · cases decided
      rfl
    · cases decided
  · rename_i decided
    split at decided
    · cases decided
    · cases decided
      exact ⟨rfl, fun again => by cases again⟩

theorem quiet_recordEffectOutcome (operationId : OperationId) (attemptId : AttemptId)
    (outcome : KnownEffectOutcome) (runtime : Runtime σ ν) :
    (Command.recordEffectOutcome operationId attemptId outcome).Quiet runtime := by
  simp only [Command.Quiet, Command.decide, decideOutcome]
  split
  · rename_i decided
    split at decided
    · cases decided
      rfl
    · cases decided
  · rename_i decided
    split at decided
    · cases decided
    · cases decided
      exact ⟨rfl, fun again => by cases again⟩

variable [DurableStore σ]

/-- **A quiet command leaves the lifecycle alone**, whatever is parked. -/
theorem command_still {command : Command} {runtime : Runtime σ ν} (quiet : command.Quiet runtime) :
    command.emissions runtime = [] ∧ rejectedItems (command.perform runtime).1 = [] ∧
      Still runtime (command.perform runtime).2 := by
  rw [Command.perform_eq]
  unfold Command.Quiet at quiet
  unfold Command.emissions
  cases decided : command.decide runtime with
  | halt result =>
    simp only [decided] at quiet
    exact ⟨rfl, quiet, .refl _⟩
  | act action after =>
    simp only [decided] at quiet
    obtain ⟨silent, single⟩ := quiet
    obtain ⟨none, still⟩ := act_still silent runtime
    refine ⟨?_, ?_⟩
    · split
      · exact absurd rfl (by cases ‹_›; exact single)
      · exact actEmissions_silent silent runtime
    · rw [Command.execute, run_bind]
      rcases acted : act action runtime with ⟨error | _, middle⟩
      · rw [acted] at none still
        exact ⟨none, still⟩
      · rw [acted] at still
        obtain ⟨nothing, then_⟩ := follow_still command single middle
        exact ⟨nothing, then_.events.trans still.events, then_.sequencer.trans still.sequencer,
          then_.pending.trans still.pending⟩

end Runtime

end Kernis
