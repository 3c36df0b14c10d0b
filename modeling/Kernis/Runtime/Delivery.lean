/-
**Delivery of lifecycle items.**

A `Consumer` drains the lifecycle stream and keeps the items that backpressure handed back until a
retry is accepted. Every number that the sequencer gave out is in exactly one of three places: what
was drained, what is buffered, and what the consumer keeps.

* `Conserved` — this, and that a parked item is one that the consumer keeps.
* `lifecycle_delivery` — it holds in every state of a run in which each retry that meets a parked
  item passes that very item.
* `retry_not_enqueued` — without that condition a retry may answer for an item it did not enqueue.
-/

import Kernis.Recovery.Persisted
import Kernis.Runtime.Created

namespace Kernis

open Std Fallible

/-- What a caller has drained, and which rejected items it keeps for a retry. -/
structure Consumer where
  drained : List (StreamItem RuntimeEvent)
  outstanding : List (StreamItem RuntimeEvent)

namespace Consumer

/-- Keeps an item that an error hands back, once. -/
def receive (consumer : Consumer) : RuntimeError → Consumer
  | .executionBackpressure item =>
    if item ∈ consumer.outstanding then consumer
    else { consumer with outstanding := consumer.outstanding ++ [item] }
  | _ => consumer

/-- Follows a result that settles no retry. -/
def after {α : Type} (consumer : Consumer) : Except RuntimeError α → Consumer
  | .error error => consumer.receive error
  | .ok _ => consumer

/-- Follows an operation: drained items are added, and an accepted retry is settled. -/
def observe {ν : Type} (consumer : Consumer) :
    Operation ν → Except RuntimeError Reply → Consumer
  | .drainExecutionEvents, .ok (.lifecycle items) =>
    { consumer with drained := consumer.drained ++ items }
  | .retryExecutionEvent item, .ok _ =>
    { consumer with outstanding := consumer.outstanding.erase item }
  | _, result => consumer.after result

theorem receive_rejected {consumer : Consumer} {item : StreamItem RuntimeEvent}
    (absent : item ∉ consumer.outstanding) :
    consumer.receive (.executionBackpressure item) =
      { consumer with outstanding := consumer.outstanding ++ [item] } := if_neg absent

theorem receive_kept {consumer : Consumer} {item : StreamItem RuntimeEvent}
    (kept : item ∈ consumer.outstanding) :
    consumer.receive (.executionBackpressure item) = consumer := if_pos kept

end Consumer

namespace Runtime

variable {σ ν : Type}

/-- Every place where a lifecycle item can be. -/
def items (runtime : Runtime σ ν) (consumer : Consumer) : List (StreamItem RuntimeEvent) :=
  consumer.drained ++ runtime.executionEvents.items ++ consumer.outstanding

/-- **Each emitted number is in exactly one place**, and a parked item is outstanding. -/
structure Conserved (runtime : Runtime σ ν) (consumer : Consumer) : Prop where
  positive : 1 ≤ runtime.executionSequencer.nextSequence
  numbered : ((runtime.items consumer).map StreamItem.sequence).Perm
    (List.range' 1 runtime.executionSequencer.emitted)
  parked : ∀ attempt item, runtime.pendingStarted = some (attempt, item) →
    item ∈ consumer.outstanding

/-! ### Emissions -/

/-- One more item under the next number. -/
theorem perm_range_succ {numbers more : List Nat} {count : Nat}
    (numbered : numbers.Perm (List.range' 1 count)) (added : more.Perm (numbers ++ [count + 1])) :
    more.Perm (List.range' 1 (count + 1)) := by
  rw [List.range'_1_concat, Nat.add_comm 1 count]
  exact added.trans (numbered.append_right _)

/-- An item under the next number is nowhere yet. -/
theorem Conserved.fresh {runtime : Runtime σ ν} {consumer : Consumer}
    (conserved : Conserved runtime consumer) {item : StreamItem RuntimeEvent}
    (number : item.sequence = runtime.executionSequencer.emitted + 1) :
    item ∉ consumer.outstanding := by
  intro member
  have listed : item.sequence ∈ (runtime.items consumer).map StreamItem.sequence :=
    List.mem_map_of_mem (List.mem_append_right _ member)
  rw [conserved.numbered.mem_iff, List.mem_range'_1, number] at listed
  omega

theorem items_of_push {capacity : LosslessBuffer RuntimeEvent}
    {item : StreamItem RuntimeEvent} {events : LosslessBuffer RuntimeEvent}
    (pushed : capacity.tryPush item = .ok events) : events.items = capacity.items ++ [item] := by
  unfold LosslessBuffer.tryPush at pushed
  split at pushed
  · cases pushed
  · cases pushed
    rfl

theorem subset_of_push {capacity : LosslessBuffer RuntimeEvent} {item : StreamItem RuntimeEvent}
    {events : LosslessBuffer RuntimeEvent} (pushed : capacity.tryPush item = .ok events) :
    capacity.items ⊆ events.items := by
  rw [items_of_push pushed]
  exact List.subset_append_left _ _

theorem rejected_of_push {capacity : LosslessBuffer RuntimeEvent}
    {item rejected : StreamItem RuntimeEvent} (full : capacity.tryPush item = .error rejected) :
    rejected = item := by
  unfold LosslessBuffer.tryPush at full
  split at full
  · cases full
    rfl
  · cases full

/-- A numbered item that was enqueued. -/
theorem Conserved.enqueued {runtime : Runtime σ ν} {consumer : Consumer}
    (conserved : Conserved runtime consumer) {payload : RuntimeEvent}
    {item : StreamItem RuntimeEvent} {sequencer : StreamSequencer}
    {events : LosslessBuffer RuntimeEvent}
    (emitted : runtime.executionSequencer.emit payload = (.ok item, sequencer))
    (pushed : runtime.executionEvents.tryPush item = .ok events) :
    1 ≤ sequencer.nextSequence ∧
      ((consumer.drained ++ events.items ++ consumer.outstanding).map StreamItem.sequence).Perm
        (List.range' 1 sequencer.emitted) := by
  obtain ⟨number, count, positive⟩ := StreamSequencer.emit_ok emitted conserved.positive
  refine ⟨positive, ?_⟩
  rw [count]
  refine perm_range_succ conserved.numbered ?_
  rw [items_of_push pushed, ← number]
  unfold items
  simp only [List.map_append, List.map_cons, List.map_nil, List.append_assoc]
  refine List.Perm.append_left _ (List.Perm.append_left _ ?_)
  exact List.perm_append_comm

/-- A numbered item that was rejected. -/
theorem Conserved.rejected {runtime : Runtime σ ν} {consumer : Consumer}
    (conserved : Conserved runtime consumer) {payload : RuntimeEvent}
    {item : StreamItem RuntimeEvent} {sequencer : StreamSequencer}
    (emitted : runtime.executionSequencer.emit payload = (.ok item, sequencer)) :
    1 ≤ sequencer.nextSequence ∧
      ((consumer.drained ++ runtime.executionEvents.items ++
        (consumer.outstanding ++ [item])).map StreamItem.sequence).Perm
          (List.range' 1 sequencer.emitted) ∧ item ∉ consumer.outstanding := by
  obtain ⟨number, count, positive⟩ := StreamSequencer.emit_ok emitted conserved.positive
  refine ⟨positive, ?_, conserved.fresh number⟩
  rw [count]
  refine perm_range_succ conserved.numbered ?_
  rw [← number]
  unfold items
  simp only [List.map_append, List.map_cons, List.map_nil, List.append_assoc]
  rfl

/-! ### One action -/

/-- Settling keeps every number in one place. -/
theorem Conserved.settle {runtime : Runtime σ ν} {consumer : Consumer}
    (conserved : Conserved runtime consumer) (action : Action) :
    Conserved (action.settle runtime).2 (consumer.after (action.settle runtime).1) := by
  cases action with
  | admission attempt =>
    rw [settle_admission]
    split
    · exact conserved
    · split
      · rename_i refused
        cases StreamSequencer.emit_error refused
        exact ⟨conserved.positive, conserved.numbered, conserved.parked⟩
      · rename_i item sequencer emitted
        split
        · rename_i events pushed
          obtain ⟨positive, numbered⟩ := conserved.enqueued emitted pushed
          exact ⟨positive, numbered, conserved.parked⟩
        · rename_i rejected full
          cases rejected_of_push full
          obtain ⟨positive, numbered, absent⟩ := conserved.rejected emitted
          rw [Consumer.after, Consumer.receive_rejected absent]
          refine ⟨positive, numbered, fun _ _ pending => ?_⟩
          cases pending
          exact List.mem_append_right _ (List.mem_singleton.mpr rfl)
  | complete fact workflow =>
    rw [settle_complete]
    split
    · rename_i refused
      cases StreamSequencer.emit_error refused
      exact ⟨conserved.positive, conserved.numbered, conserved.parked⟩
    · rename_i item sequencer emitted
      split
      · rename_i events pushed
        obtain ⟨positive, numbered⟩ := conserved.enqueued emitted pushed
        exact ⟨positive, numbered, conserved.parked⟩
      · rename_i rejected full
        cases rejected_of_push full
        obtain ⟨positive, numbered, absent⟩ := conserved.rejected emitted
        rw [Consumer.after, Consumer.receive_rejected absent]
        exact ⟨positive, numbered, fun attempt parkedItem pending =>
          List.mem_append_left _ (conserved.parked attempt parkedItem pending)⟩
  | _ => exact ⟨conserved.positive, conserved.numbered, conserved.parked⟩

variable [DurableStore σ]

theorem Conserved.act {runtime : Runtime σ ν} {consumer : Consumer}
    (conserved : Conserved runtime consumer) (action : Action) :
    Conserved (act action runtime).2 (consumer.after (act action runtime).1) := by
  rw [act_eq]
  split
  · exact ⟨conserved.positive, conserved.numbered, conserved.parked⟩
  · rename_i result store _
    have accepted : Conserved (runtime.accepted store result.revision) consumer :=
      ⟨conserved.positive, conserved.numbered, conserved.parked⟩
    exact accepted.settle action

/-! ### One operation -/

omit [DurableStore σ] in
/-- A plain refusal hands back nothing that the consumer does not keep. -/
theorem Conserved.plain {runtime : Runtime σ ν} {consumer : Consumer}
    (conserved : Conserved runtime consumer) {error : RuntimeError} (plain : Plain runtime error) :
    Conserved runtime (consumer.receive error) := by
  cases error with
  | executionBackpressure item =>
    obtain ⟨attempt, pending⟩ := plain
    rw [Consumer.receive_kept (conserved.parked attempt item pending)]
    exact conserved
  | _ => exact conserved

theorem Conserved.command {runtime : Runtime σ ν} {consumer : Consumer}
    (conserved : Conserved runtime consumer) (command : Command) :
    Conserved (command.perform runtime).2 (consumer.after (command.perform runtime).1) := by
  have derivation := perform_performs command runtime
  generalize (command.perform runtime).1 = result at derivation ⊢
  generalize (command.perform runtime).2 = reached at derivation ⊢
  have stepped {runtime reached : Runtime σ ν} {action : Action} {result : Except RuntimeError Unit}
      (acted : Runtime.act action runtime = (result, reached))
      (before : Conserved runtime consumer) : Conserved reached (consumer.after result) := by
    have after := before.act action
    rwa [acted] at after
  induction derivation with
  | @halt runtime result decided =>
    cases result with
    | ok reply => exact conserved
    | error error => exact conserved.plain (plain_of_halt decided)
  | failed chosen acted => exact stepped acted conserved
  | replied chosen acted => exact stepped acted conserved
  | again chosen acted _ ih => exact ih (stepped acted conserved)
  | undispatched chosen acted => exact stepped acted conserved
  | misdispatched chosen acted _ failed => exact stepped failed (stepped acted conserved)
  | dispatched chosen acted _ recorded => exact stepped recorded (stepped acted conserved)

theorem Conserved.runUntilBlocked {runtime : Runtime σ ν} {consumer : Consumer}
    (conserved : Conserved runtime consumer) :
    Conserved (Runtime.runUntilBlocked runtime).2
      (consumer.after (Runtime.runUntilBlocked runtime).1) := by
  have run := runSteps_run (fun runtime : Runtime σ ν => Conserved runtime consumer)
    (fun error runtime => Conserved runtime (consumer.receive error))
    (fun before reply done => by
      have after := before.command .step
      rwa [done] at after)
    (fun before error failed => by
      have after := before.command .step
      rwa [failed] at after)
    (runtime.workflow.tasks.length + 1) [] conserved
  rw [Runtime.runUntilBlocked, run_bind, run_get]
  simp only
  cases result : (runSteps (runtime.workflow.tasks.length + 1) [] runtime).1 with
  | ok answer => exact run.1 answer result
  | error error => exact run.2 error result

omit [DurableStore σ] in
/-- An item taken from the outstanding ones and enqueued. -/
theorem Conserved.retried {runtime : Runtime σ ν} {consumer : Consumer}
    (conserved : Conserved runtime consumer) {item : StreamItem RuntimeEvent}
    {events : LosslessBuffer RuntimeEvent} (kept : item ∈ consumer.outstanding)
    (pushed : runtime.executionEvents.tryPush item = .ok events) :
    ((consumer.drained ++ events.items ++ consumer.outstanding.erase item).map
      StreamItem.sequence).Perm (List.range' 1 runtime.executionSequencer.emitted) := by
  refine List.Perm.trans (List.Perm.map _ ?_) conserved.numbered
  rw [items_of_push pushed]
  unfold items
  simp only [List.append_assoc]
  refine List.Perm.append_left _ (List.Perm.append_left _ ?_)
  exact (List.perm_cons_erase kept).symm

/-- The caller's part: a retried item is one that it keeps. -/
def Outstanding (consumer : Consumer) (operation : Operation ν) : Prop :=
  ∀ item, operation = .retryExecutionEvent item → item ∈ consumer.outstanding

/-- A retry made while an attempt is parked passes the parked item. -/
def ParkedFirst (runtime : Runtime σ ν) (operation : Operation ν) : Prop :=
  ∀ item attempt parked, operation = .retryExecutionEvent item →
    runtime.pendingStarted = some (attempt, parked) → item = parked

omit [DurableStore σ] in
/-- **A retry of the right item enqueues it or hands it back.** -/
theorem retry_cases {runtime : Runtime σ ν} {item : StreamItem RuntimeEvent}
    (parkedFirst : ParkedFirst runtime (.retryExecutionEvent item)) :
    (∃ events attempts, runtime.executionEvents.tryPush item = .ok events ∧
        retryExecutionEvent item runtime = (.ok (), { runtime with
          executionEvents := events
          pendingStarted := none
          attempts := attempts })) ∨
      retryExecutionEvent item runtime = (.error (.executionBackpressure item), runtime) := by
  rw [retryExecutionEvent_eq]
  cases pending : runtime.pendingStarted with
  | none =>
    cases pushed : runtime.executionEvents.tryPush item with
    | ok events =>
      refine .inl ⟨events, runtime.attempts, rfl, ?_⟩
      simp only [← pending]
    | error rejected =>
      cases rejected_of_push pushed
      exact .inr rfl
  | some held =>
    obtain ⟨attempt, parked⟩ := held
    cases parkedFirst item attempt parked rfl pending
    simp only
    cases pushed : runtime.executionEvents.tryPush item with
    | ok events => exact .inl ⟨events, _, rfl, rfl⟩
    | error rejected =>
      cases rejected_of_push pushed
      refine .inr ?_
      simp only [← pending]

theorem Conserved.retry {runtime : Runtime σ ν} {consumer : Consumer}
    (conserved : Conserved runtime consumer) {item : StreamItem RuntimeEvent}
    (kept : item ∈ consumer.outstanding)
    (parkedFirst : ParkedFirst runtime (.retryExecutionEvent item)) :
    Conserved ((Operation.retryExecutionEvent item : Operation ν).perform runtime).2
      (consumer.observe (.retryExecutionEvent item : Operation ν)
        ((Operation.retryExecutionEvent item : Operation ν).perform runtime).1) := by
  rw [Operation.perform, run_map]
  rcases retry_cases parkedFirst with ⟨events, attempts, pushed, retried⟩ | refused
  · rw [retried]
    exact ⟨conserved.positive, conserved.retried kept pushed, fun _ _ pending => by cases pending⟩
  · rw [refused]
    show Conserved runtime (consumer.receive (.executionBackpressure item))
    rw [Consumer.receive_kept kept]
    exact conserved

omit [DurableStore σ] in
theorem drainExecutionEvents_eq (runtime : Runtime σ ν) :
    drainExecutionEvents runtime = (.ok runtime.executionEvents.items,
      { runtime with executionEvents :=
          ⟨runtime.executionEvents.capacity, [], runtime.executionEvents.positive,
            Nat.zero_le _⟩ }) := by
  unfold drainExecutionEvents
  rw [runtime.executionEvents.drain_eq]

theorem Conserved.drain {runtime : Runtime σ ν} {consumer : Consumer}
    (conserved : Conserved runtime consumer) :
    Conserved ((Operation.drainExecutionEvents : Operation ν).perform runtime).2
      (consumer.observe (.drainExecutionEvents : Operation ν)
        ((Operation.drainExecutionEvents : Operation ν).perform runtime).1) := by
  rw [Operation.perform, run_map, drainExecutionEvents_eq]
  refine ⟨conserved.positive, ?_, conserved.parked⟩
  have numbered := conserved.numbered
  unfold items at numbered
  show (((consumer.drained ++ runtime.executionEvents.items) ++ [] ++ consumer.outstanding).map
    StreamItem.sequence).Perm _
  rw [List.append_nil]
  exact numbered

omit [DurableStore σ] in
/-- Observations touch nothing that is counted. -/
theorem Conserved.observes {runtime reached : Runtime σ ν} {consumer : Consumer}
    (conserved : Conserved runtime consumer) (observed : Observes runtime reached) :
    Conserved reached consumer := by
  obtain ⟨_, _, _, _, _, rfl⟩ := observed
  exact ⟨conserved.positive, conserved.numbered, conserved.parked⟩

/-- What a consumer makes of an observation: nothing. -/
theorem observe_observes {runtime : Runtime σ ν} (consumer : Consumer) {operation : Operation ν}
    (observing : operation.observes = true) :
    consumer.observe operation (operation.perform runtime).1 = consumer := by
  have refusals := (perform_observes observing runtime).2
  have quiet : ∀ result, consumer.observe operation result = consumer.after result := by
    intro result
    cases operation with
    | drainExecutionEvents => cases observing
    | retryExecutionEvent item => cases observing
    | _ => cases result <;> rfl
  rw [quiet]
  cases result : (operation.perform runtime).1 with
  | error error =>
    rcases refusals error result with rfl | ⟨exhausted, rfl⟩
    · rfl
    · rfl
  | ok reply => rfl

/-- **Every operation that meets the condition keeps every number in one place.** -/
theorem Conserved.perform {runtime : Runtime σ ν} {consumer : Consumer}
    (conserved : Conserved runtime consumer) {operation : Operation ν}
    (outstanding : Outstanding consumer operation) (parkedFirst : ParkedFirst runtime operation) :
    Conserved (operation.perform runtime).2
      (consumer.observe operation (operation.perform runtime).1) := by
  cases observing : operation.observes with
  | true =>
    rw [observe_observes consumer observing]
    exact conserved.observes (perform_observes observing runtime).1
  | false =>
    cases operation with
    | command command => exact conserved.command command
    | runUntilBlocked =>
      have ran := conserved.runUntilBlocked
      rw [Operation.perform, run_map]
      cases result : (Runtime.runUntilBlocked runtime).1 with
      | error error =>
        rw [result] at ran
        exact ran
      | ok results =>
        rw [result] at ran
        exact ran
    | drainExecutionEvents => exact conserved.drain
    | retryExecutionEvent item => exact conserved.retry (outstanding item rfl) parkedFirst
    | _ => cases observing

/-! ### Items stay where they can be found -/

/-- Nothing that was buffered is gone. -/
def Buffers (runtime reached : Runtime σ ν) : Prop :=
  runtime.executionEvents.items ⊆ reached.executionEvents.items

theorem buffers_act (action : Action) (runtime : Runtime σ ν) :
    Buffers runtime (act action runtime).2 := by
  rw [act_eq]
  split
  · exact fun _ member => member
  · cases action with
    | admission attempt =>
      rw [settle_admission]
      split
      · exact fun _ member => member
      · split
        · exact fun _ member => member
        · split
          · exact subset_of_push ‹_›
          · exact fun _ member => member
    | complete fact workflow =>
      rw [settle_complete]
      split
      · exact fun _ member => member
      · split
        · exact subset_of_push ‹_›
        · exact fun _ member => member
    | _ => exact fun _ member => member

theorem buffers_command (command : Command) (runtime : Runtime σ ν) :
    Buffers runtime (command.perform runtime).2 :=
  perform_preserves (Buffers runtime) (fun _ before => List.Subset.trans before (buffers_act _ _)) command
    fun _ member => member

theorem buffers_runUntilBlocked (runtime : Runtime σ ν) :
    Buffers runtime (Runtime.runUntilBlocked runtime).2 := by
  have run := runSteps_run (Buffers runtime) (fun _ reached => Buffers runtime reached)
    (fun before _ _ => List.Subset.trans before (buffers_command .step _))
    (fun before _ _ => List.Subset.trans before (buffers_command .step _))
    (runtime.workflow.tasks.length + 1) [] (fun _ member => member)
  rw [Runtime.runUntilBlocked, run_bind, run_get]
  simp only
  cases result : (runSteps (runtime.workflow.tasks.length + 1) [] runtime).1 with
  | ok answer => exact run.1 answer result
  | error error => exact run.2 error result

end Runtime

theorem Consumer.subset_after {α : Type} (consumer : Consumer) (result : Except RuntimeError α) :
    (consumer.after result).drained = consumer.drained ∧
      consumer.outstanding ⊆ (consumer.after result).outstanding := by
  cases result with
  | ok value => exact ⟨rfl, fun _ member => member⟩
  | error error =>
    cases error with
    | executionBackpressure item =>
      by_cases kept : item ∈ consumer.outstanding
      · rw [after, receive_kept kept]
        exact ⟨rfl, fun _ member => member⟩
      · rw [after, receive_rejected kept]
        exact ⟨rfl, List.subset_append_left _ _⟩
    | _ => exact ⟨rfl, fun _ member => member⟩

namespace Runtime

variable {σ ν : Type} [DurableStore σ]

omit [DurableStore σ] in
/-- More buffered, and a result that settles no retry. -/
theorem items_subset_after {α : Type} {runtime reached : Runtime σ ν} (consumer : Consumer)
    (buffers : Buffers runtime reached) (result : Except RuntimeError α) :
    runtime.items consumer ⊆ reached.items (consumer.after result) := by
  obtain ⟨drained, outstanding⟩ := consumer.subset_after result
  unfold items
  rw [drained]
  intro item member
  rcases List.mem_append.mp member with early | kept
  · rcases List.mem_append.mp early with returned | buffered
    · exact List.mem_append_left _ (List.mem_append_left _ returned)
    · exact List.mem_append_left _ (List.mem_append_right _ (buffers buffered))
  · exact List.mem_append_right _ (outstanding kept)

omit [DurableStore σ] in
theorem items_subset_retry {runtime : Runtime σ ν} (consumer : Consumer)
    {item : StreamItem RuntimeEvent}
    (parkedFirst : ParkedFirst runtime (.retryExecutionEvent item : Operation ν)) :
    runtime.items consumer ⊆ (retryExecutionEvent item runtime).2.items
      (consumer.observe (.retryExecutionEvent item : Operation ν)
        ((retryExecutionEvent item runtime).1.map fun _ => .done)) := by
  rcases retry_cases parkedFirst with ⟨events, attempts, pushed, retried⟩ | refused
  · rw [retried]
    show runtime.items consumer ⊆
      consumer.drained ++ events.items ++ consumer.outstanding.erase item
    rw [items_of_push pushed]
    intro other member
    simp only [items, List.mem_append, List.mem_singleton] at member ⊢
    by_cases same : other = item
    · exact .inl (.inr (.inr same))
    · rw [List.mem_erase_of_ne same]
      tauto
  · rw [refused]
    have kept : Buffers runtime runtime := fun _ member => member
    exact items_subset_after consumer kept
      (.error (.executionBackpressure item) : Except RuntimeError Reply)

/-- **No item is lost or exchanged** by an operation that meets the condition. -/
theorem items_subset_perform {runtime : Runtime σ ν} (consumer : Consumer)
    {operation : Operation ν} (parkedFirst : ParkedFirst runtime operation) :
    runtime.items consumer ⊆ (operation.perform runtime).2.items
      (consumer.observe operation (operation.perform runtime).1) := by
  cases observing : operation.observes with
  | true =>
    rw [observe_observes consumer observing]
    obtain ⟨_, _, _, _, _, reached⟩ := (perform_observes observing runtime).1
    rw [reached]
    exact fun _ member => member
  | false =>
    cases operation with
    | command command => exact items_subset_after consumer (buffers_command command runtime) _
    | runUntilBlocked =>
      rw [Operation.perform, run_map]
      exact items_subset_after consumer (buffers_runUntilBlocked runtime) _
    | drainExecutionEvents =>
      rw [Operation.perform, run_map, drainExecutionEvents_eq]
      intro item member
      simp only [items, List.mem_append] at member
      show item ∈ consumer.drained ++ runtime.executionEvents.items ++ [] ++ consumer.outstanding
      simp only [List.mem_append, List.not_mem_nil, or_false]
      exact member
    | retryExecutionEvent item =>
      rw [Operation.perform, run_map]
      exact items_subset_retry consumer parkedFirst
    | _ => cases observing

/-! ### Runs -/

/-- **A runtime and its consumer in a run** whose operations all meet a condition: the caller only
retries items that it keeps. -/
inductive Consumed (condition : Runtime σ ν → Operation ν → Prop) :
    Runtime σ ν → Consumer → Prop
  | created {runtime : Runtime σ ν} (created : Created runtime) :
      Consumed condition runtime ⟨[], []⟩
  | performed {runtime : Runtime σ ν} {consumer : Consumer} {operation : Operation ν}
      (run : Consumed condition runtime consumer) (outstanding : Outstanding consumer operation)
      (meets : condition runtime operation) :
      Consumed condition (operation.perform runtime).2
        (consumer.observe operation (operation.perform runtime).1)

omit [DurableStore σ] in
theorem conserved_of_fresh {runtime : Runtime σ ν} (fresh : Fresh runtime) :
    Conserved runtime ⟨[], []⟩ := by
  obtain ⟨sequencer, events, pending⟩ := fresh
  refine ⟨?_, ?_, fun attempt item held => ?_⟩
  · rw [sequencer]
    decide
  · rw [sequencer, items, events]
    exact List.Perm.refl _
  · rw [pending] at held
    cases held

theorem conserved_of_consumed {runtime : Runtime σ ν} {consumer : Consumer}
    (run : Consumed ParkedFirst runtime consumer) : Conserved runtime consumer := by
  induction run with
  | created created => exact conserved_of_fresh created.fresh
  | performed _ outstanding meets ih => exact ih.perform outstanding meets

/-- **Lossless lifecycle delivery.** In every run whose retries pass the parked item first, each
emitted number is in exactly one place: drained, buffered, or kept by the caller. No operation loses
or exchanges an item, an accepted retry enqueued that very item, and a caller that keeps nothing has
drained every number exactly once after its next drain. -/
theorem lifecycle_delivery (runtime : Runtime σ ν) (consumer : Consumer)
    (run : Consumed ParkedFirst runtime consumer) :
    ((consumer.drained ++ runtime.executionEvents.items ++ consumer.outstanding).map
        StreamItem.sequence).Perm (List.range' 1 runtime.executionSequencer.emitted) ∧
      (∀ operation : Operation ν, ParkedFirst runtime operation → ∀ item,
        item ∈ consumer.drained ++ runtime.executionEvents.items ++ consumer.outstanding →
        item ∈ (operation.perform runtime).2.items
          (consumer.observe operation (operation.perform runtime).1)) ∧
      (∀ item, ParkedFirst runtime (.retryExecutionEvent item : Operation ν) →
        (retryExecutionEvent item runtime).1 = .ok () →
        (retryExecutionEvent item runtime).2.executionEvents.items =
          runtime.executionEvents.items ++ [item]) ∧
      (consumer.outstanding = [] → ∀ items reached,
        drainExecutionEvents runtime = (.ok items, reached) →
        ((consumer.drained ++ items).map StreamItem.sequence).Perm
          (List.range' 1 runtime.executionSequencer.emitted)) := by
  have numbered := (conserved_of_consumed run).numbered
  refine ⟨numbered, fun operation meets item member => items_subset_perform consumer meets member,
    fun item meets accepted => ?_, fun none items reached drained => ?_⟩
  · rcases retry_cases meets with ⟨events, attempts, pushed, retried⟩ | refused
    · rw [retried]
      exact items_of_push pushed
    · rw [refused] at accepted
      cases accepted
  · rw [drainExecutionEvents_eq] at drained
    cases drained
    rw [Runtime.items, none, List.append_nil] at numbered
    exact numbered

/-! ### Concrete runs -/

/-- Performs operations one after the other, followed by a consumer. -/
def followAll (runtime : Runtime σ ν) (consumer : Consumer) (operations : List (Operation ν)) :
    Runtime σ ν × Consumer :=
  operations.foldl (fun (runtime, consumer) operation => ((operation.perform runtime).2,
    consumer.observe operation (operation.perform runtime).1)) (runtime, consumer)

end Runtime

/-- Whether an operation is a retry. -/
def Operation.retries {ν : Type} : Operation ν → Bool
  | .retryExecutionEvent _ => true
  | _ => false

namespace Runtime

variable {σ ν : Type} [DurableStore σ]

omit [DurableStore σ] in
theorem parkedFirst_of_quiet (runtime : Runtime σ ν) {operation : Operation ν}
    (quiet : operation.retries = false) : ParkedFirst runtime operation := by
  rintro item _ _ rfl
  cases quiet

/-- A run goes on with operations that retry nothing. -/
theorem Consumed.followAll {condition : Runtime σ ν → Operation ν → Prop} {runtime : Runtime σ ν}
    {consumer : Consumer} (run : Consumed condition runtime consumer)
    (meets : ∀ (runtime : Runtime σ ν) {operation : Operation ν}, operation.retries = false →
      condition runtime operation)
    (operations : List (Operation ν))
    (quiet : ∀ operation ∈ operations, operation.retries = false) :
    Consumed condition (runtime.followAll consumer operations).1
      (runtime.followAll consumer operations).2 := by
  induction operations generalizing runtime consumer with
  | nil => exact run
  | cons operation rest ih =>
    have silent := quiet operation List.mem_cons_self
    have outstanding : Outstanding consumer operation := by
      rintro item rfl
      cases silent
    exact ih (.performed run outstanding (meets runtime silent))
      fun other member => quiet other (List.mem_cons_of_mem _ member)

end Runtime

/-- The sample operation, safe to repeat, is dispatched until the lifecycle stream is full, and twice
more; then the stream is drained. -/
def sampleOverflow : List (Operation Unit) :=
  .command (.recordEffectIntent sampleTask sampleOperation .idempotent) ::
    List.replicate 130 (.command (.dispatchEffect sampleOperation)) ++ [.drainExecutionEvents]

/-- The caller retries two items, the second one first. -/
def sampleRetries (first second : StreamItem RuntimeEvent) : List (Operation Unit) :=
  [.retryExecutionEvent second, .retryExecutionEvent first]

theorem Runtime.parkedFirst_of_parked {σ ν : Type} {runtime : Runtime σ ν}
    {item : StreamItem RuntimeEvent}
    (parked : (runtime.pendingStarted.map fun pending => pending.2) = some item) :
    ParkedFirst runtime (.retryExecutionEvent item : Operation ν) := by
  rintro _ attempt held ⟨⟩ pending
  rw [pending] at parked
  exact (Option.some.inj parked).symm

/-- A run goes on with the retries of two items, the second one of which is parked. -/
theorem Runtime.Consumed.retries {σ : Type} [DurableStore σ] {runtime : Runtime σ Unit}
    {consumer : Consumer} {first second : StreamItem RuntimeEvent}
    (run : Consumed ParkedFirst runtime consumer) (kept : consumer.outstanding = [first, second])
    (parked : (runtime.pendingStarted.map fun pending => pending.2) = some second)
    (accepted : (retryExecutionEvent second runtime).1 = .ok ()) :
    Consumed ParkedFirst (runtime.followAll consumer (sampleRetries first second)).1
      (runtime.followAll consumer (sampleRetries first second)).2 := by
  have parkedFirst := parkedFirst_of_parked (ν := Unit) parked
  have outstanding : Outstanding consumer (.retryExecutionEvent second : Operation Unit) := by
    rintro _ ⟨⟩
    rw [kept]
    exact List.mem_cons_of_mem _ List.mem_cons_self
  have once := run.performed outstanding parkedFirst
  rcases retry_cases parkedFirst with ⟨events, attempts, pushed, retried⟩ | refused
  · have performed : (Operation.retryExecutionEvent second : Operation Unit).perform runtime =
        (.ok .done, (retryExecutionEvent second runtime).2) := by
      rw [Operation.perform, run_map, retried]
      rfl
    rw [performed] at once
    have last : Outstanding (consumer.observe (.retryExecutionEvent second : Operation Unit)
        (.ok .done)) (.retryExecutionEvent first : Operation Unit) := by
      rintro _ ⟨⟩
      rw [Consumer.observe, kept, List.erase_cons]
      split
      · next same => exact List.mem_singleton.mpr (eq_of_beq same)
      · exact List.mem_cons_self
    have unparked : ParkedFirst (retryExecutionEvent second runtime).2
        (.retryExecutionEvent first : Operation Unit) := by
      rw [retried]
      rintro _ _ _ _ ⟨⟩
    have twice := once.performed last unparked
    rw [← performed] at twice
    exact twice
  · rw [refused] at accepted
    cases accepted

/-- Two items that the full stream rejected are retried, the parked one first. Each is enqueued, and
the next drain completes the delivery of all 130 items. -/
theorem lifecycle_delivery_sample :
    let _ := Persisted.postcard
    ∃ (runtime reached : Runtime InMemoryDurableStore Unit) (consumer : Consumer)
      (first second : StreamItem RuntimeEvent) (items : List (StreamItem RuntimeEvent)),
      sampleStarted = .ok runtime ∧ runtime.followAll ⟨[], []⟩ sampleOverflow = (reached, consumer) ∧
        consumer.outstanding = [first, second] ∧
        (reached.pendingStarted.map fun pending => pending.2) = some second ∧
        (Runtime.retryExecutionEvent second reached).2.executionEvents.items = [second] ∧
        (Runtime.drainExecutionEvents (reached.followAll consumer (sampleRetries first second)).1).1 =
          .ok items ∧
        (((reached.followAll consumer (sampleRetries first second)).2.drained ++ items).map
          StreamItem.sequence).Perm (List.range' 1 130) := by
  intro _
  obtain ⟨runtime, started, holds⟩ := exists_ok_of_any
    (show (sampleStarted.toOption.any fun runtime =>
      let overflowed := runtime.followAll ⟨[], []⟩ sampleOverflow
      overflowed.2.outstanding.length = 2 ∧ overflowed.1.executionEvents.items = [] ∧
        (overflowed.1.pendingStarted.map fun pending => pending.2) =
          overflowed.2.outstanding[1]? ∧
        ∀ first ∈ overflowed.2.outstanding[0]?, ∀ second ∈ overflowed.2.outstanding[1]?,
          (Runtime.retryExecutionEvent second overflowed.1).1 = .ok () ∧
            (overflowed.1.followAll overflowed.2 (sampleRetries first second)).2.outstanding = [] ∧
            (overflowed.1.followAll overflowed.2
              (sampleRetries first second)).1.executionSequencer.emitted = 130) = true by
      decide +kernel)
  obtain ⟨two, empty, parked, retried⟩ := of_decide_eq_true holds
  obtain ⟨first, second, kept⟩ := List.length_eq_two.mp two
  rw [kept] at parked retried
  obtain ⟨accepted, settled, count⟩ := retried first rfl second rfl
  have fresh : Runtime.Consumed Runtime.ParkedFirst runtime ⟨[], []⟩ :=
    .created (.started (.run (.batch .empty sampleWorkflow_built) (Prod.ext started rfl)))
  have run := fresh.followAll Runtime.parkedFirst_of_quiet sampleOverflow (by decide +kernel)
  rcases pair : runtime.followAll ⟨[], []⟩ sampleOverflow with ⟨reached, consumer⟩
  simp only [pair] at kept empty parked accepted settled count run
  have parkedFirst := Runtime.parkedFirst_of_parked (ν := Unit) parked
  have enqueued := (Runtime.lifecycle_delivery _ _ run).2.2.1 second parkedFirst accepted
  rw [empty, List.nil_append] at enqueued
  have retried := run.retries kept parked accepted
  have delivered := (Runtime.lifecycle_delivery _ _ retried).2.2.2 settled _ _
    (Runtime.drainExecutionEvents_eq _)
  rw [count] at delivered
  exact ⟨runtime, reached, consumer, first, second, _, started, pair, kept, parked, enqueued,
    congrArg Prod.fst (Runtime.drainExecutionEvents_eq _), delivered⟩

/-- What the overflow leaves: two rejected items, the second one parked, and an admitted attempt that
the runtime does not hold. -/
structure Overflowed (runtime : Runtime InMemoryDurableStore Unit) (consumer : Consumer) : Prop where
  returned : consumer.drained.map StreamItem.sequence = List.range' 1 128
  rejected : consumer.outstanding.map StreamItem.sequence = [129, 130]
  drained : runtime.executionEvents.items = []
  parked : (runtime.pendingStarted.map fun pending => pending.2.sequence) = some 130
  admitted : ((runtime.store.loadRun runtime.runId).toOption.any fun state =>
    generatedAttemptId sampleRun 129 ∈ state.admissions) = true
  forgotten : generatedAttemptId sampleRun 129 ∉ runtime.known.map TaskAttempt.attemptId

theorem sampleOverflow_reached :
    let _ := Persisted.postcard
    ∃ runtime, sampleStarted = .ok runtime ∧
      Overflowed (runtime.followAll ⟨[], []⟩ sampleOverflow).1
        (runtime.followAll ⟨[], []⟩ sampleOverflow).2 := by
  intro _
  obtain ⟨runtime, started, holds⟩ := exists_ok_of_any
    (show (sampleStarted.toOption.any fun runtime =>
      let reached := runtime.followAll ⟨[], []⟩ sampleOverflow
      reached.2.drained.map StreamItem.sequence = List.range' 1 128 ∧
        reached.2.outstanding.map StreamItem.sequence = [129, 130] ∧
        reached.1.executionEvents.items = [] ∧
        (reached.1.pendingStarted.map fun pending => pending.2.sequence) = some 130 ∧
        ((reached.1.store.loadRun reached.1.runId).toOption.any fun state =>
          generatedAttemptId sampleRun 129 ∈ state.admissions) = true ∧
        generatedAttemptId sampleRun 129 ∉ reached.1.known.map TaskAttempt.attemptId) = true by
      decide +kernel)
  obtain ⟨returned, rejected, drained, parked, admitted, forgotten⟩ := of_decide_eq_true holds
  exact ⟨runtime, started, returned, rejected, drained, parked, admitted, forgotten⟩

/-- The retry of the first rejected item enqueues the second one. -/
theorem Overflowed.retry {runtime : Runtime InMemoryDurableStore Unit} {consumer : Consumer}
    (overflowed : Overflowed runtime consumer) :
    ∃ item ∈ consumer.outstanding, (Runtime.retryExecutionEvent item runtime).1 = .ok () ∧
      item ∉ (Runtime.retryExecutionEvent item runtime).2.items
        (consumer.observe (.retryExecutionEvent item : Operation Unit) (.ok .done)) := by
  obtain ⟨first, others, kept, number, rest⟩ := List.map_eq_cons_iff.mp overflowed.rejected
  obtain ⟨other, nothing, rfl, last, none⟩ := List.map_eq_cons_iff.mp rest
  obtain rfl := List.map_eq_nil_iff.mp none
  obtain ⟨⟨attempt, parked⟩, pending, same⟩ := Option.map_eq_some_iff.mp overflowed.parked
  have second : parked.sequence = 130 := same
  obtain ⟨events, pushed⟩ := runtime.executionEvents.tryPush_of_empty overflowed.drained parked
  have retried := Runtime.retryExecutionEvent_eq first runtime
  simp only [pending, pushed] at retried
  refine ⟨first, by rw [kept]; exact List.mem_cons_self, by rw [retried], ?_⟩
  rw [retried]
  intro found
  have listed : first.sequence ∈ _ := List.mem_map_of_mem found
  simp only [Runtime.items, Consumer.observe, kept, List.erase_cons_head, List.map_append,
    overflowed.returned, Runtime.items_of_push pushed, overflowed.drained, List.mem_append,
    List.nil_append, List.map_cons, List.map_nil, List.mem_singleton, List.mem_range'_1, number,
    last, second] at listed
  omega

/-- **A retry may answer for an item that it did not enqueue**: the first rejected item is settled,
and it is in no place any more. -/
theorem retry_not_enqueued :
    let _ := Persisted.postcard
    ∃ (runtime : Runtime InMemoryDurableStore Unit) (consumer : Consumer)
      (item : StreamItem RuntimeEvent), Runtime.Consumed (fun _ _ => True) runtime consumer ∧
        item ∈ consumer.outstanding ∧ (Runtime.retryExecutionEvent item runtime).1 = .ok () ∧
        item ∉ (Runtime.retryExecutionEvent item runtime).2.items
          (consumer.observe (.retryExecutionEvent item : Operation Unit) (.ok .done)) := by
  intro _
  obtain ⟨runtime, started, overflowed⟩ := sampleOverflow_reached
  have fresh : Runtime.Consumed (fun _ _ => True) runtime ⟨[], []⟩ :=
    .created (.started (.run (.batch .empty sampleWorkflow_built) (Prod.ext started rfl)))
  have run := fresh.followAll (fun _ _ _ => trivial) sampleOverflow (by decide +kernel)
  obtain ⟨item, kept, accepted, lost⟩ := overflowed.retry
  exact ⟨_, _, item, run, kept, accepted, lost⟩

end Kernis
