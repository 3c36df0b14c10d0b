/-
**The numbers of a lossy stream add up.**

A sequencer numbers the items of a stream, a lossy buffer drops the oldest ones, and a tracker observes
those that are popped.

* `SequenceTracker.observe` — how an item follows the last one that was observed.
* `LossyStream.run` — emissions and pops in any order, with the items and reports so far.
* `Booked` — what each step keeps: the pending items are numbered behind all that have passed.
* `accounting_exact` — the gaps that are reported count the items that were dropped.
-/

import Kernis.Stream

namespace Kernis

/-! ### The tracker -/

/-- Result of observing one sequence in a stream. -/
inductive SequenceObservation
  | first (actual : Nat)
  | inOrder (actual : Nat)
  | gap (expected actual : Nat)
  | duplicateOrReordered (last actual : Nat)
deriving DecidableEq

/-- The tracker is bound to one stream. -/
inductive StreamError
  | streamMismatch (expected actual : Id)
deriving DecidableEq

/-- Consumer-side tracker for one stream's sequence continuity. -/
structure SequenceTracker where
  streamId : Id
  last : Option Nat
deriving DecidableEq

namespace SequenceTracker

/-- A tracker bound to a stream. -/
def new (streamId : Id) : SequenceTracker := ⟨streamId, none⟩

/-- How a sequence follows the last one. -/
def classify (last : Option Nat) (sequence : Nat) : SequenceObservation :=
  match last with
  | none => if sequence = 1 then .first sequence else .gap 1 sequence
  | some last =>
    match checkedNext last with
    | some expected =>
      if sequence = expected then .inOrder sequence
      else if expected < sequence then .gap expected sequence
      else .duplicateOrReordered last sequence
    | none => .duplicateOrReordered last sequence

/-- Observes one item and classifies its sequence relationship. -/
def observe {α : Type} (tracker : SequenceTracker) (item : StreamItem α) :
    Except StreamError SequenceObservation × SequenceTracker :=
  if item.streamId ≠ tracker.streamId then
    (.error (.streamMismatch tracker.streamId item.streamId), tracker)
  else
    (.ok (classify tracker.last item.sequence),
      if tracker.last.all (· < item.sequence) then { tracker with last := some item.sequence }
      else tracker)

end SequenceTracker

namespace SequenceObservation

/-- How many sequences an observation reports as not observed. -/
def missing : SequenceObservation → Nat
  | .gap expected actual => actual - expected
  | _ => 0

/-- An observation of a newer sequence. A gap has at least one sequence. -/
inductive Newer : SequenceObservation → Prop
  | first (actual : Nat) : Newer (.first actual)
  | inOrder (actual : Nat) : Newer (.inOrder actual)
  | gap {expected actual : Nat} (later : expected < actual) : Newer (.gap expected actual)

end SequenceObservation

/-- How many sequences a report counts as not observed. -/
def missingIn : Except StreamError SequenceObservation → Nat
  | .ok observation => observation.missing
  | .error _ => 0

/-- **A newer item is observed as newer**, and the sequences between are counted. -/
theorem SequenceTracker.observe_newer {α : Type} {tracker : SequenceTracker} {item : StreamItem α}
    (same : item.streamId = tracker.streamId) (newer : tracker.last.getD 0 < item.sequence)
    (valid : item.sequence ≤ u64Max) :
    ∃ observation : SequenceObservation,
      tracker.observe item = (.ok observation, { tracker with last := some item.sequence }) ∧
      observation.Newer ∧ observation.missing + tracker.last.getD 0 + 1 = item.sequence := by
  have observed : tracker.observe item = (.ok (classify tracker.last item.sequence),
      { tracker with last := some item.sequence }) := by
    unfold SequenceTracker.observe
    rw [if_neg (not_not.mpr same), if_pos]
    cases last : tracker.last with
    | none => rfl
    | some last =>
      rw [last] at newer
      exact decide_eq_true newer
  refine ⟨_, observed, ?_⟩
  unfold classify
  cases last : tracker.last with
  | none =>
    rw [last, Option.getD_none] at newer
    simp only [Option.getD_none]
    by_cases first : item.sequence = 1
    · rw [if_pos first]
      exact ⟨.first _, first.symm⟩
    · rw [if_neg first]
      refine ⟨.gap (by omega), ?_⟩
      show item.sequence - 1 + 0 + 1 = item.sequence
      omega
  | some before =>
    rw [last, Option.getD_some] at newer
    simp only [Option.getD_some]
    have room : before < u64Max := by omega
    rw [checkedNext_of_lt room]
    simp only
    by_cases next : item.sequence = before + 1
    · rw [if_pos next]
      refine ⟨.inOrder _, ?_⟩
      show 0 + before + 1 = item.sequence
      omega
    · have later : before + 1 < item.sequence := by omega
      rw [if_neg next, if_pos later]
      refine ⟨.gap later, ?_⟩
      show item.sequence - (before + 1) + before + 1 = item.sequence
      omega

/-! ### The buffer -/

/-- A push drops the oldest item, or nothing. -/
theorem LossyBuffer.push_cases {α : Type} (buffer : LossyBuffer α) (item : StreamItem α) :
    (∃ oldest rest, buffer.items = oldest :: rest ∧ (buffer.push item).1 = some oldest ∧
      (buffer.push item).2.items = rest ++ [item]) ∨
    ((buffer.push item).1 = none ∧ (buffer.push item).2.items = buffer.items ++ [item]) := by
  unfold LossyBuffer.push
  split
  · rename_i full
    have nonempty : buffer.items ≠ [] := by
      have positive := buffer.positive
      intro empty
      rw [empty, List.length_nil] at full
      omega
    obtain ⟨oldest, rest, pending⟩ := List.exists_cons_of_ne_nil nonempty
    refine .inl ⟨oldest, rest, pending, ?_, ?_⟩
    · simp only
      rw [pending, List.head?_cons]
    · simp only
      rw [pending, List.tail_cons]
  · exact .inr ⟨rfl, rfl⟩

/-- A pop takes the oldest item, if there is one. -/
theorem LossyBuffer.pop_cases {α : Type} (buffer : LossyBuffer α) :
    (buffer.items = [] ∧ buffer.pop = none) ∨
    ∃ oldest next, buffer.pop = some (oldest, next) ∧ buffer.items = oldest :: next.items := by
  unfold LossyBuffer.pop
  split
  · rename_i empty
    exact .inl ⟨empty, rfl⟩
  · rename_i oldest rest pending
    exact .inr ⟨oldest, _, rfl, pending⟩

/-! ### The stream -/

/-- A sequencer that feeds a lossy buffer whose popped items a tracker observes, with the items and the
reports so far. -/
structure LossyStream (α : Type) where
  sequencer : StreamSequencer
  buffer : LossyBuffer α
  tracker : SequenceTracker
  emitted : List (StreamItem α)
  dropped : List (StreamItem α)
  observed : List (StreamItem α)
  reports : List (Except StreamError SequenceObservation)

/-- What is done next: an emission of a payload, or a pop. -/
inductive LossyStep (α : Type)
  | emit (payload : α)
  | pop
deriving DecidableEq

namespace LossyStream

variable {α : Type}

/-- A stream of which nothing has been emitted. -/
def new (streamId : Id) (capacity : Nat) : Except BufferError (LossyStream α) :=
  match LossyBuffer.new capacity with
  | .error error => .error error
  | .ok buffer => .ok ⟨.new streamId, buffer, .new streamId, [], [], [], []⟩

/-- Emits a payload and pushes the item. -/
def emit (stream : LossyStream α) (payload : α) : LossyStream α :=
  match stream.sequencer.emit payload with
  | (.error _, sequencer) => { stream with sequencer }
  | (.ok item, sequencer) =>
    { stream with
      sequencer
      buffer := (stream.buffer.push item).2
      emitted := stream.emitted ++ [item]
      dropped := stream.dropped ++ (stream.buffer.push item).1.toList }

/-- Pops an item and observes it. -/
def observe (stream : LossyStream α) : LossyStream α :=
  match stream.buffer.pop with
  | none => stream
  | some (item, buffer) =>
    { stream with
      buffer
      tracker := (stream.tracker.observe item).2
      observed := stream.observed ++ [item]
      reports := stream.reports ++ [(stream.tracker.observe item).1] }

/-- An emission or a pop. -/
def step (stream : LossyStream α) : LossyStep α → LossyStream α
  | .emit payload => stream.emit payload
  | .pop => stream.observe

/-- Emissions and pops in any order. -/
def run (stream : LossyStream α) (steps : List (LossyStep α)) : LossyStream α :=
  steps.foldl step stream

end LossyStream

/-! ### What the steps keep -/

/-- A sequencer that has emitted a number of items. -/
inductive Numbering (streamId : Id) : StreamSequencer → Nat → Prop
  | live {count : Nat} (room : count < u64Max) : Numbering streamId ⟨streamId, count + 1, false⟩ count
  | spent : Numbering streamId ⟨streamId, u64Max, true⟩ u64Max

namespace Numbering

variable {α : Type} {streamId : Id} {sequencer : StreamSequencer} {count : Nat}

/-- A sequencer emits no more than the largest sequence. -/
theorem within (numbering : Numbering streamId sequencer count) : count ≤ u64Max := by
  cases numbering with
  | live room => exact Nat.le_of_lt room
  | spent => exact Nat.le_refl _

/-- **An emission takes the next sequence**, up to the largest one. -/
theorem emit (numbering : Numbering streamId sequencer count) (payload : α) :
    (∃ next, sequencer.emit payload = (.ok ⟨streamId, count + 1, payload⟩, next) ∧ count < u64Max ∧
      Numbering streamId next (count + 1)) ∨
    (sequencer.emit payload = (.error ⟨streamId, u64Max⟩, sequencer) ∧ count = u64Max) := by
  cases numbering with
  | spent => exact .inr ⟨rfl, rfl⟩
  | live room =>
    left
    by_cases more : count + 1 < u64Max
    · exact ⟨_, StreamSequencer.emit_of_lt payload rfl more, room, .live more⟩
    · have full : count + 1 = u64Max := by omega
      refine ⟨⟨streamId, u64Max, true⟩, ?_, room, ?_⟩
      · unfold StreamSequencer.emit checkedNext
        simp only
        rw [if_neg (by decide), if_neg more, full]
      · rw [full]
        exact .spent

end Numbering

namespace LossyStream

variable {α : Type} {streamId : Id} {stream : LossyStream α}

/-- How many items have left the buffer. -/
def passed (stream : LossyStream α) : Nat := stream.dropped.length + stream.observed.length

/-- How many sequences the reports count as not observed. -/
def missing (stream : LossyStream α) : Nat := (stream.reports.map missingIn).sum

/-- The last sequence that was observed, or zero. -/
def lastObserved (stream : LossyStream α) : Nat := stream.tracker.last.getD 0

/-- **What the steps keep**: the items that have passed and the pending ones are those emitted, and the
pending ones are numbered on from those that have passed. -/
structure Booked (streamId : Id) (stream : LossyStream α) : Prop where
  numbering : Numbering streamId stream.sequencer stream.emitted.length
  bound : stream.tracker.streamId = streamId
  emitted : stream.emitted.map StreamItem.sequence = List.range' 1 stream.emitted.length
  owned : ∀ item ∈ stream.emitted, item.streamId = streamId
  kept : stream.emitted.Perm (stream.dropped ++ stream.observed ++ stream.buffer.items)
  pending : stream.buffer.items.map StreamItem.sequence =
    List.range' (stream.passed + 1) stream.buffer.items.length
  dropped : ∀ item ∈ stream.dropped, item.sequence ≤ stream.passed
  reached : stream.lastObserved ≤ stream.passed
  last : stream.tracker.last = stream.observed.getLast?.map StreamItem.sequence
  newer : ∀ report ∈ stream.reports, ∃ observation, report = .ok observation ∧ observation.Newer
  total : stream.missing + stream.observed.length = stream.lastObserved
  counted : (stream.dropped.filter fun item => item.sequence < stream.lastObserved).length =
    stream.missing

namespace Booked

/-- Every emitted item has passed or is pending. -/
theorem length (booked : Booked streamId stream) :
    stream.emitted.length = stream.passed + stream.buffer.items.length := by
  rw [booked.kept.length_eq, List.length_append, List.length_append]
  rfl

/-- The oldest pending item is numbered behind all that have passed. -/
theorem oldest (booked : Booked streamId stream) {item : StreamItem α} {rest : List (StreamItem α)}
    (items : stream.buffer.items = item :: rest) :
    item.sequence = stream.passed + 1 ∧
      rest.map StreamItem.sequence = List.range' (stream.passed + 2) rest.length := by
  have pending := booked.pending
  rw [items, List.map_cons, List.length_cons, List.range'_succ] at pending
  exact List.cons.inj pending

/-- A stream of which nothing has been emitted. -/
theorem start {capacity : Nat} (opened : new streamId capacity = .ok stream) :
    Booked streamId stream := by
  unfold new LossyBuffer.new at opened
  split at opened
  · cases opened
  · rename_i buffer created
    split at created
    · cases created
      cases opened
      exact ⟨.live (by decide), rfl, rfl, (fun _ member => by cases member), .refl _, rfl,
        (fun _ member => by cases member), Nat.le_refl _, rfl, (fun _ member => by cases member), rfl, rfl⟩
    · cases created

/-- The item that is emitted is numbered behind the pending ones. -/
theorem append (booked : Booked streamId stream) {payload : α} {sequencer : StreamSequencer}
    {buffer : LossyBuffer α}
    (numbering : Numbering streamId sequencer (stream.emitted.length + 1))
    (pushed : buffer.items =
      stream.buffer.items ++ [⟨streamId, stream.emitted.length + 1, payload⟩]) :
    Booked streamId { stream with
      sequencer
      buffer
      emitted := stream.emitted ++ [⟨streamId, stream.emitted.length + 1, payload⟩] } where
  numbering := by
    rw [List.length_append]
    exact numbering
  bound := booked.bound
  emitted := by
    rw [List.map_append, booked.emitted, List.length_append, List.length_singleton,
      List.range'_1_concat, List.map_singleton, Nat.add_comm 1]
  owned := by
    intro item member
    rcases List.mem_append.mp member with before | new
    · exact booked.owned item before
    · rw [List.mem_singleton.mp new]
  kept := by
    rw [pushed, ← List.append_assoc]
    exact booked.kept.append_right _
  pending := by
    show buffer.items.map StreamItem.sequence =
      List.range' (stream.passed + 1) buffer.items.length
    rw [pushed, List.map_append, booked.pending, List.length_append, List.length_singleton,
      List.range'_1_concat, List.map_singleton, booked.length, Nat.add_right_comm stream.passed 1]
  dropped := booked.dropped
  reached := booked.reached
  last := booked.last
  newer := booked.newer
  total := booked.total
  counted := booked.counted

/-- An item that is dropped has left the buffer. -/
theorem passed_drop (stream : LossyStream α) (buffer : LossyBuffer α) (oldest : StreamItem α) :
    ({ stream with buffer, dropped := stream.dropped ++ [oldest] } : LossyStream α).passed =
      stream.passed + 1 := by
  show (stream.dropped ++ [oldest]).length + stream.observed.length =
    stream.dropped.length + stream.observed.length + 1
  rw [List.length_append, List.length_singleton]
  omega

/-- The oldest item is dropped. Its sequence is newer than those that were observed. -/
theorem drop (booked : Booked streamId stream) {oldest : StreamItem α} {buffer : LossyBuffer α}
    (items : stream.buffer.items = oldest :: buffer.items) :
    Booked streamId { stream with buffer, dropped := stream.dropped ++ [oldest] } where
  numbering := booked.numbering
  bound := booked.bound
  emitted := booked.emitted
  owned := booked.owned
  kept := by
    refine booked.kept.trans ?_
    rw [items, List.append_assoc, List.append_assoc, List.append_assoc]
    exact List.Perm.append_left _ List.perm_middle
  pending := by
    rw [passed_drop]
    exact (booked.oldest items).2
  dropped := by
    rw [passed_drop]
    intro item member
    rcases List.mem_append.mp member with before | now
    · exact Nat.le_succ_of_le (booked.dropped item before)
    · rw [List.mem_singleton.mp now]
      exact Nat.le_of_eq (booked.oldest items).1
  reached := by
    rw [passed_drop]
    exact Nat.le_succ_of_le booked.reached
  last := booked.last
  newer := booked.newer
  total := booked.total
  counted := by
    have newer : ¬ oldest.sequence < stream.lastObserved := by
      have reached := booked.reached
      rw [(booked.oldest items).1]
      omega
    show ((stream.dropped ++ [oldest]).filter fun item => item.sequence < stream.lastObserved).length =
      stream.missing
    have skipped : [oldest].filter (fun item => item.sequence < stream.lastObserved) = [] :=
      List.filter_cons_of_neg (mt of_decide_eq_true newer)
    rw [List.filter_append, skipped, List.append_nil]
    exact booked.counted

/-- An item that is emitted drops the oldest one, or nothing. -/
theorem emit (booked : Booked streamId stream) (payload : α) :
    Booked streamId (stream.emit payload) := by
  unfold LossyStream.emit
  rcases booked.numbering.emit payload with ⟨next, emits, room, numbering⟩ | ⟨refused, spent⟩
  · rw [emits]
    rcases stream.buffer.push_cases ⟨streamId, stream.emitted.length + 1, payload⟩ with
      ⟨oldest, rest, items, drops, pushed⟩ | ⟨drops, pushed⟩
    · have shorter : rest.length ≤ stream.buffer.capacity := by
        have bounded := stream.buffer.bounded
        rw [items, List.length_cons] at bounded
        omega
      let shortened : LossyBuffer α :=
        ⟨stream.buffer.capacity, rest, stream.buffer.positive, shorter⟩
      have left : stream.buffer.items = oldest :: shortened.items := items
      simp only [drops]
      exact (booked.drop left).append numbering pushed
    · simp only [drops]
      rw [Option.toList_none, List.append_nil]
      exact booked.append numbering pushed
  · rw [refused]
    exact booked

/-- The item that is popped is observed. All that were dropped are older. -/
theorem observe (booked : Booked streamId stream) : Booked streamId stream.observe := by
  unfold LossyStream.observe
  rcases stream.buffer.pop_cases with ⟨empty, nothing⟩ | ⟨item, buffer, popped, items⟩
  · rw [nothing]
    exact booked
  obtain ⟨numbered, left⟩ := booked.oldest items
  have reached := booked.reached
  have length := booked.length
  have member : item ∈ stream.emitted := by
    refine booked.kept.mem_iff.mpr (List.mem_append_right _ ?_)
    rw [items]
    exact List.mem_cons_self
  have same : item.streamId = stream.tracker.streamId :=
    (booked.owned item member).trans booked.bound.symm
  have newer : stream.lastObserved < item.sequence := by omega
  have valid : item.sequence ≤ u64Max := by
    have within := booked.numbering.within
    rw [items, List.length_cons] at length
    omega
  obtain ⟨observation, observed, advances, counts⟩ := SequenceTracker.observe_newer same newer valid
  have total := booked.total
  rw [popped]
  simp only [observed]
  have passed : stream.dropped.length + (stream.observed ++ [item]).length = stream.passed + 1 := by
    rw [List.length_append]
    rfl
  have missing : ((stream.reports ++ [Except.ok observation]).map missingIn).sum =
      stream.missing + observation.missing := by
    rw [List.map_append, List.sum_append]
    rfl
  exact {
    numbering := booked.numbering
    bound := booked.bound
    emitted := booked.emitted
    owned := booked.owned
    kept := by
      refine booked.kept.trans ?_
      rw [items, List.append_cons, List.append_assoc stream.dropped]
    pending := by
      unfold LossyStream.passed
      rw [passed]
      exact left
    dropped := by
      unfold LossyStream.passed
      rw [passed]
      exact fun item member => Nat.le_succ_of_le (booked.dropped item member)
    reached := by
      unfold LossyStream.passed
      rw [passed]
      exact Nat.le_of_eq numbered
    last := by rw [List.getLast?_concat, Option.map_some]
    newer := by
      intro report member
      rcases List.mem_append.mp member with before | now
      · exact booked.newer report before
      · exact ⟨observation, List.mem_singleton.mp now, advances⟩
    total := by
      show ((stream.reports ++ [Except.ok observation]).map missingIn).sum +
        (stream.observed ++ [item]).length = item.sequence
      rw [missing, List.length_append, List.length_singleton]
      unfold lastObserved at total
      omega
    counted := by
      show (stream.dropped.filter fun other => other.sequence < item.sequence).length =
        ((stream.reports ++ [Except.ok observation]).map missingIn).sum
      have older : ∀ other ∈ stream.dropped, decide (other.sequence < item.sequence) = true := by
        intro other member
        have before := booked.dropped other member
        exact decide_eq_true (by omega)
      rw [List.filter_eq_self.mpr older, missing]
      unfold lastObserved at total
      unfold LossyStream.passed at numbered
      omega }

/-- Every run keeps the books. -/
theorem run (booked : Booked streamId stream) (steps : List (LossyStep α)) :
    Booked streamId (stream.run steps) := by
  induction steps generalizing stream with
  | nil => exact booked
  | cons step rest ih =>
    cases step with
    | emit payload => exact ih (booked.emit payload)
    | pop => exact ih booked.observe

end Booked

/-- **The numbers of a lossy stream.** The emitted sequences are contiguous, and an emission fails after
the largest one; every report is of a newer item; and the gaps that are reported count the items that were
dropped before the last one observed. -/
structure Accounted (streamId : Id) (stream : LossyStream α) : Prop where
  contiguous : stream.emitted.map StreamItem.sequence = List.range' 1 stream.emitted.length
  within : stream.emitted.length ≤ u64Max
  emits : ∀ payload : α, (stream.sequencer.emit payload).1 =
    if stream.emitted.length < u64Max then .ok ⟨streamId, stream.emitted.length + 1, payload⟩
    else .error ⟨streamId, u64Max⟩
  kept : stream.emitted.Perm (stream.dropped ++ stream.observed ++ stream.buffer.items)
  newer : ∀ report ∈ stream.reports, ∃ observation, report = .ok observation ∧ observation.Newer
  last : stream.tracker.last = stream.observed.getLast?.map StreamItem.sequence
  total : stream.missing + stream.observed.length = stream.lastObserved
  counted : (stream.dropped.filter fun item => item.sequence < stream.lastObserved).length =
    stream.missing

/-- **Sequence accounting is exact**, for every capacity and every order of emissions and pops. -/
theorem accounting_exact (capacity : Nat) (opened : new streamId capacity = .ok stream)
    (steps : List (LossyStep α)) : Accounted streamId (stream.run steps) := by
  have booked := (Booked.start opened).run steps
  refine ⟨booked.emitted, booked.numbering.within, fun payload => ?_, booked.kept, booked.newer,
    booked.last, booked.total, booked.counted⟩
  rcases booked.numbering.emit payload with ⟨next, emits, room, _⟩ | ⟨refused, spent⟩
  · rw [emits, if_pos room]
  · rw [refused, spent, if_neg (Nat.lt_irrefl _)]

/-- The stream of the sample. -/
def sampleTelemetry : Id := ⟨"telemetry".toList, by decide⟩

/-- With room for one item, the second item drops the first one, and is observed after a gap. -/
theorem accounting_exact_sample : ∃ stream : LossyStream Nat, new sampleTelemetry 1 = .ok stream ∧
    (stream.run [.emit 7, .emit 8, .pop, .emit 9, .pop]).reports =
      [.ok (.gap 1 2), .ok (.inOrder 3)] ∧
    Accounted sampleTelemetry (stream.run [.emit 7, .emit 8, .pop, .emit 9, .pop]) :=
  ⟨_, rfl, by decide +kernel, accounting_exact 1 rfl [.emit 7, .emit 8, .pop, .emit 9, .pop]⟩

end LossyStream

end Kernis
