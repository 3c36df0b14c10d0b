/-
**Execution streams: sequence numbers and bounded buffers.**

* `StreamSequencer.emit` — numbers items from `1` on and refuses after the largest number; `emitted`
  counts them.
* `LosslessBuffer` — a bounded FIFO that hands a rejected item back.
* `CoalescingBuffer` — a bounded FIFO that replaces the pending item of the same stream and key.
* `LossyBuffer` — a bounded FIFO that drops its oldest item.

A buffer carries the facts that its capacity is positive and that it never holds more items.
-/

import Kernis.Core

namespace Kernis

/-- Typed item emitted by a runtime producer. -/
structure StreamItem (α : Type) where
  streamId : Id
  sequence : Nat
  payload : α
deriving DecidableEq

/-- The stream has already emitted its maximum sequence. -/
structure SequenceError where
  streamId : Id
  sequence : Nat
deriving DecidableEq

/-- Producer-side sequence allocator for one stream. -/
structure StreamSequencer where
  streamId : Id
  nextSequence : Nat
  exhausted : Bool
deriving DecidableEq

namespace StreamSequencer

/-- A sequencer starting at the first sequence number. -/
def new (streamId : Id) : StreamSequencer := ⟨streamId, 1, false⟩

/-- Emits one item and advances the sequence without wrapping. -/
def emit {α : Type} (sequencer : StreamSequencer) (payload : α) :
    Except SequenceError (StreamItem α) × StreamSequencer :=
  if sequencer.exhausted then
    (.error ⟨sequencer.streamId, u64Max⟩, sequencer)
  else
    let item : StreamItem α := ⟨sequencer.streamId, sequencer.nextSequence, payload⟩
    match checkedNext sequencer.nextSequence with
    | some next => (.ok item, { sequencer with nextSequence := next })
    | none => (.ok item, { sequencer with exhausted := true })

/-- Below the largest number an emission takes the next one. -/
theorem emit_of_lt {α : Type} {sequencer : StreamSequencer} (payload : α)
    (live : sequencer.exhausted = false) (room : sequencer.nextSequence < u64Max) :
    sequencer.emit payload =
      (.ok ⟨sequencer.streamId, sequencer.nextSequence, payload⟩,
        { sequencer with nextSequence := sequencer.nextSequence + 1 }) := by
  unfold emit
  rw [if_neg (by rw [live]; decide), checkedNext_of_lt room]

/-- How many items were emitted. -/
def emitted (sequencer : StreamSequencer) : Nat :=
  if sequencer.exhausted then sequencer.nextSequence else sequencer.nextSequence - 1

/-- A refused emission changes nothing. -/
theorem emit_error {α : Type} {sequencer next : StreamSequencer} {payload : α}
    {error : SequenceError} (refused : sequencer.emit payload = (.error error, next)) :
    next = sequencer := by
  unfold emit at refused
  split at refused
  · cases refused
    rfl
  · simp only at refused
    split at refused <;> cases refused

/-- **An emission takes the next number**, and the count follows. -/
theorem emit_ok {α : Type} {sequencer next : StreamSequencer} {payload : α} {item : StreamItem α}
    (done : sequencer.emit payload = (.ok item, next)) (positive : 1 ≤ sequencer.nextSequence) :
    item.sequence = sequencer.emitted + 1 ∧ next.emitted = sequencer.emitted + 1 ∧
      1 ≤ next.nextSequence := by
  unfold emit at done
  split at done
  · cases done
  · rename_i live
    simp only at done
    unfold emitted
    rw [if_neg live]
    split at done
    · rename_i advanced following
      obtain ⟨_, rfl⟩ := checkedNext_eq_some following
      cases done
      simp only [live]
      exact ⟨by omega, by simp; omega, by omega⟩
    · cases done
      exact ⟨by simp only; omega, by simp; omega, positive⟩

end StreamSequencer

/-- A bounded policy must have at least one slot. -/
inductive BufferError
  | zeroCapacity
deriving DecidableEq

/-- Pops until the buffer is empty. -/
def drainBy {α β : Type} (pop : β → Option (α × β)) : Nat → β → List α × β
  | 0, buffer => ([], buffer)
  | fuel + 1, buffer =>
    match pop buffer with
    | none => ([], buffer)
    | some (item, rest) =>
      let drained := drainBy pop fuel rest
      (item :: drained.1, drained.2)

/-! ### The lossless buffer -/

/-- A fixed-capacity FIFO that never silently drops accepted items. -/
structure LosslessBuffer (α : Type) where
  capacity : Nat
  items : List (StreamItem α)
  positive : 0 < capacity
  bounded : items.length ≤ capacity

namespace LosslessBuffer

variable {α : Type}

/-- Creates a bounded lossless FIFO. -/
def new (capacity : Nat) : Except BufferError (LosslessBuffer α) :=
  if positive : 0 < capacity then .ok ⟨capacity, [], positive, Nat.zero_le _⟩
  else .error .zeroCapacity

/-- Appends an item, or hands it back when the buffer is full. -/
def tryPush (buffer : LosslessBuffer α) (item : StreamItem α) :
    Except (StreamItem α) (LosslessBuffer α) :=
  if full : buffer.items.length = buffer.capacity then .error item
  else .ok ⟨buffer.capacity, buffer.items ++ [item], buffer.positive, by
    have := buffer.bounded
    simp only [List.length_append, List.length_singleton]
    omega⟩

/-- An empty buffer has room. -/
theorem tryPush_of_empty (buffer : LosslessBuffer α) (empty : buffer.items = [])
    (item : StreamItem α) : ∃ next, buffer.tryPush item = .ok next := by
  have room : ¬ buffer.items.length = buffer.capacity := by
    have := buffer.positive
    rw [empty, List.length_nil]
    omega
  exact ⟨_, dif_neg room⟩

/-- Removes the oldest pending item. -/
def pop (buffer : LosslessBuffer α) : Option (StreamItem α × LosslessBuffer α) :=
  match pending : buffer.items with
  | [] => none
  | item :: rest => some (item, ⟨buffer.capacity, rest, buffer.positive, by
      have := buffer.bounded
      rw [pending, List.length_cons] at this
      omega⟩)

/-- Pops every pending item. -/
def drain (buffer : LosslessBuffer α) : List (StreamItem α) × LosslessBuffer α :=
  drainBy pop buffer.items.length buffer

theorem drainBy_pop (items : List (StreamItem α)) (capacity : Nat) (positive : 0 < capacity)
    (bounded : items.length ≤ capacity) :
    drainBy pop items.length ⟨capacity, items, positive, bounded⟩ =
      (items, ⟨capacity, [], positive, Nat.zero_le _⟩) := by
  induction items with
  | nil => rfl
  | cons item rest ih =>
    have smaller : rest.length ≤ capacity := Nat.le_of_succ_le bounded
    have tail := ih smaller
    show (item :: (drainBy pop rest.length ⟨capacity, rest, positive, smaller⟩).1,
      (drainBy pop rest.length ⟨capacity, rest, positive, smaller⟩).2) = _
    rw [tail]

/-- **Draining returns the pending items in order and leaves the buffer empty.** -/
theorem drain_eq (buffer : LosslessBuffer α) :
    buffer.drain = (buffer.items, ⟨buffer.capacity, [], buffer.positive, Nat.zero_le _⟩) :=
  drainBy_pop buffer.items buffer.capacity buffer.positive buffer.bounded

end LosslessBuffer

/-! ### The coalescing buffer -/

/-- A stream item paired with a semantic key for coalescing. -/
structure KeyedStreamItem (κ α : Type) where
  key : κ
  item : StreamItem α
deriving DecidableEq

/-- A fixed-capacity FIFO that replaces only pending items with the same stream and key. -/
structure CoalescingBuffer (κ α : Type) where
  capacity : Nat
  items : List (KeyedStreamItem κ α)
  positive : 0 < capacity
  bounded : items.length ≤ capacity

namespace CoalescingBuffer

variable {κ α : Type} [DecidableEq κ]

/-- Creates a bounded same-key coalescing buffer. -/
def new (capacity : Nat) : Except BufferError (CoalescingBuffer κ α) :=
  if positive : 0 < capacity then .ok ⟨capacity, [], positive, Nat.zero_le _⟩
  else .error .zeroCapacity

/-- Whether a new item replaces a pending one: same key, same stream. -/
def sameIdentity (item existing : KeyedStreamItem κ α) : Bool :=
  existing.key = item.key ∧ existing.item.streamId = item.item.streamId

/-- Replaces the pending item of the same identity, else appends, else hands the item back. -/
def tryPush (buffer : CoalescingBuffer κ α) (item : KeyedStreamItem κ α) :
    Except (KeyedStreamItem κ α) (CoalescingBuffer κ α) :=
  if found : buffer.items.any (sameIdentity item) then
    .ok ⟨buffer.capacity, buffer.items.eraseP (sameIdentity item) ++ [item], buffer.positive, by
      obtain ⟨existing, member, same⟩ := List.any_eq_true.mp found
      have shorter := List.length_eraseP_of_mem member same
      have nonempty := List.length_pos_of_mem member
      have := buffer.bounded
      simp only [List.length_append, List.length_singleton]
      omega⟩
  else if full : buffer.items.length = buffer.capacity then .error item
  else .ok ⟨buffer.capacity, buffer.items ++ [item], buffer.positive, by
    have := buffer.bounded
    simp only [List.length_append, List.length_singleton]
    omega⟩

/-- Removes the oldest pending keyed item. -/
def pop (buffer : CoalescingBuffer κ α) :
    Option (KeyedStreamItem κ α × CoalescingBuffer κ α) :=
  match pending : buffer.items with
  | [] => none
  | item :: rest => some (item, ⟨buffer.capacity, rest, buffer.positive, by
      have := buffer.bounded
      rw [pending, List.length_cons] at this
      omega⟩)

/-- Pops every pending keyed item. -/
def drain (buffer : CoalescingBuffer κ α) : List (KeyedStreamItem κ α) × CoalescingBuffer κ α :=
  drainBy pop buffer.items.length buffer

end CoalescingBuffer

/-! ### The lossy buffer -/

/-- A fixed-capacity buffer that drops its oldest item. -/
structure LossyBuffer (α : Type) where
  capacity : Nat
  items : List (StreamItem α)
  positive : 0 < capacity
  bounded : items.length ≤ capacity

namespace LossyBuffer

variable {α : Type}

/-- Creates a bounded drop-oldest telemetry buffer. -/
def new (capacity : Nat) : Except BufferError (LossyBuffer α) :=
  if positive : 0 < capacity then .ok ⟨capacity, [], positive, Nat.zero_le _⟩
  else .error .zeroCapacity

/-- Pushes an item and returns the dropped oldest one when the buffer was full. -/
def push (buffer : LossyBuffer α) (item : StreamItem α) :
    Option (StreamItem α) × LossyBuffer α :=
  if full : buffer.items.length = buffer.capacity then
    (buffer.items.head?, ⟨buffer.capacity, buffer.items.tail ++ [item], buffer.positive, by
      have := buffer.positive
      simp only [List.length_append, List.length_tail, List.length_singleton]
      omega⟩)
  else
    (none, ⟨buffer.capacity, buffer.items ++ [item], buffer.positive, by
      have := buffer.bounded
      simp only [List.length_append, List.length_singleton]
      omega⟩)

/-- Removes the oldest pending item. -/
def pop (buffer : LossyBuffer α) : Option (StreamItem α × LossyBuffer α) :=
  match pending : buffer.items with
  | [] => none
  | item :: rest => some (item, ⟨buffer.capacity, rest, buffer.positive, by
      have := buffer.bounded
      rw [pending, List.length_cons] at this
      omega⟩)

/-- Pops every pending item. -/
def drain (buffer : LossyBuffer α) : List (StreamItem α) × LossyBuffer α :=
  drainBy pop buffer.items.length buffer

end LossyBuffer

end Kernis
