/-
**A row that differs in one byte is refused.**

* `fnv1a_set` — the checksum tells apart two payloads that differ in one byte: a byte is mixed in by an
  exclusive or, and the product with an odd prime is undone modulo `2 ^ 64`.
* `decodeState_row` — a row is refused as corrupt when its magic, its version or its checksum is wrong.
* `corruption_detected` — so every change of one byte is detected, and an unchanged row reads back.
-/

import Kernis.Lib.Fallible
import Kernis.Recovery.Physical

namespace Kernis

open Std

/-! ### The checksum -/

/-- One round of the checksum. -/
def mix (hash : UInt64) (byte : UInt8) : UInt64 := (hash ^^^ byte.toUInt64) * 0x100000001b3

/-- The inverse of the prime modulo `2 ^ 64`. -/
def primeInverse : UInt64 := 0xce965057aff6957b

theorem prime_mul_inverse : (0x100000001b3 : UInt64) * primeInverse = 1 := by decide

theorem mul_prime_injective {left right : UInt64}
    (same : left * 0x100000001b3 = right * 0x100000001b3) : left = right := by
  have undone := congrArg (· * primeInverse) same
  simpa only [UInt64.mul_assoc, prime_mul_inverse, UInt64.mul_one] using undone

/-- A round keeps different hashes different. -/
theorem mix_left_injective {left right : UInt64} {byte : UInt8} (same : mix left byte = mix right byte) :
    left = right := by
  have mixed := congrArg (· ^^^ byte.toUInt64) (mul_prime_injective same)
  simpa only [UInt64.xor_assoc, UInt64.xor_self, UInt64.xor_zero] using mixed

/-- A round tells different bytes apart. -/
theorem mix_right_injective {hash : UInt64} {left right : UInt8} (same : mix hash left = mix hash right) :
    left = right := by
  have mixed := congrArg (hash ^^^ ·) (mul_prime_injective same)
  simp only [← UInt64.xor_assoc, UInt64.xor_self, UInt64.zero_xor] at mixed
  exact UInt8.toUInt64_inj.mp mixed

/-- The remaining rounds keep different hashes different. -/
theorem foldl_mix_injective {bytes : List UInt8} {left right : UInt64}
    (same : bytes.foldl mix left = bytes.foldl mix right) : left = right := by
  induction bytes generalizing left right with
  | nil => exact same
  | cons byte rest ih => exact mix_left_injective (ih same)

/-- **Payloads that differ in one byte have different checksums**, whatever stands around it. -/
theorem fnv1a_set {payload : List UInt8} {index : Nat} {byte : UInt8} (inside : index < payload.length)
    (changed : payload[index]? ≠ some byte) : fnv1a (payload.set index byte) ≠ fnv1a payload := by
  have split : payload = payload.take index ++ payload[index] :: payload.drop (index + 1) := by
    rw [List.getElem_cons_drop, List.take_append_drop]
  have other : payload.set index byte = payload.take index ++ byte :: payload.drop (index + 1) :=
    List.set_eq_take_append_cons_drop.trans (if_pos inside)
  intro same
  change (payload.set index byte).foldl mix _ = payload.foldl mix _ at same
  rw [other] at same
  nth_rewrite 3 [split] at same
  rw [List.foldl_append, List.foldl_append, List.foldl_cons, List.foldl_cons] at same
  have equal := mix_right_injective (foldl_mix_injective same)
  rw [List.getElem?_eq_getElem inside, ← equal] at changed
  exact changed rfl

/-- The integer of little-endian bytes determines them. -/
theorem fromLeBytes_injective {left right : List UInt8} (length : left.length = right.length)
    (same : fromLeBytes left = fromLeBytes right) : left = right := by
  induction left generalizing right with
  | nil => exact (List.length_eq_zero_iff.mp length.symm).symm
  | cons byte rest ih =>
    cases right with
    | nil => cases length
    | cons other others =>
      have low := byte.toNat_lt
      have lowOther := other.toNat_lt
      rw [fromLeBytes, fromLeBytes] at same
      have first : byte = other := UInt8.toNat_inj.mp (by omega)
      rw [first, ih (Nat.succ.inj length) (by rw [first] at same; omega)]

/-! ### The parts of a row -/

/-- Changing one byte of a list changes the list. -/
theorem set_ne {bytes : List UInt8} {index : Nat} {byte : UInt8} (inside : index < bytes.length)
    (changed : bytes[index]? ≠ some byte) : bytes.set index byte ≠ bytes := by
  intro same
  refine changed ?_
  rw [← same, List.getElem?_set_self inside]

section Rows

variable [Postcard] {magic version sum payload : List UInt8}

/-- The four parts of a row. -/
def rowOf (magic version sum payload : List UInt8) : List UInt8 :=
  magic ++ (version ++ (sum ++ payload))

/-- **A row with a wrong part is refused as corrupt.** -/
theorem decodeState_row (magicLength : magic.length = formatMagic.length)
    (versionLength : version.length = 2) (sumLength : sum.length = checksumLen)
    (wrong : magic ≠ formatMagic ∨ fromLeBytes version ≠ formatVersion ∨
      fromLeBytes sum ≠ (fnv1a payload).toNat) :
    ∃ message, decodeState (rowOf magic version sum payload) = .error (.dataCorruption message) := by
  have afterMagic : (rowOf magic version sum payload).drop formatMagic.length =
      version ++ (sum ++ payload) := List.drop_left' magicLength
  have afterVersion : (rowOf magic version sum payload).drop (formatMagic.length + 2) =
      sum ++ payload := by
    rw [← List.drop_drop, afterMagic]
    exact List.drop_left' versionLength
  have afterHeader : (rowOf magic version sum payload).drop headerLen = payload := by
    unfold headerLen
    rw [← List.drop_drop, afterVersion]
    exact List.drop_left' sumLength
  unfold decodeState
  simp only [afterMagic, afterVersion, afterHeader]
  split
  · exact ⟨_, rfl⟩
  · rename_i header
    rw [not_or, not_not, List.isPrefixOf_iff_prefix] at header
    have sameMagic : magic = formatMagic :=
      (List.prefix_of_prefix_length_le (List.prefix_append magic _) header.2
        (Nat.le_of_eq magicLength)).eq_of_length magicLength
    rw [List.take_left' versionLength, List.take_left' sumLength]
    split
    · exact ⟨_, rfl⟩
    · rename_i supported
      split
      · exact ⟨_, rfl⟩
      · rename_i matching
        exact absurd wrong (by rw [not_or, not_or]; exact ⟨not_not.mpr sameMagic, supported, matching⟩)

/-- What a row consists of. -/
theorem encodeState_eq_row {state : DurableRunState} {encoded : List UInt8}
    (written : encodeState state = .ok encoded) : ∃ payload,
      encoded = rowOf formatMagic (toLeBytes 2 formatVersion)
        (toLeBytes checksumLen (fnv1a payload).toNat) payload := by
  unfold encodeState at written
  split at written
  · cases written
  · split at written
    · cases written
    · cases written
      exact ⟨_, rfl⟩

/-- **Every change of one byte of a row is detected**: the byte belongs to one of the four parts, and
each part is checked against what the others say. -/
theorem decodeState_set {state : DurableRunState} {encoded : List UInt8}
    (written : encodeState state = .ok encoded) {index : Nat} {byte : UInt8}
    (inside : index < encoded.length) (changed : encoded[index]? ≠ some byte) :
    ∃ message, decodeState (encoded.set index byte) = .error (.dataCorruption message) := by
  obtain ⟨payload, rfl⟩ := encodeState_eq_row written
  have versionLength := length_toLeBytes 2 formatVersion
  have sumLength := length_toLeBytes checksumLen (fnv1a payload).toNat
  have sum : fromLeBytes (toLeBytes checksumLen (fnv1a payload).toNat) = (fnv1a payload).toNat :=
    fromLeBytes_toLeBytes _ _ (fnv1a payload).toNat_lt
  unfold rowOf at inside changed ⊢
  rw [List.length_append] at inside
  rw [List.getElem?_append] at changed
  rw [List.set_append]
  by_cases atMagic : index < formatMagic.length
  · rw [if_pos atMagic] at changed ⊢
    exact decodeState_row (List.length_set) versionLength sumLength
      (.inl (set_ne atMagic changed))
  rw [if_neg atMagic] at changed ⊢
  replace inside : index - formatMagic.length < (toLeBytes 2 formatVersion ++
    (toLeBytes checksumLen (fnv1a payload).toNat ++ payload)).length := by omega
  generalize index - formatMagic.length = place at inside changed ⊢
  rw [List.length_append] at inside
  rw [List.getElem?_append] at changed
  rw [List.set_append]
  by_cases atVersion : place < (toLeBytes 2 formatVersion).length
  · rw [if_pos atVersion] at changed ⊢
    refine decodeState_row rfl (List.length_set.trans versionLength) sumLength (.inr (.inl ?_))
    intro same
    refine set_ne atVersion changed (fromLeBytes_injective List.length_set (same.trans ?_))
    exact (fromLeBytes_toLeBytes 2 formatVersion (by decide)).symm
  rw [if_neg atVersion] at changed ⊢
  replace inside : place - (toLeBytes 2 formatVersion).length <
    (toLeBytes checksumLen (fnv1a payload).toNat ++ payload).length := by omega
  generalize place - (toLeBytes 2 formatVersion).length = place at inside changed ⊢
  rw [List.length_append] at inside
  rw [List.getElem?_append] at changed
  rw [List.set_append]
  by_cases atSum : place < (toLeBytes checksumLen (fnv1a payload).toNat).length
  · rw [if_pos atSum] at changed ⊢
    refine decodeState_row rfl versionLength (List.length_set.trans sumLength) (.inr (.inr ?_))
    intro same
    exact set_ne atSum changed (fromLeBytes_injective List.length_set (same.trans sum.symm))
  · rw [if_neg atSum] at changed ⊢
    replace inside : place - (toLeBytes checksumLen (fnv1a payload).toNat).length <
      payload.length := by omega
    refine decodeState_row rfl versionLength sumLength (.inr (.inr ?_))
    rw [sum]
    intro same
    exact fnv1a_set inside changed (UInt64.toNat_inj.mp same).symm

/-- The deserializer reads back what the serializer wrote, without a remainder. -/
def ReadsBack : Prop :=
  ∀ snapshot bytes, Postcard.snapshotBytes snapshot = .ok bytes →
    Postcard.takeSnapshot bytes = .ok (snapshot, [])

end Rows

/-- **A stored row reads back, and no change of one byte of it goes unnoticed.** -/
theorem corruption_detected [Postcard] (readsBack : ReadsBack) {runId : RunId} {state : DurableRunState}
    {encoded : List UInt8} (reached : state.Reachable runId)
    (written : encodeState state = .ok encoded) :
    decodeState encoded = .ok state ∧ ∀ (index : Nat) (byte : UInt8), index < encoded.length →
      encoded[index]? ≠ some byte →
        ∃ message, decodeState (encoded.set index byte) = .error (.dataCorruption message) := by
  refine ⟨?_, fun index byte inside changed => decodeState_set written inside changed⟩
  have room := ledger_of_encodeState written
  unfold encodeState at written
  rw [reached.persistedSnapshot room] at written
  simp only at written
  split at written
  · cases written
  · rename_i payload serialized
    cases written
    rw [decodeState_of_payload (readsBack _ _ serialized)]
    exact reached.replays room

/-- The row of a run after one admission. -/
theorem corruption_detected_sample :
    let _ := Persisted.postcard
    ∃ state encoded, encodeState state = .ok encoded ∧ decodeState encoded = .ok state ∧
      ∀ (index : Nat) (byte : UInt8), index < encoded.length → encoded[index]? ≠ some byte →
        ∃ message, decodeState (encoded.set index byte) = .error (.dataCorruption message) := by
  intro _
  have loads : (InMemoryDurableStore.loadRun sampleRun
      (DurableStore.calls sampleAdmission InMemoryDurableStore.new).2).toOption.any
        (fun state => decide (state.commitLedger.length = 1)) = true := by
    decide +kernel
  obtain ⟨state, loaded, length⟩ := exists_ok_of_any loads
  have reached := InMemoryDurableStore.reachable_of_calls sampleAdmission loaded
  have room : state.commitLedger.length < u64Max := by
    rw [of_decide_eq_true length]
    decide
  obtain ⟨encoded, written, _⟩ := decodeState_encodeState Persisted.postcard_round_trips reached room
  refine ⟨state, encoded, written, corruption_detected ?_ reached written⟩
  intro snapshot bytes serialized
  obtain ⟨held, same, read⟩ := Persisted.postcard_round_trips snapshot
  rw [serialized] at same
  cases same
  exact read

end Kernis
