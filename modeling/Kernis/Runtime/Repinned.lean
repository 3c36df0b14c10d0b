/-
**Pinning the capabilities of an attempt again.**

* `capturePin_ok`, `capture_ok` — what one pin and one capture went through.
* `Ascending identities` — admitted identities are listed by capability, each once; a capture makes
  such a list (`capture_ascending`).
* `repin_iff` — a restore accepts an admission exactly when a capture made now gives the identities
  that were admitted.
-/

import Mathlib.Data.List.Sort
import Kernis.Runtime.Performs

namespace Kernis

open Std

section Pins

variable {ν : Type} {scope : Scope ν} {taskConfigs : BTreeMap Id TaskConfig} {taskId : Id}

/-- What a pin goes through. -/
theorem capturePin_ok {capabilityId : Id} {configured : Option Text} {pin : CapabilityPin} :
    capturePin scope taskId (capabilityId, configured) = .ok pin ↔
      ∃ handle, scope.contextGet capabilityId = some handle ∧
        (∀ identity, configured = some identity → identity = handle.definition.replayIdentity) ∧
        pin = ⟨capabilityId, handle.generation, handle.entryId,
          ⟨capabilityId, handle.definition.replayIdentity⟩⟩ := by
  unfold capturePin
  cases found : scope.contextGet capabilityId with
  | none => simp [found]
  | some handle =>
    simp only [found, Option.some.injEq, exists_eq_left']
    cases configured with
    | none =>
      simp only [Option.any_none, Bool.false_eq_true, if_false, Except.ok.injEq, reduceCtorEq,
        false_implies, implies_true, true_and]
      exact eq_comm
    | some identity =>
      simp only [Option.any_some, decide_eq_true_eq, Option.some.injEq, forall_eq']
      by_cases same : identity = handle.definition.replayIdentity
      · rw [if_neg (not_not.mpr same), Except.ok.injEq, and_iff_right same]
        exact eq_comm
      · rw [if_pos same]
        simp [same]

/-- What a capture goes through. -/
theorem capture_ok {pins : List CapabilityPin} :
    captureCapabilityPins scope taskConfigs taskId none = .ok pins ↔
      (requiredCapabilities taskConfigs taskId).mapM (capturePin scope taskId) = .ok pins := by
  unfold captureCapabilityPins
  cases (requiredCapabilities taskConfigs taskId).mapM (capturePin scope taskId) with
  | error error => simp
  | ok captured => simp

/-- Identities listed by capability, each once. -/
def Ascending (identities : List CapabilityReplayIdentity) : Prop :=
  identities.Pairwise fun left right => compare left.capabilityId right.capabilityId = .lt

theorem Ascending.distinct {identities : List CapabilityReplayIdentity}
    (ascending : Ascending identities) :
    (identities.map CapabilityReplayIdentity.capabilityId).Nodup := by
  rw [List.Nodup, List.pairwise_map]
  refine ascending.imp fun less same => ?_
  rw [same, compare_self] at less
  cases less

/-- Ascending lists with the same members are equal. -/
theorem Ascending.eq_of_perm {first second : List CapabilityReplayIdentity}
    (left : Ascending first) (right : Ascending second) (same : first.Perm second) :
    first = second := by
  refine same.eq_of_pairwise (fun one two _ _ less more => ?_) left right
  have greater : compare one.capabilityId two.capabilityId = .gt := OrientedCmp.gt_of_lt more
  rw [less] at greater
  cases greater

theorem requiredCapabilities_ascending (taskConfigs : BTreeMap Id TaskConfig) (taskId : Id) :
    (requiredCapabilities taskConfigs taskId).Pairwise fun left right =>
      compare left.1 right.1 = .lt := by
  unfold requiredCapabilities
  split
  · exact .nil
  · exact ExtTreeMap.ordered_keys_toList

/-- The pins of a capture, with the capabilities they were captured for. -/
theorem capture_pins {pins : List CapabilityPin}
    (captured : captureCapabilityPins scope taskConfigs taskId none = .ok pins) :
    pins.map CapabilityPin.capabilityId = (requiredCapabilities taskConfigs taskId).map Prod.fst ∧
      ∀ pin ∈ pins, pin.replayIdentity.capabilityId = pin.capabilityId := by
  have each := forall₂_of_mapM (capture_ok.mp captured)
  clear captured
  generalize requiredCapabilities taskConfigs taskId = required at each
  induction each with
  | nil => exact ⟨rfl, by simp⟩
  | @cons requirement pin _ _ one _ ih =>
    obtain ⟨handle, _, _, rfl⟩ := capturePin_ok.mp one
    exact ⟨congrArg (requirement.1 :: ·) ih.1, List.forall_mem_cons.mpr ⟨rfl, ih.2⟩⟩

/-- **A capture lists the identities by capability.** -/
theorem capture_ascending {pins : List CapabilityPin}
    (captured : captureCapabilityPins scope taskConfigs taskId none = .ok pins) :
    Ascending (pins.map CapabilityPin.replayIdentity) := by
  obtain ⟨ids, own⟩ := capture_pins captured
  have names : (pins.map CapabilityPin.replayIdentity).map CapabilityReplayIdentity.capabilityId =
      (requiredCapabilities taskConfigs taskId).map Prod.fst := by
    rw [← ids, List.map_map]
    exact List.map_congr_left own
  have ordered : ((requiredCapabilities taskConfigs taskId).map Prod.fst).Pairwise
      fun left right => compare left right = .lt :=
    List.pairwise_map.mpr (requiredCapabilities_ascending taskConfigs taskId)
  rw [← names, List.pairwise_map] at ordered
  exact ordered

/-- The admitted identities are the captured ones exactly when the check passes. -/
theorem pinsDiffer_eq_false_iff {expected : List CapabilityReplayIdentity}
    {pins : List CapabilityPin} (ascending : Ascending expected)
    (captured : Ascending (pins.map CapabilityPin.replayIdentity))
    (own : ∀ pin ∈ pins, pin.replayIdentity.capabilityId = pin.capabilityId) :
    pinsDiffer (expectedIdentities expected) pins = false ↔
      pins.map CapabilityPin.replayIdentity = expected := by
  have indexed : Indexes CapabilityReplayIdentity.capabilityId expected
      (expectedIdentities expected) := .foldl_insert ascending.distinct
  have meaning : pinsDiffer (expectedIdentities expected) pins = false ↔
      expected.length = pins.length ∧ ∀ pin ∈ pins, pin.replayIdentity ∈ expected := by
    unfold pinsDiffer
    rw [indexed.size]
    simp only [decide_eq_false_iff_not, not_or, not_not, List.any_eq_true, not_exists, not_and,
      decide_eq_true_eq]
    refine and_congr_right fun _ => forall₂_congr fun pin member => ?_
    rw [indexed.agrees, own pin member]
    exact and_iff_left rfl
  rw [meaning]
  constructor
  · rintro ⟨lengths, members⟩
    refine captured.eq_of_perm ascending (List.Subperm.perm_of_length_le ?_ ?_)
    · refine List.subperm_of_subset captured.distinct.of_map fun identity member => ?_
      obtain ⟨pin, inside, rfl⟩ := List.mem_map.mp member
      exact members pin inside
    · rw [List.length_map, lengths]
  · rintro rfl
    exact ⟨List.length_map .., fun pin member => List.mem_map_of_mem member⟩

/-- **When a restore accepts an admission**: pinned now, it has the identities it had then. -/
theorem repin_iff {expected : List CapabilityReplayIdentity} {pins : List CapabilityPin}
    (ascending : Ascending expected) :
    captureCapabilityPins scope taskConfigs taskId (some expected) = .ok pins ↔
      captureCapabilityPins scope taskConfigs taskId none = .ok pins ∧
        pins.map CapabilityPin.replayIdentity = expected := by
  rw [capture_ok]
  constructor
  · intro repinned
    unfold captureCapabilityPins at repinned
    cases captured : (requiredCapabilities taskConfigs taskId).mapM (capturePin scope taskId) with
    | error error =>
      rw [captured] at repinned
      cases repinned
    | ok found =>
      rw [captured] at repinned
      simp only at repinned
      split at repinned
      · cases repinned
      · cases repinned
        have known := capture_ok.mpr captured
        exact ⟨rfl, (pinsDiffer_eq_false_iff ascending (capture_ascending known)
          (capture_pins known).2).mp (Bool.eq_false_iff.mpr ‹_›)⟩
  · rintro ⟨captured, same⟩
    have known := capture_ok.mpr captured
    have agrees := (pinsDiffer_eq_false_iff ascending (capture_ascending known)
      (capture_pins known).2).mpr same
    unfold captureCapabilityPins
    simp only [captured, agrees, Bool.false_eq_true, if_false]

/-- What a refused capture reports. -/
theorem capture_error {expected : Option (List CapabilityReplayIdentity)} {error : RuntimeError}
    (refused : captureCapabilityPins scope taskConfigs taskId expected = .error error) :
    ∃ capabilityId, error = .missingCapability taskId capabilityId ∨
      error = .capabilityReplayMismatch taskId capabilityId := by
  unfold captureCapabilityPins at refused
  split at refused
  · rename_i failed
    cases refused
    obtain ⟨⟨capabilityId, configured⟩, _, one⟩ := exists_error_of_mapM failed
    simp only [capturePin] at one
    split at one
    · cases one
      exact ⟨capabilityId, .inl rfl⟩
    · split at one
      · cases one
        exact ⟨capabilityId, .inr rfl⟩
      · cases one
  · split at refused
    · cases refused
    · split at refused
      · cases refused
        exact ⟨_, .inr rfl⟩
      · cases refused

end Pins

end Kernis
