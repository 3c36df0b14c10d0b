/-
**The durable facts of a run that one runtime at a time drives.**

A runtime commits one mutation at a time, under a key that names the fact it records. In a run that
nobody else writes to, the idempotency index therefore tells exactly which facts are there.

* `mutationKey` — the key of a mutation: a label for its kind, and its subject.
  `mutationKey_cancel` reads both back.
* `Owned` — one mutation under its own key for each commit, every cancellation under the key of its
  task, attempts numbered in order, and a revision above the number of attempts.
* `Owned.commit` — a fresh commit of a runtime keeps this.
* `Owned.replayed` — a key that is already there belongs to a fact about the same subject.
-/

import Kernis.Recovery.Reflected
import Kernis.Runtime.Actions

namespace Kernis

open Std

/-! ### Keys -/

/-- The kinds of durable facts. -/
inductive FactKind
  | identity
  | admission
  | intent
  | cancellation
  | dispatch
  | outcome
  | completion
deriving DecidableEq

/-- How a key of a runtime begins. -/
def FactKind.label : FactKind → Text
  | .identity => "workflow-identity:".toList
  | .admission => "admit:".toList
  | .intent => "intent:".toList
  | .cancellation => "cancel:".toList
  | .dispatch => "dispatch:".toList
  | .outcome => "outcome:".toList
  | .completion => "completion:".toList

/-- The key of the first commit of a run. -/
def startKey : Text := "workflow-replay-identity".toList

theorem startKey_solid : blank startKey = false := by
  decide

theorem FactKind.eq_of_label_prefix :
    ∀ first second : FactKind, first.label <+: second.label → first = second := by
  intro first second
  cases first <;> cases second <;> decide

theorem FactKind.not_label_startKey : ∀ kind : FactKind, ¬ kind.label <+: startKey := by
  intro kind
  cases kind <;> decide

namespace DurableMutation

/-- The kind of fact that a mutation records. -/
def kind : DurableMutation → FactKind
  | .recordWorkflowReplayIdentity _ => .identity
  | .admitAttempt _ => .admission
  | .recordIntent _ => .intent
  | .recordCancellation _ => .cancellation
  | .recordDispatch _ => .dispatch
  | .recordOutcome _ => .outcome
  | .recordCompletion _ => .completion

/-- What a mutation is about; an identity is about a revision too. -/
def subject (revision : Nat) : DurableMutation → Text
  | .recordWorkflowReplayIdentity identity => digits revision ++ ":".toList ++ identity.text.val
  | .admitAttempt admission => admission.attemptId.id.asStr
  | .recordIntent intent => intent.operationId.id.asStr
  | .recordCancellation cancellation => cancellation.taskId.asStr
  | .recordDispatch dispatch => dispatch.attemptId.id.asStr
  | .recordOutcome outcome => outcome.attemptId.id.asStr
  | .recordCompletion completion =>
    completion.taskId.asStr ++ ":".toList ++ completion.attemptId.id.asStr

end DurableMutation

/-- The key under which a runtime commits a mutation at a revision. -/
def mutationKey (revision : Nat) (mutation : DurableMutation) : Text :=
  mutation.kind.label ++ mutation.subject revision

theorem append_regroup (first second third last : Text) :
    first ++ second ++ third ++ last = first ++ (second ++ third ++ last) := by
  simp only [List.append_assoc]

theorem Action.key_eq (action : Action) (revision : Nat) :
    action.key revision = mutationKey revision action.mutation := by
  cases action with
  | complete fact workflow => exact append_regroup _ _ _ _
  | configure taskConfigs identity => exact append_regroup _ _ _ _
  | mutate workflow identity => exact append_regroup _ _ _ _
  | _ => rfl

/-- **A key names its kind and its subject.** -/
theorem mutationKey_cancel {revision other : Nat} {first second : DurableMutation}
    (same : mutationKey revision first = mutationKey other second) :
    first.kind = second.kind ∧ first.subject revision = second.subject other := by
  have front : first.kind.label <+: mutationKey other second := ⟨_, same⟩
  have back : second.kind.label <+: mutationKey other second := ⟨_, rfl⟩
  have kinds : first.kind = second.kind := by
    rcases List.prefix_or_prefix_of_prefix front back with shorter | longer
    · exact FactKind.eq_of_label_prefix _ _ shorter
    · exact (FactKind.eq_of_label_prefix _ _ longer).symm
  refine ⟨kinds, ?_⟩
  unfold mutationKey at same
  rw [kinds] at same
  exact List.append_cancel_left same

/-- A counter before a colon is read back. -/
theorem digits_of_colon {first second : Nat} {rest other : Text}
    (same : digits first ++ ":".toList ++ rest = digits second ++ ":".toList ++ other) :
    first = second := by
  rw [List.append_assoc, List.append_assoc] at same
  exact digits_of_append (by decide) same

theorem mutationKey_ne_startKey (revision : Nat) (mutation : DurableMutation) :
    mutationKey revision mutation ≠ startKey :=
  fun same => FactKind.not_label_startKey mutation.kind ⟨_, same⟩

/-! ### Owned states -/

namespace DurableRunState

variable [Postcard] {state next : DurableRunState}

/-- **What the commits of runtimes leave**, when nobody else writes to the run. -/
structure Owned (state : DurableRunState) : Prop where
  reachable : state.Reachable state.runId
  keyed : ∀ (key : IdempotencyKey) (mutations : List DurableMutation) (revision : Nat),
    state.idempotency[key]? = some (mutations, revision) → ∃ mutation, mutations = [mutation] ∧
      (key.text.val = startKey ∨
        ∃ earlier < state.revision, key.text.val = mutationKey earlier mutation)
  cancelled : ∀ (taskId : Id), taskId ∈ state.cancellations → ∃ key : IdempotencyKey,
    key ∈ state.idempotency ∧ key.text.val = FactKind.cancellation.label ++ taskId.asStr
  numbered : state.admissionHistory.map AttemptAdmission.attemptId =
    (List.range' 1 state.admissionHistory.length).map (generatedAttemptId state.runId)
  room : state.admissionHistory.length < state.revision

theorem Owned.lineage (owned : state.Owned) : state.Lineage := lineage_of_reachable owned.reachable

/-- Every admitted attempt has a generated identity. -/
theorem Owned.generated (owned : state.Owned) {attemptId : AttemptId}
    (admitted : attemptId ∈ state.admissions) :
    ∃ number, 1 ≤ number ∧ number ≤ state.admissionHistory.length ∧
      attemptId = generatedAttemptId state.runId number := by
  rw [owned.lineage.admissions.mem_iff, owned.numbered, List.mem_map] at admitted
  obtain ⟨number, member, rfl⟩ := admitted
  rw [List.mem_range'_1] at member
  exact ⟨number, member.1, by omega, rfl⟩

/-- The next generated identity is not admitted yet. -/
theorem Owned.next_not_admitted (owned : state.Owned) :
    generatedAttemptId state.runId (state.admissionHistory.length + 1) ∉ state.admissions := by
  intro admitted
  obtain ⟨number, _, bound, same⟩ := owned.generated admitted
  have equal := generatedAttemptId_injective _ same
  omega

/-- **A key that is there belongs to a fact about the same subject**, committed earlier. -/
theorem Owned.replayed (owned : state.Owned) {key : IdempotencyKey}
    {mutations : List DurableMutation} {revision : Nat} {mutation : DurableMutation}
    (own : key.text.val = mutationKey state.revision mutation)
    (found : state.idempotency[key]? = some (mutations, revision)) :
    ∃ stored, mutations = [stored] ∧ state.Reflected stored ∧ stored.kind = mutation.kind ∧
      ∃ earlier < state.revision, stored.subject earlier = mutation.subject state.revision := by
  obtain ⟨stored, rfl, named⟩ := owned.keyed key _ _ found
  have fact := reflected_of_reachable owned.reachable found stored List.mem_cons_self
  rcases named with start | ⟨earlier, before, same⟩
  · exact absurd (own.symm.trans start) (mutationKey_ne_startKey _ _)
  · obtain ⟨kinds, subjects⟩ := mutationKey_cancel (same.symm.trans own)
    exact ⟨stored, rfl, fact, kinds, earlier, before, subjects⟩

omit [Postcard] in
/-- The attempts of a run after one more mutation. -/
theorem Accepted.admissions_or {mutation : DurableMutation}
    (accepted : Accepted state mutation next) :
    (∃ admission, mutation = .admitAttempt admission ∧
        next.admissionHistory = state.admissionHistory ++ [admission]) ∨
      next.admissionHistory = state.admissionHistory := by
  cases accepted with
  | admission admission => exact .inl ⟨admission, rfl, rfl⟩
  | _ => exact .inr rfl

omit [Postcard] in
/-- The cancellations of a run after one more mutation. -/
theorem Accepted.cancellations_or {mutation : DurableMutation}
    (accepted : Accepted state mutation next) {taskId : Id}
    (cancelled : taskId ∈ next.cancellations) :
    (∃ cancellation : CancellationRecord, mutation = .recordCancellation cancellation ∧
      cancellation.taskId = taskId) ∨ taskId ∈ state.cancellations := by
  cases accepted with
  | cancellation cancellation =>
    rcases (mem_insert_iff _ _ _ _).mp cancelled with rfl | old
    · exact .inl ⟨cancellation, rfl, rfl⟩
    · exact .inr old
  | _ => exact .inr cancelled

/-- **A fresh commit of a runtime keeps a run owned.** -/
theorem Owned.commit {candidate : DurableRunState} {mutation : DurableMutation}
    {key : IdempotencyKey} (owned : state.Owned) (room : state.revision < u64Max)
    (own : key.text.val = mutationKey state.revision mutation) (newKey : key ∉ state.idempotency)
    (accepted : Accepted state mutation candidate)
    (numbered : ∀ admission, mutation = .admitAttempt admission →
      admission.attemptId =
        generatedAttemptId state.runId (state.admissionHistory.length + 1)) :
    (candidate.recordCommit key [mutation] (state.revision + 1)).Owned := by
  have head := accepted.sameHead
  have fresh : FreshCommit state ⟨state.runId, state.revision, key, [mutation]⟩
      (candidate.recordCommit key [mutation] (state.revision + 1)) :=
    ⟨newKey, rfl, room, candidate, applyMutations_singleton.mpr accepted, rfl⟩
  refine ⟨?_, ?_, ?_, ?_, ?_⟩
  · show Reachable candidate.runId _
    rw [head.runId]
    exact .commit owned.reachable rfl (List.cons_ne_nil _ _) fresh
  · intro other mutations revision found
    simp only [recordCommit] at found ⊢
    rw [lookup_insert, head.idempotency] at found
    split at found
    · rename_i same
      subst same
      cases found
      exact ⟨mutation, rfl, .inr ⟨state.revision, Nat.lt_succ_self _, own⟩⟩
    · obtain ⟨stored, rfl, named⟩ := owned.keyed other mutations revision found
      refine ⟨stored, rfl, named.imp_right ?_⟩
      rintro ⟨earlier, before, same⟩
      exact ⟨earlier, Nat.lt_succ_of_lt before, same⟩
  · intro taskId cancelled
    simp only [recordCommit, head.idempotency] at cancelled ⊢
    rcases accepted.cancellations_or cancelled with ⟨cancellation, rfl, rfl⟩ | old
    · exact ⟨key, (mem_insert_iff _ _ _ _).mpr (.inl rfl), own⟩
    · obtain ⟨held, member, named⟩ := owned.cancelled taskId old
      exact ⟨held, (mem_insert_iff _ _ _ _).mpr (.inr member), named⟩
  · simp only [recordCommit, head.runId]
    rcases accepted.admissions_or with ⟨admission, rfl, history⟩ | history
    · rw [history, List.map_append, owned.numbered, List.length_append, List.length_singleton,
        List.range'_1_concat, List.map_append, List.map_singleton, List.map_singleton,
        numbered admission rfl, Nat.add_comm 1]
    · rw [history, owned.numbered]
  · have before := owned.room
    simp only [recordCommit]
    rcases accepted.admissions_or with ⟨admission, _, history⟩ | history
    · rw [history, List.length_append, List.length_singleton]
      omega
    · rw [history]
      omega

end DurableRunState

end Kernis
