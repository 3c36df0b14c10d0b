/-
**Actions over a store that others write to.**

A runtime is one of several members that drive a run. Its views are of some earlier time, and they
stay true: what a member has viewed is durable. A commit of a stale member is refused unless its key
is remembered with the same mutation, and then the fact is there and the member catches up with it.

* `Submitted` — how an action of such a member can go.
* `Views runtime state` — the views of a member are of the durable facts; the attempts that it knows
  are the first ones.
* `Joint state` — the durable facts that members leave together. A non-idempotent operation has at
  most one attempt, because a member that admits one knows all of them.
* `Submitted.views`, `Submitted.joint` — every chosen action keeps both.
-/

import Kernis.Recovery.ExactlyOnce
import Kernis.Runtime.Attempts

namespace Kernis

open Std Fallible

/-! ### Onward -/

namespace DurableRunState

variable {state middle next : DurableRunState}

/-- **A later durable state of the same run.** -/
structure Onward (state next : DurableRunState) : Prop where
  more : Extends state next
  admissions : state.admissionHistory <+: next.admissionHistory

theorem Onward.refl (state : DurableRunState) : Onward state state :=
  ⟨.refl state, List.prefix_rfl⟩

theorem Onward.trans (left : Onward state middle) (right : Onward middle next) :
    Onward state next :=
  ⟨left.more.trans right.more, left.admissions.trans right.admissions⟩

theorem Accepted.onward {mutation : DurableMutation} (accepted : Accepted state mutation next) :
    Onward state next := by
  refine ⟨accepted.extends, ?_⟩
  rcases accepted.admissions_or with ⟨_, _, history⟩ | history
  · rw [history]
    exact List.prefix_append _ _
  · exact history ▸ List.prefix_rfl

variable [Postcard]

theorem Onward.recordCommit (state : DurableRunState) (key : IdempotencyKey)
    (mutations : List DurableMutation) (revision : Nat) :
    Onward state (state.recordCommit key mutations revision) :=
  ⟨.recordCommit state key mutations revision, List.prefix_rfl⟩

/-- **The durable facts that members leave together.** -/
structure Joint (state : DurableRunState) : Prop where
  owned : state.Owned
  bounded : state.revision ≤ u64Max
  counted : state.admissionHistory.length + state.completionHistory.length < state.revision
  owner : ∀ admission ∈ state.admissionHistory, ∀ operationId,
    admission.operationId = some operationId →
    ∃ intent : EffectIntent, state.intents[operationId]? = some intent ∧
      intent.taskId = admission.taskId
  single : ∀ (operationId : OperationId) (intent : EffectIntent),
    state.intents[operationId]? = some intent → intent.semantics = .nonIdempotent →
    ∀ first ∈ state.admissionHistory, ∀ second ∈ state.admissionHistory,
      first.operationId = some operationId → second.operationId = some operationId → first = second

end DurableRunState

namespace Runtime

variable {σ ν : Type} [Postcard] [FaithfulStore σ]

/-! ### Commits of a member -/

/-- A fresh commit of an action at the revision that the member views. -/
structure Freshens (runtime : Runtime σ ν) (state : DurableRunState) (action : Action)
    (next : DurableRunState) : Prop where
  atHead : runtime.storeRevision = state.revision
  room : state.revision < u64Max
  stored : ∃ (key : IdempotencyKey) (candidate : DurableRunState),
    key.text.val = mutationKey state.revision action.mutation ∧ key ∉ state.idempotency ∧
      DurableRunState.Accepted state action.mutation candidate ∧
      next = candidate.recordCommit key [action.mutation] (state.revision + 1)

/-- **How an action of a member can go**: it is refused, or its fact is durable. -/
inductive Submitted (runtime : Runtime σ ν) (state : DurableRunState) (action : Action) :
    Except RuntimeError Unit → Runtime σ ν → DurableRunState → Prop
  | refused {error : StoreError} {store : σ}
      (same : FaithfulStore.content store = FaithfulStore.content runtime.store) :
      Submitted runtime state action (.error (.store error)) (runtime.onStore store) state
  | taken {store : σ} {revision : Nat} {next : DurableRunState}
      (reflected : next.Reflected action.mutation)
      (went : next = state ∨ Freshens runtime state action next)
      (backed : (FaithfulStore.content store).runs[runtime.runId]? = some next) :
      Submitted runtime state action (action.settle (runtime.accepted store revision)).1
        (action.settle (runtime.accepted store revision)).2 next

omit [FaithfulStore σ] in
theorem Freshens.onward {runtime : Runtime σ ν} {state next : DurableRunState} {action : Action}
    (fresh : Freshens runtime state action next) : state.Onward next := by
  obtain ⟨key, candidate, _, _, accepted, rfl⟩ := fresh.stored
  exact accepted.onward.trans (.recordCommit _ _ _ _)

theorem Submitted.onward {runtime reached : Runtime σ ν} {state next : DurableRunState}
    {action : Action} {result : Except RuntimeError Unit}
    (submitted : Submitted runtime state action result reached next) : state.Onward next := by
  cases submitted with
  | refused => exact .refl state
  | taken reflected went =>
    rcases went with rfl | fresh
    · exact .refl _
    · exact fresh.onward

/-- **Every action of a member goes one of these ways.** -/
theorem act_submitted {runtime : Runtime σ ν} {state : DurableRunState} (action : Action)
    (backed : runtime.Backed state) (reachable : state.Reachable runtime.runId) :
    ∃ next, Submitted runtime state action (act action runtime).1 (act action runtime).2 next := by
  have nonempty : (action.request runtime).mutations ≠ [] := List.cons_ne_nil _ _
  have found : (FaithfulStore.content runtime.store).runs[(action.request runtime).runId]? =
    some state := backed
  rw [act_eq]
  rcases answer : DurableStore.commit (action.request runtime) runtime.store with ⟨result, store⟩
  have faithful := FaithfulStore.commits (action.request runtime) runtime.store
  rw [answer] at faithful
  rcases faithful with ⟨answered, changed⟩ | ⟨⟨error, failed, backend⟩, same⟩
  · unfold InMemoryDurableStore.commit at answered changed
    rw [if_neg nonempty, found] at answered changed
    cases committed : state.commit (action.request runtime) with
    | error error =>
      simp only [committed] at answered changed
      cases answered
      exact ⟨state, .refused changed⟩
    | ok outcome =>
      obtain ⟨reported, kept⟩ := outcome
      rcases DurableRunState.commit_iff.mp committed with
        ⟨⟨revision, remembered⟩, rfl, rfl⟩ | ⟨fresh, rfl⟩
      · simp only [committed, if_true] at answered changed
        cases answered
        refine ⟨kept, .taken ?_ (.inl rfl) ?_⟩
        · exact DurableRunState.reflected_of_reachable reachable remembered action.mutation
            List.mem_cons_self
        · rw [changed]
          exact backed
      · simp only [committed, Bool.false_eq_true, if_false] at answered changed
        cases answered
        obtain ⟨candidate, applied, rfl⟩ := fresh.applied
        have accepted := DurableRunState.applyMutations_singleton.mp applied
        refine ⟨_, .taken ?_ (.inr ⟨fresh.atHead, fresh.room, _, candidate, ?_, fresh.newKey, accepted,
          rfl⟩) ?_⟩
        · exact accepted.reflected.mono (.recordCommit _ _ _ _)
        · rw [← fresh.atHead]
          exact action.key_eq _
        · rw [changed]
          exact lookup_insert_self _ _ _
  · cases failed
    exact ⟨state, .refused same⟩

theorem Submitted.backed {runtime reached : Runtime σ ν} {state next : DurableRunState}
    {action : Action} {result : Except RuntimeError Unit}
    (submitted : Submitted runtime state action result reached next)
    (backed : runtime.Backed state) : reached.Backed next := by
  unfold Backed at backed ⊢
  cases submitted with
  | @refused error store same =>
    show (FaithfulStore.content store).runs[runtime.runId]? = some state
    rw [same]
    exact backed
  | @taken store revision next reflected went held =>
    rw [(settle_same action _).1, (settle_same action _).2]
    exact held

/-! ### Views -/

omit [Postcard] [FaithfulStore σ] in
/-- **The views of a member are of the durable facts.** The attempts that it knows are the first
ones, and it has announced no more than it has viewed. -/
structure Views (runtime : Runtime σ ν) (state : DurableRunState) : Prop where
  runId : state.runId = runtime.runId
  intents : Grows runtime.journal.intents state.intents
  owners : ∀ taskId operationId, runtime.journal.operationForTask taskId = some operationId →
    ∃ intent : EffectIntent, state.intents[operationId]? = some intent ∧ intent.taskId = taskId
  first : 1 ≤ runtime.nextAttemptNumber
  number : runtime.nextAttemptNumber ≤ state.admissionHistory.length + 1
  accounted : (runtime.known.map TaskAttempt.lineage).Perm
    ((state.admissionHistory.take (runtime.nextAttemptNumber - 1)).map AttemptAdmission.lineage)
  built : runtime.workflow.Built
  completed : ∀ taskId ∈ runtime.workflow.completedIds, taskId ∈ state.completions
  live : runtime.executionSequencer.exhausted = false
  sequence : runtime.executionSequencer.nextSequence ≤
    runtime.nextAttemptNumber + runtime.workflow.completedIds.length

section Views

variable {runtime reached : Runtime σ ν} {state next : DurableRunState}

omit [Postcard] [FaithfulStore σ] in
/-- **What is viewed stays true.** -/
theorem Views.mono (views : Views runtime state) (onward : state.Onward next) :
    Views runtime next where
  runId := onward.more.runId.trans views.runId
  intents := views.intents.trans onward.more.intents
  owners taskId operationId owned := by
    obtain ⟨intent, found, same⟩ := views.owners taskId operationId owned
    exact ⟨intent, onward.more.intents found, same⟩
  first := views.first
  number := Nat.le_trans views.number (Nat.succ_le_succ onward.admissions.length_le)
  accounted := by
    obtain ⟨rest, longer⟩ := onward.admissions
    have inside : runtime.nextAttemptNumber - 1 ≤ state.admissionHistory.length := by
      have bound := views.number
      omega
    rw [← longer, List.take_append_of_le_length inside]
    exact views.accounted
  built := views.built
  completed taskId member := by
    obtain ⟨completion, found⟩ := exists_lookup_of_mem (views.completed taskId member)
    exact mem_of_lookup (onward.more.completions found)
  live := views.live
  sequence := views.sequence

omit [Postcard] [FaithfulStore σ] in
theorem Quiet.views (quiet : Quiet runtime reached) (views : Views runtime state) :
    Views reached state := by
  refine ⟨?_, ?_, ?_, ?_, ?_, ?_, ?_, ?_, ?_, ?_⟩
  · rw [quiet.runId]
    exact views.runId
  · rw [quiet.journal]
    exact views.intents
  · rw [quiet.journal]
    exact views.owners
  · rw [quiet.nextAttemptNumber]
    exact views.first
  · rw [quiet.nextAttemptNumber]
    exact views.number
  · rw [quiet.known, quiet.nextAttemptNumber]
    exact views.accounted
  · rw [quiet.workflow]
    exact views.built
  · rw [quiet.workflow]
    exact views.completed
  · rw [quiet.executionSequencer]
    exact views.live
  · rw [quiet.executionSequencer, quiet.nextAttemptNumber, quiet.workflow]
    exact views.sequence

omit [FaithfulStore σ] in
/-- A member has completed no more tasks than are completed. -/
theorem Views.completed_le (views : Views runtime state) (joint : state.Joint) :
    runtime.workflow.completedIds.length ≤ state.completionHistory.length := by
  have distinct := (WorkflowGraph.invariant_of_built views.built).distinct
  have inside : runtime.workflow.completedIds ⊆
      state.completionHistory.map CompletionRecord.taskId := fun taskId member =>
    joint.owned.lineage.completions.mem_iff.mp (views.completed taskId member)
  have bound := distinct.length_le_of_subset inside
  rwa [List.length_map] at bound

omit [FaithfulStore σ] in
/-- **A member that admits a new attempt knows all of them.** -/
theorem Views.newest (views : Views runtime state) (joint : state.Joint)
    (unknown : generatedAttemptId runtime.runId runtime.nextAttemptNumber ∉ state.admissions) :
    runtime.nextAttemptNumber = state.admissionHistory.length + 1 := by
  by_contra stale
  have first := views.first
  have bound := views.number
  refine unknown (joint.owned.lineage.admissions.mem_iff.mpr ?_)
  rw [joint.owned.numbered, ← views.runId]
  refine List.mem_map_of_mem (List.mem_range'_1.mpr ⟨first, ?_⟩)
  omega

omit [FaithfulStore σ] in
/-- **An admitted attempt is the next one that the member knows.** -/
theorem Views.admitting (views : Views runtime state) (joint : state.Joint) {taskId : Id}
    {operationId : Option OperationId} {pins : List CapabilityPin} {store : σ} {revision : Nat}
    (space : Spacious runtime)
    (reflected : state.Reflected
      (.admitAttempt (runtime.nextAttempt taskId operationId pins).admission)) :
    Views ((Action.admission (runtime.nextAttempt taskId operationId pins)).settle
      (runtime.accepted store revision)).2 state := by
  have lineage := joint.owned.lineage
  have first := views.first
  have counted := joint.counted
  have bounded := joint.bounded
  have completed := views.completed_le joint
  have sequence := views.sequence
  -- The identity names the place of the admission in the history.
  have member := lineage.admissions.mem_of_lookup reflected
  obtain ⟨index, inside, found⟩ := List.mem_iff_getElem.mp member
  have place : index + 1 = runtime.nextAttemptNumber := by
    have named : (state.admissionHistory.map AttemptAdmission.attemptId)[index]? =
        some (generatedAttemptId state.runId runtime.nextAttemptNumber) := by
      rw [List.getElem?_map, List.getElem?_eq_getElem inside, found, views.runId]
      rfl
    rw [joint.owned.numbered, List.getElem?_map, List.getElem?_range' inside,
      Option.map_some] at named
    have same := generatedAttemptId_injective _ (Option.some.inj named)
    omega
  have before : runtime.nextAttemptNumber - 1 = index := by omega
  have known : ((runtime.known ++ [runtime.nextAttempt taskId operationId pins]).map
      TaskAttempt.lineage).Perm ((state.admissionHistory.take
        (runtime.nextAttemptNumber + 1 - 1)).map AttemptAdmission.lineage) := by
    have longer : state.admissionHistory.take (runtime.nextAttemptNumber + 1 - 1) =
        state.admissionHistory.take (runtime.nextAttemptNumber - 1) ++
          [(runtime.nextAttempt taskId operationId pins).admission] := by
      rw [before, Nat.add_sub_cancel, ← place, List.take_add_one, List.getElem?_eq_getElem inside,
        found]
      rfl
    rw [longer, List.map_append, List.map_append]
    exact views.accounted.append_right _
  rcases Coherent.settle_admit_cases (runtime.nextAttempt taskId operationId pins)
    (runtime.accepted store revision) (show runtime.nextAttemptNumber < u64Max by omega) views.live
    (show runtime.executionSequencer.nextSequence < u64Max by omega) with
    ⟨events, settled⟩ | ⟨item, full, settled⟩
  · rw [settled]
    refine ⟨views.runId, views.intents, views.owners, Nat.le_add_left 1 _, ?_, ?_, views.built,
      views.completed, views.live, ?_⟩
    · show runtime.nextAttemptNumber + 1 ≤ _
      omega
    · refine List.Perm.trans (List.Perm.map _ ?_) known
      simp only [Runtime.known, Runtime.accepted, List.append_assoc]
      exact List.Perm.append_left _ List.perm_append_comm
    · show runtime.executionSequencer.nextSequence + 1 ≤
        runtime.nextAttemptNumber + 1 + runtime.workflow.completedIds.length
      omega
  · rw [settled]
    have idle : runtime.pendingStarted = none := by
      rcases space with idle | roomy
      · exact idle
      · exact absurd full roomy
    refine ⟨views.runId, views.intents, views.owners, Nat.le_add_left 1 _, ?_, ?_, views.built,
      views.completed, views.live, ?_⟩
    · show runtime.nextAttemptNumber + 1 ≤ _
      omega
    · simpa [Runtime.known, idle, Runtime.accepted] using known
    · show runtime.executionSequencer.nextSequence + 1 ≤
        runtime.nextAttemptNumber + 1 + runtime.workflow.completedIds.length
      omega

omit [FaithfulStore σ] in
/-- A completion that is durable is viewed. -/
theorem Views.complete (views : Views runtime state) (joint : state.Joint)
    {fact : CompletionRecord} {workflow : WorkflowGraph} {store : σ} {revision : Nat}
    (completed : runtime.workflow.complete fact.taskId = .ok workflow)
    (reflected : state.Reflected (.recordCompletion fact)) :
    Views ((Action.complete fact workflow).settle (runtime.accepted store revision)).2 state := by
  have ids := WorkflowGraph.completedIds_of_complete completed
  have built : workflow.Built := views.built.complete completed
  have listed : ∀ taskId ∈ workflow.completedIds, taskId ∈ state.completions := by
    rw [ids]
    exact DurableRunState.forall_mem_push views.completed (mem_of_lookup reflected)
  have bound : workflow.completedIds.length ≤ state.completionHistory.length := by
    have inside : workflow.completedIds ⊆ state.completionHistory.map CompletionRecord.taskId :=
      fun taskId member => joint.owned.lineage.completions.mem_iff.mp (listed taskId member)
    have bound := (WorkflowGraph.invariant_of_built built).distinct.length_le_of_subset inside
    rwa [List.length_map] at bound
  rw [ids, List.length_append, List.length_singleton] at bound
  have number := views.number
  have sequence := views.sequence
  have counted := joint.counted
  have bounded := joint.bounded
  obtain ⟨events, result, settled, _⟩ := Coherent.settle_complete_cases fact workflow
    (runtime.accepted store revision) views.live
    (show runtime.executionSequencer.nextSequence < u64Max by omega)
  rw [settled]
  refine ⟨views.runId, views.intents, views.owners, views.first, views.number, views.accounted,
    built, listed, views.live, ?_⟩
  show runtime.executionSequencer.nextSequence + 1 ≤
    runtime.nextAttemptNumber + workflow.completedIds.length
  rw [ids, List.length_append, List.length_singleton]
  omega

omit [FaithfulStore σ] in
/-- **Settling a durable fact keeps the views.** -/
theorem Views.settle (views : Views runtime state) (joint : state.Joint) {action : Action}
    {store : σ} {revision : Nat} (allowed : runtime.Allowed action)
    (space : ∀ attempt, action = .admission attempt → Spacious runtime)
    (reflected : state.Reflected action.mutation) :
    Views (action.settle (runtime.accepted store revision)).2 state := by
  cases action with
  | admission attempt =>
    obtain ⟨taskId, operationId, pins, _, rfl⟩ := allowed
    exact views.admitting joint (space _ rfl) reflected
  | complete fact workflow => exact views.complete joint allowed.1 reflected
  | intent fact journal =>
    obtain ⟨_, _, rfl⟩ := DurableJournal.persistIntent_ok allowed.2.2
    refine { views with intents := ?_, owners := ?_ }
    · intro operationId intent found
      have found : (runtime.journal.intents.insert fact.operationId fact)[operationId]? =
        some intent := found
      rw [lookup_insert] at found
      split at found
      · rename_i same
        cases found
        rw [← same]
        exact reflected
      · exact views.intents found
    · intro taskId operationId owned
      have owned : (runtime.journal.taskOperations.insert fact.taskId fact.operationId)[taskId]? =
        some operationId := owned
      rw [lookup_insert] at owned
      split at owned
      · rename_i same
        cases owned
        exact ⟨fact, reflected, same⟩
      · exact views.owners taskId operationId owned
  | dispatch fact journal =>
    obtain ⟨_, _, _, _, _, persisted⟩ := allowed
    obtain ⟨_, _, rfl⟩ := DurableJournal.persistDispatch_ok persisted
    exact { views with }
  | outcome fact journal =>
    obtain ⟨_, _, _, ⟨_, _, _, rfl⟩ | ⟨_, rfl⟩⟩ := DurableJournal.persistOutcome_ok allowed
    · exact { views with }
    · exact { views with }
  | cancel fact => exact { views with }
  | configure taskConfigs identity => exact { views with }
  | mutate workflow identity =>
    obtain ⟨_, _, _, _, _, applied⟩ := allowed
    have ids := WorkflowGraph.completedIds_of_applyBatch applied
    refine { views with built := views.built.batch applied, completed := ?_, sequence := ?_ }
    · show ∀ taskId ∈ workflow.completedIds, taskId ∈ state.completions
      rw [ids]
      exact views.completed
    · show _ ≤ runtime.nextAttemptNumber + workflow.completedIds.length
      rw [ids]
      exact views.sequence

omit [Postcard] [FaithfulStore σ] in
/-- The intent that the journal of a member finds is durable. -/
theorem Views.intent (views : Views runtime state) {operationId : OperationId}
    {intent : EffectIntent} (found : runtime.journal.intent operationId = .ok intent) :
    state.intents[operationId]? = some intent := by
  unfold DurableJournal.intent at found
  split at found
  · cases found
  · rename_i held lookup
    cases found
    exact views.intents lookup

omit [Postcard] [FaithfulStore σ] in
/-- **What a member that chooses to admit an attempt of an operation knows**: the operation is of
that task, and if it is not idempotent, no attempt of it. -/
theorem Views.admission (views : Views runtime state) {command : Command} {attempt : TaskAttempt}
    {after : After} (chosen : Chooses runtime command (.admission attempt) after)
    {operationId : OperationId} (carried : attempt.operationId = some operationId) :
    ∃ intent : EffectIntent, state.intents[operationId]? = some intent ∧
      intent.taskId = attempt.taskId ∧ (intent.semantics = .nonIdempotent →
        runtime.attemptForTask attempt.taskId (some operationId) = none) := by
  cases chosen with
  | begin found live prepared missing =>
    cases carried
    exact ⟨_, views.intent found, rfl, fun _ => missing⟩
  | retry found live unknown idempotent =>
    cases carried
    exact ⟨_, views.intent found, rfl, fun exclusive => absurd exclusive idempotent⟩
  | stepBegin => cases carried
  | stepAdmit idle ready prepared missing pinned owned =>
    cases carried
    obtain ⟨intent, found, same⟩ := views.owners _ _ owned
    exact ⟨intent, found, same, fun _ => missing⟩

omit [Postcard] [FaithfulStore σ] in
/-- A member that knows all attempts finds the attempts of an operation. -/
theorem Views.missing (views : Views runtime state)
    (newest : runtime.nextAttemptNumber = state.admissionHistory.length + 1) {taskId : Id}
    {operationId : OperationId} (missing : runtime.attemptForTask taskId (some operationId) = none)
    {admission : AttemptAdmission} (member : admission ∈ state.admissionHistory)
    (same : admission.taskId = taskId) : admission.operationId ≠ some operationId := by
  intro carried
  have all := views.accounted
  rw [newest, Nat.add_sub_cancel, List.take_length] at all
  obtain ⟨attempt, held, named⟩ := List.mem_map.mp
    (all.mem_iff.mpr (List.mem_map_of_mem (f := AttemptAdmission.lineage) member))
  have belongs : belongsTo taskId (some operationId) attempt = true := by
    simp only [TaskAttempt.lineage, AttemptAdmission.lineage, Prod.mk.injEq] at named
    simp [belongsTo, named, same, carried]
  rw [not_belongsTo_of_missing missing held] at belongs
  cases belongs

end Views

/-! ### Durable facts -/

section Joint

variable {runtime reached : Runtime σ ν} {state next : DurableRunState} {command : Command}
  {action : Action} {after : After} {result : Except RuntimeError Unit}

omit [Postcard] [FaithfulStore σ] in
/-- One mutation adds at most one admission or completion. -/
theorem counted_of_accepted {mutation : DurableMutation}
    (accepted : DurableRunState.Accepted state mutation next) :
    next.admissionHistory.length + next.completionHistory.length ≤
      state.admissionHistory.length + state.completionHistory.length + 1 := by
  cases accepted with
  | admission =>
    simp only [List.length_append, List.length_singleton]
    omega
  | completion =>
    simp only [List.length_append, List.length_singleton]
    omega
  | _ => exact Nat.le_succ _

omit [FaithfulStore σ] in
/-- **A new admission of an operation that is not idempotent is its only one.** -/
theorem Views.only (views : Views runtime state) (joint : state.Joint) {attempt : TaskAttempt}
    (chosen : Chooses runtime command (.admission attempt) after)
    (unknown : attempt.attemptId ∉ state.admissions) {operationId : OperationId}
    {intent : EffectIntent} (carried : attempt.operationId = some operationId)
    (prepared : state.intents[operationId]? = some intent)
    (exclusive : intent.semantics = .nonIdempotent) {admission : AttemptAdmission}
    (member : admission ∈ state.admissionHistory) : admission.operationId ≠ some operationId := by
  intro same
  obtain ⟨other, found, task, alone⟩ := views.admission chosen carried
  rw [prepared] at found
  cases found
  obtain ⟨owner, held, owned⟩ := joint.owner admission member operationId same
  rw [prepared] at held
  cases held
  have newest : runtime.nextAttemptNumber = state.admissionHistory.length + 1 := by
    obtain ⟨_, _, _, _, rfl⟩ := allowed_of_chooses chosen
    exact views.newest joint unknown
  exact views.missing newest (alone exclusive) member (owned.symm.trans task) same

omit [FaithfulStore σ] in
/-- **A fresh commit of a chosen action keeps the durable facts.** -/
theorem Freshens.joint (fresh : Freshens runtime state action next)
    (chosen : ∀ attempt, action = .admission attempt →
      ∃ command after, Chooses runtime command action after)
    (views : Views runtime state) (joint : state.Joint) : next.Joint := by
  have onward := fresh.onward
  obtain ⟨key, candidate, own, newKey, accepted, rfl⟩ := fresh.stored
  have room := fresh.room
  have history := accepted.admissions_or
  refine ⟨joint.owned.commit room own newKey accepted ?_, room, ?_, ?_, ?_⟩
  · intro admission same
    cases action <;> cases same
    obtain ⟨command, after, chosen⟩ := chosen _ rfl
    obtain ⟨_, _, _, _, rfl⟩ := allowed_of_chooses chosen
    cases accepted with
    | admission _ _ unknown =>
      have newest := views.newest joint unknown
      rw [← newest, views.runId]
      rfl
  · have more := counted_of_accepted accepted
    have counted := joint.counted
    show candidate.admissionHistory.length + candidate.completionHistory.length < state.revision + 1
    omega
  · intro admission member operationId carried
    have member : admission ∈ candidate.admissionHistory := member
    have old : admission ∈ state.admissionHistory →
        ∃ intent : EffectIntent, candidate.intents[operationId]? = some intent ∧
          intent.taskId = admission.taskId := by
      intro before
      obtain ⟨intent, found, same⟩ := joint.owner admission before operationId carried
      exact ⟨intent, onward.more.intents found, same⟩
    rcases history with ⟨added, same, longer⟩ | kept
    · rw [longer] at member
      rcases List.mem_append.mp member with before | last
      · exact old before
      · cases List.mem_singleton.mp last
        cases action <;> cases same
        obtain ⟨command, after, chosen⟩ := chosen _ rfl
        obtain ⟨intent, found, task, _⟩ := views.admission chosen carried
        exact ⟨intent, onward.more.intents found, task⟩
    · rw [kept] at member
      exact old member
  · intro operationId intent prepared exclusive first inFirst second inSecond ofFirst ofSecond
    replace inFirst : first ∈ candidate.admissionHistory := inFirst
    replace inSecond : second ∈ candidate.admissionHistory := inSecond
    -- An admission of the operation has its intent, which is the one that is there now.
    have before : ∀ admission ∈ state.admissionHistory,
        admission.operationId = some operationId → state.intents[operationId]? = some intent := by
      intro admission member carried
      obtain ⟨held, found, _⟩ := joint.owner admission member operationId carried
      have now := onward.more.intents found
      rw [prepared] at now
      cases now
      exact found
    rcases history with ⟨added, same, longer⟩ | kept
    · cases action <;> cases same
      rename_i attempt
      obtain ⟨command, after, chosen⟩ := chosen attempt rfl
      have alone : attempt.operationId = some operationId → ∀ admission ∈ state.admissionHistory,
          admission.operationId ≠ some operationId := by
        intro carried admission member same
        cases accepted with
        | admission _ _ unknown =>
          exact views.only joint chosen unknown carried (before admission member same) exclusive
            member same
      rw [longer] at inFirst inSecond
      rcases List.mem_append.mp inFirst with oldFirst | newFirst
      · rcases List.mem_append.mp inSecond with oldSecond | newSecond
        · exact joint.single operationId intent (before first oldFirst ofFirst) exclusive first
            oldFirst second oldSecond ofFirst ofSecond
        · cases List.mem_singleton.mp newSecond
          exact absurd ofFirst (alone ofSecond first oldFirst)
      · cases List.mem_singleton.mp newFirst
        rcases List.mem_append.mp inSecond with oldSecond | newSecond
        · exact absurd ofSecond (alone ofFirst second oldSecond)
        · exact (List.mem_singleton.mp newSecond).symm
    · rw [kept] at inFirst inSecond
      exact joint.single operationId intent (before first inFirst ofFirst) exclusive first inFirst
        second inSecond ofFirst ofSecond

/-- **What a chosen action of a member keeps.** -/
theorem Submitted.keeps (submitted : Submitted runtime state action result reached next)
    (allowed : runtime.Allowed action)
    (chosen : ∀ attempt, action = .admission attempt →
      Spacious runtime ∧ ∃ command after, Chooses runtime command action after)
    (views : Views runtime state) (joint : state.Joint) : Views reached next ∧ next.Joint := by
  have onward := submitted.onward
  cases submitted with
  | refused => exact ⟨{ views with }, joint⟩
  | taken reflected went =>
    have kept : next.Joint := by
      rcases went with rfl | fresh
      · exact joint
      · exact fresh.joint (fun attempt same => (chosen attempt same).2) views joint
    exact ⟨(views.mono onward).settle kept allowed (fun attempt same => (chosen attempt same).1)
      reflected, kept⟩

end Joint

end Runtime

end Kernis
