/-
**What a shutdown answers.**

A shutdown recovers every operation whose outcome the durable state knows, and then classifies the
durable state that this left. The recovery looks at the runtime's own journal and workflow.

* `shutdownClass` — the class of an operation that is left undone. `Names` — the status names the least
  operation of the most severe class there is; `names_classifyShutdown`: it always does.
* `Settles` — the recovery of an operation completes its task. `Recovering` — what the loop over the
  known outcomes keeps; `Recovering.step`, `recovering_recoverAll`.
* `shutdown_clean_iff` — a clean answer is right exactly if the runtime knew of every durable success
  (`Informed`), as it does while nobody else writes to its run (`Synced.informed`).
-/

import Kernis.Driver.RuntimeDriver
import Kernis.Runtime.Consistent

namespace Kernis

open Std Fallible

/-! ### The classification -/

/-- The classes of operations that a shutdown reports, the most severe one first. -/
inductive ShutdownClass
  | nonIdempotentUnknown
  | idempotentUnknown
  | undispatched
  | knownFailure
deriving DecidableEq

/-- The first key of a map that satisfies a property is the least one. -/
theorem find?_keys_least {α β : Type} [Ord α] [TransOrd α] [LawfulEqOrd α] {map : BTreeMap α β}
    {good : α → Bool} {first : α} (found : map.keys.find? good = some first) :
    good first = true ∧ ∀ other, other ∈ map → good other = true → (compare first other).isLE := by
  obtain ⟨holds, front, back, split_, before⟩ := List.find?_eq_some_iff_append.mp found
  refine ⟨holds, fun other member fine => ?_⟩
  have sorted : map.keys.Pairwise fun left right => compare left right = .lt :=
    ExtTreeMap.ordered_keys
  have listed := ExtTreeMap.mem_keys.mpr member
  rw [split_] at listed sorted
  rcases List.mem_append.mp listed with earlier | later
  · have bad := before other earlier
    rw [fine] at bad
    cases bad
  · rcases List.mem_cons.mp later with rfl | later
    · rw [compare_self]
      rfl
    · have ahead := (List.pairwise_cons.mp (List.pairwise_append.mp sorted).2.1).1 other later
      rw [ahead]
      rfl

namespace DurableRunState

variable {state : DurableRunState}

/-- The class of an operation, if it is left undone. -/
def shutdownClass (state : DurableRunState) (operationId : OperationId) : Option ShutdownClass :=
  match state.intents[operationId]? with
  | none => none
  | some intent =>
    match state.effectState operationId with
    | .prepared => if intent.taskId ∈ state.cancellations then none else some .undispatched
    | .outcomeUnknown =>
      if intent.semantics = .nonIdempotent then some .nonIdempotentUnknown
      else some .idempotentUnknown
    | .outcomeKnown .failed => some .knownFailure
    | .outcomeKnown .succeeded => none
    | .notPrepared => none

/-- An operation is of a class. -/
def isOf (state : DurableRunState) (one : ShutdownClass) (operationId : OperationId) : Bool :=
  state.shutdownClass operationId = some one

/-- An operation is the least one of its class. -/
def Least (state : DurableRunState) (one : ShutdownClass) (operationId : OperationId) : Prop :=
  state.shutdownClass operationId = some one ∧
    ∀ other, state.shutdownClass other = some one → (compare operationId other).isLE

/-- No operation is of a class. -/
def Without (state : DurableRunState) (one : ShutdownClass) : Prop :=
  ∀ operationId, state.shutdownClass operationId ≠ some one

/-- **A status names the least operation of the most severe class there is.** -/
def Names (state : DurableRunState) : ShutdownStatus → Prop
  | .reconciliationRequired operationId => state.Least .nonIdempotentUnknown operationId
  | .pendingUnknown operationId =>
    state.Without .nonIdempotentUnknown ∧ state.Least .idempotentUnknown operationId
  | .pendingDispatch operationId =>
    state.Without .nonIdempotentUnknown ∧ state.Without .idempotentUnknown ∧
      state.Least .undispatched operationId
  | .observedFailure operationId =>
    state.Without .nonIdempotentUnknown ∧ state.Without .idempotentUnknown ∧
      state.Without .undispatched ∧ state.Least .knownFailure operationId
  | .clean => ∀ one, state.Without one

/-- **What the loop of the classification finds**: the first operation of each class, unless it returns
early at one of the most severe class. -/
theorem classifyShutdownLoop_eq (operationIds : List OperationId) (findings : ShutdownFindings) :
    classifyShutdownLoop state operationIds findings =
      (operationIds.find? (state.isOf .nonIdempotentUnknown)).elim
        (ShutdownFindings.status
          ⟨findings.pendingDispatch.or (operationIds.find? (state.isOf .undispatched)),
            findings.pendingUnknown.or (operationIds.find? (state.isOf .idempotentUnknown)),
            findings.observedFailure.or (operationIds.find? (state.isOf .knownFailure))⟩)
        .reconciliationRequired := by
  induction operationIds generalizing findings with
  | nil =>
    simp only [List.find?_nil, Option.or_none]
    rfl
  | cons operationId rest ih =>
    have classed : ∀ one : ShutdownClass, state.isOf one operationId =
        decide (state.shutdownClass operationId = some one) := fun _ => rfl
    simp only [List.find?_cons, classed]
    unfold classifyShutdownLoop shutdownClass
    cases state.intents[operationId]? with
    | none => exact ih findings
    | some intent =>
      cases state.effectState operationId with
      | notPrepared => exact ih findings
      | prepared =>
        by_cases cancelled : intent.taskId ∈ state.cancellations
        · simp [cancelled, ih]
        · cases first : findings.pendingDispatch with
          | none => simp [cancelled, ih]
          | some earlier => simp [cancelled, ih, first]
      | outcomeUnknown =>
        by_cases final : intent.semantics = .nonIdempotent
        · simp [final]
        · cases first : findings.pendingUnknown with
          | none => simp [final, ih]
          | some earlier => simp [final, ih, first]
      | outcomeKnown outcome =>
        cases outcome with
        | succeeded => exact ih findings
        | failed =>
          cases first : findings.observedFailure with
          | none => simp [ih]
          | some earlier => simp [ih, first]

/-- An operation of a class has an intent. -/
theorem mem_of_class {operationId : OperationId} {one : ShutdownClass}
    (classed : state.shutdownClass operationId = some one) : operationId ∈ state.intents := by
  unfold shutdownClass at classed
  cases found : state.intents[operationId]? with
  | none =>
    rw [found] at classed
    cases classed
  | some intent => exact mem_of_lookup found

theorem least_of_find? {one : ShutdownClass} {operationId : OperationId}
    (found : state.operationIds.find? (state.isOf one) = some operationId) :
    state.Least one operationId := by
  obtain ⟨holds, least⟩ := find?_keys_least found
  exact ⟨of_decide_eq_true holds, fun other classed =>
    least other (mem_of_class classed) (decide_eq_true classed)⟩

theorem without_of_find? {one : ShutdownClass}
    (missing : state.operationIds.find? (state.isOf one) = none) : state.Without one := by
  intro operationId classed
  have listed : operationId ∈ state.operationIds := ExtTreeMap.mem_keys.mpr (mem_of_class classed)
  exact List.find?_eq_none.mp missing operationId listed (decide_eq_true classed)

/-- **The classification names what it says.** -/
theorem names_classifyShutdown (state : DurableRunState) : state.Names (classifyShutdown state) := by
  unfold classifyShutdown
  rw [classifyShutdownLoop_eq]
  simp only [Option.none_or]
  cases final : state.operationIds.find? (state.isOf .nonIdempotentUnknown) with
  | some operationId => exact least_of_find? final
  | none =>
    have noFinal := without_of_find? final
    simp only [Option.elim_none]
    unfold ShutdownFindings.status
    cases unknown : state.operationIds.find? (state.isOf .idempotentUnknown) with
    | some operationId => exact ⟨noFinal, least_of_find? unknown⟩
    | none =>
      have noUnknown := without_of_find? unknown
      cases waits : state.operationIds.find? (state.isOf .undispatched) with
      | some operationId => exact ⟨noFinal, noUnknown, least_of_find? waits⟩
      | none =>
        have noWaiting := without_of_find? waits
        cases failed : state.operationIds.find? (state.isOf .knownFailure) with
        | some operationId => exact ⟨noFinal, noUnknown, noWaiting, least_of_find? failed⟩
        | none =>
          intro one
          cases one with
          | nonIdempotentUnknown => exact noFinal
          | idempotentUnknown => exact noUnknown
          | undispatched => exact noWaiting
          | knownFailure => exact without_of_find? failed

end DurableRunState

/-! ### Commits against any durable state -/

namespace DurableRunState

variable {state next : DurableRunState}

/-- The effect facts and the cancellations are the same. -/
structure SameEffects (state next : DurableRunState) : Prop where
  intents : next.intents = state.intents
  dispatches : next.dispatchHistory = state.dispatchHistory
  outcomes : next.outcomes = state.outcomes
  cancellations : next.cancellations = state.cancellations

theorem SameEffects.refl (state : DurableRunState) : SameEffects state state := ⟨rfl, rfl, rfl, rfl⟩

theorem SameEffects.trans {middle : DurableRunState} (first : SameEffects state middle)
    (second : SameEffects middle next) : SameEffects state next :=
  ⟨second.intents.trans first.intents, second.dispatches.trans first.dispatches,
    second.outcomes.trans first.outcomes, second.cancellations.trans first.cancellations⟩

theorem SameEffects.effectState (same : SameEffects state next) (operationId : OperationId) :
    next.effectState operationId = state.effectState operationId := by
  unfold DurableRunState.effectState latestDispatch dispatchesOf
  rw [same.intents, same.dispatches, same.outcomes]

variable [Postcard]

/-- **What a commit of a completion leaves**, whatever the state it meets. -/
theorem committed_completion {runId : RunId} (reachable : state.Reachable runId)
    {request : CommitRequest} {fact : CompletionRecord} {result : CommitResult}
    (own : request.mutations = [.recordCompletion fact])
    (committed : state.commit request = .ok (result, next)) :
    SameEffects state next ∧ ∀ taskId, taskId ∈ next.completions ↔
      taskId = fact.taskId ∨ taskId ∈ state.completions := by
  rcases commit_iff.mp committed with ⟨⟨revision, remembered⟩, _, rfl⟩ | ⟨fresh, _⟩
  · rw [own] at remembered
    have held : next.completions[fact.taskId]? = some fact :=
      reflected_of_reachable reachable remembered _ (List.mem_singleton.mpr rfl)
    refine ⟨.refl next, fun taskId => ⟨.inr, ?_⟩⟩
    rintro (rfl | member)
    · exact mem_of_lookup held
    · exact member
  · obtain ⟨candidate, applied, rfl⟩ := fresh.applied
    rw [own] at applied
    cases applyMutations_singleton.mp applied with
    | completionKnown _ _ _ _ _ known =>
      refine ⟨⟨rfl, rfl, rfl, rfl⟩, fun taskId => ⟨.inr, ?_⟩⟩
      rintro (rfl | member)
      · exact mem_of_lookup known
      · exact member
    | completion => exact ⟨⟨rfl, rfl, rfl, rfl⟩, fun taskId => mem_insert_iff _ _ _ _⟩

end DurableRunState

/-- A commit that the in-memory store accepts is one that the state of its run accepts. -/
theorem InMemoryDurableStore.commit_ok [Postcard] {store : InMemoryDurableStore}
    {request : CommitRequest} {state : DurableRunState} {result : CommitResult}
    (found : store.runs[request.runId]? = some state)
    (answered : (store.commit request).1 = .ok result) :
    ∃ next, state.commit request = .ok (result, next) ∧
      (store.commit request).2.runs[request.runId]? = some next := by
  unfold commit at answered ⊢
  split at answered
  · cases answered
  · rename_i nonempty
    rw [if_neg nonempty, found]
    rw [found] at answered
    simp only at answered ⊢
    cases committed : state.commit request with
    | error error =>
      rw [committed] at answered
      cases answered
    | ok outcome =>
      obtain ⟨given, next⟩ := outcome
      rw [committed] at answered
      simp only at answered ⊢
      by_cases replayed : given.replayed = true
      · rw [if_pos replayed] at answered ⊢
        cases answered
        rcases DurableRunState.commit_iff.mp committed with ⟨_, _, rfl⟩ | ⟨_, rfl⟩
        · exact ⟨next, rfl, found⟩
        · cases replayed
      · rw [if_neg replayed] at answered ⊢
        cases answered
        exact ⟨next, rfl, lookup_insert_self _ _ _⟩

namespace Runtime

variable {σ ν : Type} [Postcard] [FaithfulStore σ]

/-- **What an action that is accepted does to the store**, whatever the views of the runtime. -/
theorem act_committed {action : Action} {runtime reached : Runtime σ ν} {state : DurableRunState}
    (backed : runtime.Backed state) (done : act action runtime = (.ok (), reached)) :
    ∃ result next store, state.commit (action.request runtime) = .ok (result, next) ∧
      reached.Backed next ∧
      action.settle (runtime.accepted store result.revision) = (.ok (), reached) := by
  rw [act_eq] at done
  rcases answer : DurableStore.commit (action.request runtime) runtime.store with ⟨result, store⟩
  rw [answer] at done
  cases result with
  | error error => cases done
  | ok result =>
    have faithful := FaithfulStore.commits (action.request runtime) runtime.store
    rw [answer] at faithful
    rcases faithful with ⟨answered, changed⟩ | ⟨⟨_, failed, _⟩, _⟩
    · have found : (FaithfulStore.content runtime.store).runs[(action.request runtime).runId]? =
        some state := backed
      obtain ⟨next, committed, held⟩ := InMemoryDurableStore.commit_ok found answered.symm
      have settled := settle_same action (runtime.accepted store result.revision)
      simp only at done changed
      rw [done] at settled
      refine ⟨result, next, store, committed, ?_, done⟩
      unfold Backed
      rw [settled.1, settled.2]
      show (FaithfulStore.content store).runs[runtime.runId]? = some next
      rw [changed]
      exact held
    · cases failed

/-! ### One recovery -/

/-- The recovery of an operation completes its task: the runtime knows that it succeeded, and has not
completed the task. -/
def Settles (runtime : Runtime σ ν) (operationId : OperationId) (taskId : Id) : Prop :=
  ∃ intent, runtime.journal.intent operationId = .ok intent ∧ intent.taskId = taskId ∧
    runtime.journal.state operationId = .outcomeKnown .succeeded ∧
    (runtime.workflow.task taskId).isSome = true ∧ runtime.workflow.isCompleted taskId = false

/-- **What the recoveries of a list of operations keep and reach**, from a runtime and a state. -/
structure Recovering (first : Runtime σ ν) (before : DurableRunState) (operationIds : List OperationId)
    (runtime : Runtime σ ν) (state : DurableRunState) : Prop where
  backed : runtime.Backed state
  reachable : state.Reachable runtime.runId
  runId : runtime.runId = first.runId
  journal : runtime.journal = first.journal
  topology : runtime.workflow.topology = first.workflow.topology
  effects : DurableRunState.SameEffects before state
  kept : ∀ taskId : Id, taskId ∈ before.completions → taskId ∈ state.completions
  settled : ∀ taskId : Id, taskId ∈ state.completions → taskId ∈ before.completions ∨
    ∃ operationId ∈ operationIds, first.Settles operationId taskId
  completed : ∀ taskId, runtime.workflow.isCompleted taskId = true →
    first.workflow.isCompleted taskId = true ∨ taskId ∈ state.completions
  lasting : ∀ taskId, first.workflow.isCompleted taskId = true →
    runtime.workflow.isCompleted taskId = true
  all : ∀ operationId ∈ operationIds, ∀ taskId, first.Settles operationId taskId →
    taskId ∈ state.completions

variable {first runtime reached : Runtime σ ν} {before state : DurableRunState}
  {operationIds : List OperationId}

theorem Recovering.start (backed : first.Backed before) (reachable : before.Reachable first.runId) :
    Recovering first before [] first before where
  backed := backed
  reachable := reachable
  runId := rfl
  journal := rfl
  topology := rfl
  effects := .refl before
  kept _ member := member
  settled _ member := .inl member
  completed _ done := .inl done
  lasting _ done := done
  all _ member := absurd member List.not_mem_nil

/-- What a task settled by the current runtime says of the first one. -/
theorem Recovering.task (recovering : Recovering first before operationIds runtime state)
    (taskId : Id) : runtime.workflow.task taskId = first.workflow.task taskId := by
  unfold WorkflowGraph.task
  rw [recovering.topology]

/-- A recovery that completes nothing leaves nothing to complete. -/
theorem Recovering.skip (recovering : Recovering first before operationIds runtime state)
    {operationId : OperationId}
    (nothing : ∀ taskId, first.Settles operationId taskId → taskId ∈ state.completions) :
    Recovering first before (operationIds ++ [operationId]) runtime state :=
  { recovering with
    settled := fun taskId member => (recovering.settled taskId member).imp id
      fun ⟨other, listed, settles⟩ => ⟨other, List.mem_append_left _ listed, settles⟩
    all := fun other member taskId settles => by
      rcases List.mem_append.mp member with listed | last
      · exact recovering.all other listed taskId settles
      · rw [List.mem_singleton.mp last] at settles
        exact nothing taskId settles }

omit [Postcard] [FaithfulStore σ] in
/-- **The classification of a known success** decides on its completion exactly if it is open. -/
theorem classifyRecovery_settles {operationId : OperationId} {taskId : Id}
    (settles : runtime.Settles operationId taskId) : ∃ reason,
    classifyRecovery runtime.workflow runtime.journal operationId =
      .ok ⟨.completeWithoutReexecution, reason⟩ := by
  obtain ⟨intent, prepared, rfl, known, task, open_⟩ := settles
  obtain ⟨record, held, _⟩ := DurableJournal.knownOutcome_of_outcomeKnown known
  have present : (runtime.workflow.task intent.taskId).isNone = false := by
    rw [← Option.not_isSome, task]
    rfl
  unfold classifyRecovery
  rw [prepared]
  simp only [present, known, held, open_]
  exact ⟨_, rfl⟩

omit [Postcard] [FaithfulStore σ] in
/-- Announcing a completion changes neither the journal nor the run. -/
theorem settle_complete_same (fact : CompletionRecord) (workflow : WorkflowGraph)
    (runtime : Runtime σ ν) :
    ((Action.complete fact workflow).settle runtime).2.workflow = workflow ∧
      ((Action.complete fact workflow).settle runtime).2.journal = runtime.journal ∧
      ((Action.complete fact workflow).settle runtime).2.runId = runtime.runId := by
  rw [settle_complete]
  repeat' split
  all_goals exact ⟨rfl, rfl, rfl⟩

/-- A completion that goes through leaves its task completed. -/
theorem Recovering.complete (recovering : Recovering first before operationIds runtime state)
    {operationId : OperationId} {taskId : Id} {attemptId : AttemptId} {workflow : WorkflowGraph}
    {next : DurableRunState} {request : CommitRequest} {result : CommitResult} {store : σ}
    (settles : runtime.Settles operationId taskId)
    (accepted : runtime.workflow.complete taskId = .ok workflow)
    (own : request.runId = runtime.runId ∧ request.mutations = [.recordCompletion ⟨taskId, attemptId⟩])
    (committed : state.commit request = .ok (result, next)) (backed : reached.Backed next)
    (settled : (Action.complete ⟨taskId, attemptId⟩ workflow).settle
      (runtime.accepted store result.revision) = (.ok (), reached)) :
    Recovering first before (operationIds ++ [operationId]) reached next := by
  obtain ⟨sameWorkflow, sameJournal, sameRun⟩ :=
    settle_complete_same ⟨taskId, attemptId⟩ workflow (runtime.accepted store result.revision)
  rw [settled] at sameWorkflow sameJournal sameRun
  obtain ⟨effects, completions⟩ :=
    DurableRunState.committed_completion recovering.reachable own.2 committed
  have reachable : next.Reachable runtime.runId := by
    rcases DurableRunState.commit_iff.mp committed with ⟨_, _, rfl⟩ | ⟨fresh, _⟩
    · exact recovering.reachable
    · exact recovering.reachable.commit own.1 (by rw [own.2]; exact List.cons_ne_nil _ _) fresh
  have finished (other : Id) : reached.workflow.isCompleted other = true ↔
      other = taskId ∨ runtime.workflow.isCompleted other = true := by
    rw [sameWorkflow]
    exact WorkflowGraph.isCompleted_of_complete accepted
  have origin : first.Settles operationId taskId := by
    obtain ⟨intent, prepared, same, known, task, open_⟩ := settles
    rw [recovering.journal] at prepared known
    rw [recovering.task] at task
    refine ⟨intent, prepared, same, known, task, Bool.eq_false_iff.mpr fun done => ?_⟩
    rw [recovering.lasting taskId done] at open_
    cases open_
  have grown : ∀ other : Id, other ∈ state.completions → other ∈ next.completions :=
    fun other member => (completions other).mpr (.inr member)
  refine ⟨backed, ?_, sameRun.trans recovering.runId, sameJournal.trans recovering.journal, ?_,
    recovering.effects.trans effects, fun other member => grown other (recovering.kept other member),
    fun other member => ?_, fun other done => ?_,
    fun other done => (finished other).mpr (.inr (recovering.lasting other done)),
    fun other listed task settles => ?_⟩
  · rw [sameRun]
    exact reachable
  · rw [sameWorkflow, WorkflowGraph.topology_of_complete accepted, recovering.topology]
  · rcases (completions other).mp member with rfl | member
    · exact .inr ⟨operationId, List.mem_append_right _ (List.mem_singleton.mpr rfl), origin⟩
    · exact (recovering.settled other member).imp id
        fun ⟨one, listed, settles⟩ => ⟨one, List.mem_append_left _ listed, settles⟩
  · rcases (finished other).mp done with rfl | done
    · exact .inr ((completions other).mpr (.inl rfl))
    · exact (recovering.completed other done).imp id (grown other)
  · rcases List.mem_append.mp listed with listed | last
    · exact grown task (recovering.all other listed task settles)
    · rw [List.mem_singleton.mp last] at settles
      obtain ⟨intent, prepared, rfl, _⟩ := settles
      obtain ⟨same, found, rfl, _⟩ := origin
      rw [prepared] at found
      cases found
      exact (completions _).mpr (.inl rfl)

/-- **A recovery that returns** leaves its task completed if it settles it. -/
theorem Recovering.step (recovering : Recovering first before operationIds runtime state)
    {operationId : OperationId} {decision : RecoveryDecision}
    (done : recover operationId runtime = (.ok decision, reached)) :
    ∃ next, Recovering first before (operationIds ++ [operationId]) reached next := by
  unfold recover at done
  rw [run_bind, run_get] at done
  obtain ⟨classed, between, classified, done⟩ := bind_ok.mp done
  rw [run_lift] at classified
  obtain ⟨looked, rfl⟩ := Prod.mk.inj classified
  rw [except_mapError_ok] at looked
  by_cases completes : classed.action = .completeWithoutReexecution
  · rw [if_pos completes] at done
    obtain ⟨_, middle, finished, answered⟩ := bind_ok.mp done
    cases answered
    obtain ⟨intent, record, prepared, known, held, _, open_⟩ :=
      classifyRecovery_complete looked completes
    unfold completeKnown at finished
    rw [run_bind, run_get] at finished
    obtain ⟨found, same, lifted, finished⟩ := bind_ok.mp finished
    rw [run_lift, prepared] at lifted
    cases lifted
    simp only [held] at finished
    rw [if_neg (by rw [open_]; exact Bool.false_ne_true)] at finished
    rw [completeTask_eq] at finished
    cases accepted : runtime.workflow.complete intent.taskId with
    | error error =>
      rw [accepted] at finished
      cases finished
    | ok workflow =>
      rw [accepted] at finished
      obtain ⟨result, next, store, committed, backed, settled⟩ :=
        act_committed recovering.backed finished
      have settles : runtime.Settles operationId intent.taskId := by
        refine ⟨intent, prepared, rfl, known, ?_, open_⟩
        obtain ⟨member, _⟩ := WorkflowGraph.complete_eq_ok accepted
        unfold WorkflowGraph.task
        rw [← ExtTreeMap.mem_iff_isSome_getElem?]
        exact member
      exact ⟨next, recovering.complete settles accepted ⟨rfl, rfl⟩ committed backed settled⟩
  · rw [if_neg completes] at done
    cases done
    refine ⟨state, recovering.skip fun taskId settles => ?_⟩
    by_contra unfinished
    obtain ⟨intent, prepared, own, known, task, open_⟩ := settles
    have still : runtime.Settles operationId taskId := by
      refine ⟨intent, ?_, own, ?_, ?_, ?_⟩
      · rw [recovering.journal]
        exact prepared
      · rw [recovering.journal]
        exact known
      · rw [recovering.task]
        exact task
      · rw [Bool.eq_false_iff]
        intro finished
        rcases recovering.completed taskId finished with earlier | later
        · rw [open_] at earlier
          cases earlier
        · exact unfinished later
    obtain ⟨reason, decided⟩ := classifyRecovery_settles still
    rw [looked] at decided
    cases decided
    exact completes rfl

end Runtime

/-! ### The shutdown -/

namespace RuntimeDriver

variable {σ ν : Type} [Postcard] [FaithfulStore σ]

section Run

variable {driver reached : RuntimeDriver σ ν} {before : DurableRunState}

omit [Postcard] [FaithfulStore σ] in
theorem orRuntimeError_ok {α : Type} {one : Fallible (RuntimeDriver σ ν) RuntimeError α} {value : α}
    (done : orRuntimeError one driver = (.ok value, reached)) : one driver = (.ok value, reached) := by
  unfold orRuntimeError at done
  rcases ended : one driver with ⟨error | given, middle⟩
  · rw [ended] at done
    cases done
  · rw [ended] at done
    cases done
    rfl

omit [Postcard] [FaithfulStore σ] in
theorem call_ok {α : Type} {operation : Operation ν} {method : Op σ ν α} {value : α}
    (done : call operation method driver = (.ok value, reached)) :
    method driver.runtime = (.ok value, reached.runtime) := by
  obtain ⟨answered, rfl⟩ := Prod.mk.inj done
  exact Prod.ext answered rfl

/-- **What the recoveries of a shutdown reach**, when all of them return. -/
theorem recovering_recoverAll {first : Runtime σ ν} {earlier operationIds : List OperationId}
    {state : DurableRunState}
    (recovering : Runtime.Recovering first before earlier driver.runtime state)
    (done : recoverAll operationIds driver = (.ok (), reached)) :
    ∃ next, Runtime.Recovering first before (earlier ++ operationIds) reached.runtime next := by
  induction operationIds generalizing earlier driver state with
  | nil =>
    cases done
    rw [List.append_nil]
    exact ⟨state, recovering⟩
  | cons operationId rest ih =>
    unfold recoverAll at done
    obtain ⟨decision, middle, one, others⟩ := bind_ok.mp done
    obtain ⟨between, stepped⟩ := recovering.step (call_ok (orRuntimeError_ok one))
    obtain ⟨next, last⟩ := ih stepped others
    rw [List.append_assoc, List.singleton_append] at last
    exact ⟨next, last⟩

omit [Postcard] [FaithfulStore σ] in
/-- Retrying the held item changes neither what the runtime knows nor its store. -/
theorem retryPendingLifecycle_ok {driver reached : RuntimeDriver σ ν}
    (done : retryPendingLifecycle driver = (.ok (), reached)) :
    reached.runtime.runId = driver.runtime.runId ∧ reached.runtime.store = driver.runtime.store ∧
      reached.runtime.journal = driver.runtime.journal ∧
      reached.runtime.workflow = driver.runtime.workflow := by
  unfold retryPendingLifecycle at done
  cases held : driver.pendingLifecycle with
  | none =>
    rw [held] at done
    cases done
    exact ⟨rfl, rfl, rfl, rfl⟩
  | some item =>
    rw [held] at done
    simp only [call] at done
    rw [Runtime.retryExecutionEvent_eq] at done
    cases parked : driver.runtime.pendingStarted with
    | none =>
      simp only [parked] at done
      cases pushed : driver.runtime.executionEvents.tryPush item with
      | error rejected =>
        rw [pushed] at done
        cases done
      | ok events =>
        rw [pushed] at done
        cases done
        exact ⟨rfl, rfl, rfl, rfl⟩
    | some start =>
      obtain ⟨attempt, waiting⟩ := start
      simp only [parked] at done
      cases pushed : driver.runtime.executionEvents.tryPush waiting with
      | error rejected =>
        rw [pushed] at done
        cases done
      | ok events =>
        rw [pushed] at done
        cases done
        exact ⟨rfl, rfl, rfl, rfl⟩

theorem durableState_ok {runtime : Runtime σ ν} {state : DurableRunState}
    (loaded : durableState runtime = .ok state) : runtime.Backed state := by
  unfold durableState at loaded
  rw [except_mapError_ok, FaithfulStore.load] at loaded
  unfold InMemoryDurableStore.loadRun at loaded
  unfold Runtime.Backed
  split at loaded
  · cases loaded
  · cases loaded
    assumption

/-- **The parts of a shutdown that is answered.** -/
theorem shutdownNow_ok {status : ShutdownStatus}
    (done : shutdownNow driver = (.ok status, reached)) :
    ∃ retried before after, retryPendingLifecycle driver = (.ok (), retried) ∧
      durableState retried.runtime = .ok before ∧
      recoverAll (before.operationIds.filter before.knowsOutcome) retried = (.ok (), reached) ∧
      durableState reached.runtime = .ok after ∧ status = classifyShutdown after := by
  unfold shutdownNow at done
  obtain ⟨_, retried, first, done⟩ := bind_ok.mp done
  obtain ⟨_, _, got, done⟩ := bind_ok.mp done
  cases got
  obtain ⟨before, _, loaded, done⟩ := bind_ok.mp done
  have loaded := orRuntimeError_ok loaded
  obtain ⟨known, rfl⟩ := Prod.mk.inj loaded
  obtain ⟨_, recovered, settled, done⟩ := bind_ok.mp done
  obtain ⟨_, checked, refused, rest⟩ := bind_ok.mp done
  have same : recovered = checked := by
    unfold refusePending at refused
    cases held : recovered.pendingLifecycle with
    | some item =>
      rw [held] at refused
      cases refused
    | none =>
      rw [held] at refused
      cases refused
      rfl
  rw [same] at settled
  obtain ⟨_, _, got, ends⟩ := bind_ok.mp rest
  cases got
  obtain ⟨after, _, reloaded, answered⟩ := bind_ok.mp ends
  have reloaded := orRuntimeError_ok reloaded
  obtain ⟨last, rfl⟩ := Prod.mk.inj reloaded
  cases answered
  exact ⟨retried, before, after, orRuntimeError_ok first, known, settled, last, rfl⟩

end Run

/-- **A runtime that knows of every durable success**: the task of a success is completed durably, or the
runtime's recovery of a known outcome completes it. -/
def Informed (runtime : Runtime σ ν) (state : DurableRunState) : Prop :=
  ∀ operationId intent, state.intents[operationId]? = some intent →
    state.effectState operationId = .outcomeKnown .succeeded →
    intent.taskId ∈ state.completions ∨
      ∃ other, state.knowsOutcome other = true ∧ runtime.Settles other intent.taskId

/-- **Nobody else writes to the run: the runtime is informed.** -/
theorem informed_of_driven {history : History ν} {runtime : Runtime σ ν}
    (driven : Runtime.Driven history runtime) :
    ∃ state, durableState runtime = .ok state ∧ Informed runtime state := by
  obtain ⟨state, synced, consistent⟩ := driven.consistent
  have coherent := synced.coherent
  refine ⟨state, except_mapError_ok.mpr synced.loaded, fun operationId intent found known => ?_⟩
  by_cases finished : intent.taskId ∈ state.completions
  · exact .inl finished
  · refine .inr ⟨operationId, ?_, intent, ?_, rfl, ?_, ?_, ?_⟩
    · unfold DurableRunState.knowsOutcome
      rw [known]
    · have held : state.journal.intents[operationId]? = some intent := found
      unfold DurableJournal.intent
      rw [coherent.journal, held]
    · rw [coherent.journal, DurableRunState.state_journal coherent.owned.lineage]
      exact known
    · exact ExtTreeMap.mem_iff_isSome_getElem?.mp (consistent.prepared operationId intent found)
    · rw [Bool.eq_false_iff]
      intro done
      exact finished ((coherent.completed _).mp done)

/-- **A clean shutdown means what it says exactly if the runtime was informed**; and whatever status is
returned, it names the least operation of the most severe class that the shutdown left. -/
theorem shutdown_clean_iff (driver reached : RuntimeDriver σ ν) (status : ShutdownStatus)
    (committed : ∀ state, driver.runtime.Backed state → state.Reachable driver.runtime.runId)
    (answered : shutdownNow driver = (.ok status, reached)) :
    ∃ before after, durableState driver.runtime = .ok before ∧
      durableState reached.runtime = .ok after ∧ after.Names status ∧
      (status = .clean →
        ((∀ operationId intent, after.intents[operationId]? = some intent →
            (after.effectState operationId = .outcomeKnown .succeeded ∧
                intent.taskId ∈ after.completions) ∨
              (after.effectState operationId = .prepared ∧
                intent.taskId ∈ after.cancellations)) ↔
          Informed driver.runtime before)) := by
  obtain ⟨retried, before, after, first, loaded, recovered, reloaded, rfl⟩ := shutdownNow_ok answered
  obtain ⟨runId, store, journal, workflow⟩ := retryPendingLifecycle_ok first
  have opened : durableState driver.runtime = .ok before := by
    unfold durableState at loaded ⊢
    rw [← runId, ← store]
    exact loaded
  refine ⟨before, after, opened, reloaded, DurableRunState.names_classifyShutdown after,
    fun isClean => ?_⟩
  have backed := durableState_ok loaded
  have reachable : before.Reachable retried.runtime.runId := by
    rw [runId]
    exact committed before (durableState_ok opened)
  obtain ⟨last, recovering⟩ := recovering_recoverAll (.start backed reachable) recovered
  have same : last = after :=
    Option.some.inj (recovering.backed.symm.trans (durableState_ok reloaded))
  subst same
  rw [List.nil_append] at recovering
  have settles : ∀ operationId taskId, driver.runtime.Settles operationId taskId ↔
      retried.runtime.Settles operationId taskId := by
    intro operationId taskId
    unfold Runtime.Settles
    rw [journal, workflow]
  constructor
  · intro sound operationId intent found known
    rw [← recovering.effects.intents] at found
    rw [← recovering.effects.effectState] at known
    rcases sound operationId intent found with ⟨_, finished⟩ | ⟨prepared, _⟩
    · refine (recovering.settled _ finished).imp id ?_
      rintro ⟨other, listed, settled⟩
      exact ⟨other, (List.mem_filter.mp listed).2, (settles _ _).mpr settled⟩
    · rw [known] at prepared
      cases prepared
  · intro informed operationId intent found
    have names := DurableRunState.names_classifyShutdown last
    rw [isClean] at names
    have open_ : ∀ one, last.shutdownClass operationId ≠ some one := fun one => names one operationId
    unfold DurableRunState.shutdownClass at open_
    rw [found] at open_
    cases known : last.effectState operationId with
    | notPrepared =>
      unfold DurableRunState.effectState at known
      rw [if_neg (not_not.mpr (mem_of_lookup found))] at known
      split at known
      · cases known
      · split at known <;> cases known
    | prepared =>
      rw [known] at open_
      refine .inr ⟨rfl, ?_⟩
      by_contra waits
      exact open_ .undispatched (if_neg waits)
    | outcomeUnknown =>
      rw [known] at open_
      by_cases final : intent.semantics = .nonIdempotent
      · exact absurd (if_pos final) (open_ .nonIdempotentUnknown)
      · exact absurd (if_neg final) (open_ .idempotentUnknown)
    | outcomeKnown outcome =>
      rw [known] at open_
      cases outcome with
      | failed => exact absurd rfl (open_ .knownFailure)
      | succeeded =>
        refine .inl ⟨rfl, ?_⟩
        rw [recovering.effects.intents] at found
        rw [recovering.effects.effectState] at known
        rcases informed operationId intent found known with finished | ⟨other, knows, settled⟩
        · exact recovering.kept _ finished
        · refine recovering.all other (List.mem_filter.mpr ⟨?_, knows⟩) _ ((settles _ _).mp settled)
          refine ExtTreeMap.mem_keys.mpr ?_
          by_contra absent
          unfold DurableRunState.knowsOutcome DurableRunState.effectState at knows
          rw [if_pos absent] at knows
          cases knows

end RuntimeDriver

/-! ### An uninformed runtime -/

/-- An idempotent operation is dispatched. -/
def sampleSent : List (Operation Unit) :=
  [.command (.recordEffectIntent sampleTask sampleOperation .idempotent),
    .command (.dispatchEffect sampleOperation)]

/-- The operation succeeds. -/
def sampleSucceeds : Operation Unit :=
  .command (.recordEffectOutcome sampleOperation (generatedAttemptId sampleRun 1) .succeeded)

/-- The driver of a runtime whose store holds what another runtime of the run recorded. -/
def sampleStale [Postcard] (started other : Runtime InMemoryDurableStore Unit) :
    RuntimeDriver InMemoryDurableStore Unit :=
  .new ((started.performAll sampleSent).onStore (sampleSucceeds.perform other).2.store)

/-- The runtime dispatches the operation, a second one is restored from the run and records its success,
and the first one is shut down. -/
theorem sampleStale_reached :
    let _ := Persisted.postcard
    ∃ started other : Runtime InMemoryDurableStore Unit, sampleStarted = .ok started ∧
      Runtime.restoreRun sampleRun sampleWorkflow Scope.root []
        (started.performAll sampleSent).store = .ok other ∧
      ((started.performAll sampleSent).runId = sampleRun ∧
        (sampleSucceeds.perform other).2.runId = sampleRun ∧
        (RuntimeDriver.shutdownNow (sampleStale started other)).1 = .ok .clean) ∧
      ∃ state : DurableRunState,
        RuntimeDriver.durableState (RuntimeDriver.shutdownNow (sampleStale started other)).2.runtime =
          .ok state ∧
        state.intents[sampleOperation]? = some ⟨sampleTask, sampleOperation, .idempotent⟩ ∧
        state.effectState sampleOperation = .outcomeKnown .succeeded ∧
        state.completions[sampleTask]? = none := by
  intro _
  obtain ⟨started, starts, continued⟩ := exists_ok_of_any
    (show (sampleStarted.toOption.any fun started =>
      (Runtime.restoreRun sampleRun sampleWorkflow Scope.root []
          (started.performAll sampleSent).store).toOption.any fun other =>
        (RuntimeDriver.durableState
            (RuntimeDriver.shutdownNow (sampleStale started other)).2.runtime).toOption.any
          fun state =>
            ((started.performAll sampleSent).runId = sampleRun ∧
              (sampleSucceeds.perform other).2.runId = sampleRun ∧
              (RuntimeDriver.shutdownNow (sampleStale started other)).1 = .ok .clean) ∧
            state.intents[sampleOperation]? = some ⟨sampleTask, sampleOperation, .idempotent⟩ ∧
            state.effectState sampleOperation = .outcomeKnown .succeeded ∧
            state.completions[sampleTask]? = none) = true by decide +kernel)
  obtain ⟨other, restores, ended⟩ := exists_ok_of_any continued
  obtain ⟨state, loaded, holds⟩ := exists_ok_of_any ended
  obtain ⟨answers, facts⟩ := of_decide_eq_true holds
  exact ⟨started, other, starts, restores, answers, state, loaded, facts⟩

/-- **A shutdown can be clean although a task of a known success is not completed.** -/
theorem stale_shutdown_clean :
    let _ := Persisted.postcard
    ∃ started other : Runtime InMemoryDurableStore Unit, sampleStarted = .ok started ∧
      Runtime.restoreRun sampleRun sampleWorkflow Scope.root []
        (started.performAll sampleSent).store = .ok other ∧
      (RuntimeDriver.shutdownNow (sampleStale started other)).1 = .ok .clean ∧
      ∃ state : DurableRunState,
        RuntimeDriver.durableState (RuntimeDriver.shutdownNow (sampleStale started other)).2.runtime =
          .ok state ∧
        ¬ ∀ operationId intent, state.intents[operationId]? = some intent →
          (state.effectState operationId = .outcomeKnown .succeeded ∧
              intent.taskId ∈ state.completions) ∨
            (state.effectState operationId = .prepared ∧ intent.taskId ∈ state.cancellations) := by
  intro _
  obtain ⟨started, other, starts, restores, ⟨_, _, clean⟩, state, loaded, found, known, open_⟩ :=
    sampleStale_reached
  refine ⟨started, other, starts, restores, clean, state, loaded, fun sound => ?_⟩
  rcases sound sampleOperation _ found with ⟨_, finished⟩ | ⟨prepared, _⟩
  · exact not_mem_of_lookup_none open_ finished
  · rw [known] at prepared
    cases prepared

/-- The driver of a runtime that recorded the success itself. -/
def sampleKnowing [Postcard] (started : Runtime InMemoryDurableStore Unit) :
    RuntimeDriver InMemoryDurableStore Unit :=
  .new (started.performAll (sampleSent ++ [sampleSucceeds]))

/-- Its shutdown is clean, and completes the task. -/
theorem sampleKnowing_reached :
    let _ := Persisted.postcard
    ∃ started : Runtime InMemoryDurableStore Unit, sampleStarted = .ok started ∧
      (RuntimeDriver.shutdownNow (sampleKnowing started)).1 = .ok .clean ∧
      ∃ state : DurableRunState,
        RuntimeDriver.durableState (RuntimeDriver.shutdownNow (sampleKnowing started)).2.runtime =
          .ok state ∧
        state.intents[sampleOperation]? = some ⟨sampleTask, sampleOperation, .idempotent⟩ ∧
        state.effectState sampleOperation = .outcomeKnown .succeeded := by
  intro _
  obtain ⟨started, starts, ended⟩ := exists_ok_of_any
    (show (sampleStarted.toOption.any fun started =>
      (RuntimeDriver.durableState
          (RuntimeDriver.shutdownNow (sampleKnowing started)).2.runtime).toOption.any
        fun state => (RuntimeDriver.shutdownNow (sampleKnowing started)).1 = .ok .clean ∧
          state.intents[sampleOperation]? = some ⟨sampleTask, sampleOperation, .idempotent⟩ ∧
          state.effectState sampleOperation = .outcomeKnown .succeeded) = true by decide +kernel)
  obtain ⟨state, loaded, holds⟩ := exists_ok_of_any ended
  obtain ⟨clean, facts⟩ := of_decide_eq_true holds
  exact ⟨started, starts, clean, state, loaded, facts⟩

/-- What a driver among its own operations finds in the store is reachable. -/
theorem Runtime.Driven.committed [Postcard] {history : History Unit}
    {runtime : Runtime InMemoryDurableStore Unit} (driven : Driven history runtime)
    (state : DurableRunState) (backed : runtime.Backed state) : state.Reachable runtime.runId := by
  obtain ⟨held, synced⟩ := driven.synced
  obtain rfl : held = state := Option.some.inj (synced.backed.symm.trans backed)
  exact synced.coherent.runId ▸ synced.coherent.owned.reachable

/-- The runtime that recorded the success is informed, and the task is completed after its shutdown. The
stale one was not informed. -/
theorem shutdown_clean_iff_sample :
    let _ := Persisted.postcard
    ∃ (started other : Runtime InMemoryDurableStore Unit) (before after : DurableRunState),
      sampleStarted = .ok started ∧
      (RuntimeDriver.shutdownNow (sampleKnowing started)).1 = .ok .clean ∧
      RuntimeDriver.durableState (RuntimeDriver.shutdownNow (sampleKnowing started)).2.runtime =
        .ok after ∧ sampleTask ∈ after.completions ∧
      RuntimeDriver.durableState (sampleStale started other).runtime = .ok before ∧
      ¬ RuntimeDriver.Informed (sampleStale started other).runtime before := by
  intro _
  obtain ⟨started, other, starts, restores, ⟨own, same, clean⟩, state, loaded, found, known, open_⟩ :=
    sampleStale_reached
  obtain ⟨knowing, again, ended, after, closed, intent, success⟩ := sampleKnowing_reached
  obtain rfl : started = knowing := Except.ok.inj (starts.symm.trans again)
  have completed : sampleTask ∈ after.completions := by
    have driven := (sampleStarted_driven starts).performAll (sampleSent ++ [sampleSucceeds])
    rcases shut : RuntimeDriver.shutdownNow (sampleKnowing started) with ⟨status, reached⟩
    rw [shut] at ended closed
    subst ended
    obtain ⟨first, last, opened, reloaded, _, sound⟩ :=
      RuntimeDriver.shutdown_clean_iff _ _ _ driven.committed shut
    obtain ⟨held, stored, informed⟩ := RuntimeDriver.informed_of_driven driven
    cases Except.ok.inj (opened.symm.trans stored)
    cases Except.ok.inj (closed.symm.trans reloaded)
    rcases (sound rfl).mpr informed sampleOperation _ intent with ⟨_, finished⟩ | ⟨prepared, _⟩
    · exact finished
    · rw [success] at prepared
      cases prepared
  have driven := (sampleStarted_driven starts).performAll sampleSent
  have built : sampleWorkflow.Built := .batch .empty sampleWorkflow_built
  have restored : Runtime.Restored (started.performAll sampleSent).runId
      (started.performAll sampleSent).store other := by
    rw [own]
    exact .run built restores
  have second := (driven.restored rfl restored).performed sampleSucceeds
  obtain ⟨held, synced⟩ := second.synced
  have committed : ∀ state, (sampleStale started other).runtime.Backed state →
      state.Reachable (sampleStale started other).runtime.runId := by
    intro state backed
    change (sampleSucceeds.perform other).2.store.runs[(started.performAll sampleSent).runId]? =
      some state at backed
    have stored : (sampleSucceeds.perform other).2.store.runs[
        (sampleSucceeds.perform other).2.runId]? = some held := synced.backed
    rw [own, ← same, stored] at backed
    cases backed
    change held.Reachable (started.performAll sampleSent).runId
    rw [own, ← same, ← synced.coherent.runId]
    exact synced.coherent.owned.reachable
  rcases shut : RuntimeDriver.shutdownNow (sampleStale started other) with ⟨status, reached⟩
  rw [shut] at clean loaded
  subst clean
  obtain ⟨before, last, opened, reloaded, _, sound⟩ :=
    RuntimeDriver.shutdown_clean_iff _ _ _ committed shut
  refine ⟨started, other, before, after, starts, ended, closed, completed, opened, fun informed => ?_⟩
  cases Except.ok.inj (loaded.symm.trans reloaded)
  rcases (sound rfl).mpr informed sampleOperation _ found with ⟨_, finished⟩ | ⟨prepared, _⟩
  · exact not_mem_of_lookup_none open_ finished
  · rw [known] at prepared
    cases prepared

end Kernis
