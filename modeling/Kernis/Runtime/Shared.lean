/-
**Several runtimes over one run.**

Nothing leases a run: any number of runtimes may be restored from it and drive it at the same time,
over handles of the same durable data. They derive the same attempts and the same idempotency keys, so
a second dispatch of the same attempt is a replay that the store answers like the first.

* `Member runtime state` — a runtime whose handle holds the run, and whose views are of it.
* `perform_member` — what an operation of a member keeps, while it moves the durable state onward.
* `Fleet` — the runs of several runtimes, in any interleaving, with crashes and restores.
* `dispatches_agree` — all successful dispatches of a non-idempotent operation name one attempt, of
  which there is one dispatch record, and every runtime has at most one of them.
* `two_runtimes_dispatch` — two runtimes can have one each.
-/

import Kernis.Runtime.Follows
import Kernis.Runtime.Submitted

namespace Kernis

open Std Fallible

/-! ### Dispatched operations -/

namespace DurableJournal

variable {journal next : DurableJournal} {operationId : OperationId}

/-- The journal knows a dispatch of an operation. -/
def Sent (journal : DurableJournal) (operationId : OperationId) : Prop :=
  (journal.latestDispatch operationId).isSome

theorem not_sent_of_prepared (prepared : journal.state operationId = .prepared) :
    ¬ journal.Sent operationId := by
  unfold state at prepared
  split at prepared
  · cases prepared
  · split at prepared
    · cases prepared
    · split at prepared
      · cases prepared
      · assumption

theorem sent_of_persistDispatch {dispatch : DispatchRecord}
    (persisted : journal.persistDispatch dispatch = .ok next) : next.Sent dispatch.operationId := by
  obtain ⟨_, _, rfl⟩ := persistDispatch_ok persisted
  simp [Sent, latestDispatch, latestAttempt, pushAttempt]

/-- A dispatch that is known stays known. -/
theorem Sent.dispatch {dispatch : DispatchRecord} (sent : journal.Sent operationId)
    (persisted : journal.persistDispatch dispatch = .ok next) : next.Sent operationId := by
  by_cases same : dispatch.operationId = operationId
  · rw [← same]
    exact sent_of_persistDispatch persisted
  · obtain ⟨_, fresh, rfl⟩ := persistDispatch_ok persisted
    unfold Sent latestDispatch latestAttempt at sent ⊢
    simp only [pushAttempt]
    rw [lookup_insert_ne _ _ same]
    obtain ⟨record, found⟩ := Option.isSome_iff_exists.mp sent
    obtain ⟨attemptId, latest, held⟩ := Option.bind_eq_some_iff.mp found
    rw [latest]
    exact Option.isSome_iff_exists.mpr ⟨record, Grows.insert fresh _ held⟩

end DurableJournal

/-- The journal of a durable state knows its dispatches. -/
theorem DurableRunState.Lineage.sent {state : DurableRunState} (lineage : state.Lineage)
    {operationId : OperationId} {attemptId : AttemptId}
    (found : state.dispatches[attemptId]? = some ⟨operationId, attemptId⟩) :
    state.journal.Sent operationId := by
  have listed : ⟨operationId, attemptId⟩ ∈ state.dispatchesOf operationId :=
    List.mem_filter.mpr ⟨lineage.dispatches.mem_of_lookup found, decide_eq_true rfl⟩
  unfold DurableJournal.Sent
  rw [latestDispatch_journal lineage, latestDispatch]
  exact List.getLast?_isSome.mpr (List.ne_nil_of_mem listed)

namespace Runtime

variable {σ ν : Type}

/-- An allowed action forgets no dispatch. -/
theorem sent_of_act [DurableStore σ] {runtime : Runtime σ ν} {action : Action}
    {operationId : OperationId} (allowed : runtime.Allowed action)
    (sent : runtime.journal.Sent operationId) :
    (act action runtime).2.journal.Sent operationId := by
  rw [act_eq]
  split
  · exact sent
  · cases action with
    | admission attempt =>
      rw [settle_admission]
      repeat' split
      all_goals exact sent
    | complete fact workflow =>
      rw [settle_complete]
      repeat' split
      all_goals exact sent
    | intent fact journal =>
      obtain ⟨_, _, rfl⟩ := DurableJournal.persistIntent_ok allowed.2.2
      exact sent
    | dispatch fact journal =>
      obtain ⟨_, _, _, _, _, persisted⟩ := allowed
      exact sent.dispatch persisted
    | outcome fact journal =>
      obtain ⟨_, _, _, ⟨_, _, _, rfl⟩ | ⟨_, rfl⟩⟩ := DurableJournal.persistOutcome_ok allowed
      · exact sent
      · exact sent
    | _ => exact sent

/-- No operation forgets a dispatch. -/
theorem sent_of_perform [DurableStore σ] (operation : Operation ν) {runtime : Runtime σ ν}
    {operationId : OperationId} (sent : runtime.journal.Sent operationId) :
    (operation.perform runtime).2.journal.Sent operationId := by
  have commands (command : Command) {runtime : Runtime σ ν}
      (sent : runtime.journal.Sent operationId) :
      (command.perform runtime).2.journal.Sent operationId :=
    perform_preserves (fun runtime => runtime.journal.Sent operationId)
      (fun allowed before => sent_of_act allowed before) command sent
  cases committing : operation.commits with
  | false =>
    rw [(quiet_of_not_commits committing runtime).journal]
    exact sent
  | true =>
    cases operation with
    | command command => exact commands command sent
    | runUntilBlocked =>
      exact runUntilBlocked_keeps (fun runtime : Runtime σ ν => runtime.journal.Sent operationId)
        (fun before => commands .step before) sent
    | _ => cases committing

variable [Postcard] [FaithfulStore σ]

/-! ### Members -/

/-- **A member of a shared run**: its handle holds the run, its views are of the durable facts. -/
structure Member (runtime : Runtime σ ν) (state : DurableRunState) : Prop where
  backed : runtime.Backed state
  views : Views runtime state
  joint : state.Joint

section Member

variable {runtime reached : Runtime σ ν} {state next : DurableRunState}

theorem Member.reachable (member : Member runtime state) : state.Reachable runtime.runId := by
  rw [← member.views.runId]
  exact member.joint.owned.reachable

theorem Quiet.member (quiet : Quiet runtime reached) (member : Member runtime state) :
    Member reached state := by
  refine ⟨?_, quiet.views member.views, member.joint⟩
  rw [Backed, quiet.store, quiet.runId]
  exact member.backed

/-- What a chosen action of a member keeps. -/
theorem Member.act (member : Member runtime state) {command : Command} {action : Action}
    {after : After} {result : Except RuntimeError Unit}
    (chosen : Chooses runtime command action after) (room : ¬ Crowds runtime (.command command))
    (acted : act action runtime = (result, reached)) :
    ∃ next, Submitted runtime state action result reached next ∧ Member reached next := by
  obtain ⟨next, submitted⟩ := act_submitted action member.backed member.reachable
  rw [acted] at submitted
  have kept := submitted.keeps (allowed_of_chooses chosen) (fun attempt same => by
    subst same
    exact ⟨spacious_of_chooses chosen room, command, after, chosen⟩) member.views member.joint
  exact ⟨next, submitted, submitted.backed member.backed, kept.1, kept.2⟩

/-- What the dispatch after a member's retry keeps. -/
theorem Member.dispatch (member : Member runtime state) {fact : DispatchRecord}
    {journal : DurableJournal} {result : Except RuntimeError Unit}
    (allowed : runtime.Allowed (.dispatch fact journal))
    (acted : Runtime.act (.dispatch fact journal) runtime = (result, reached)) :
    ∃ next, Submitted runtime state (.dispatch fact journal) result reached next ∧
      Member reached next := by
  obtain ⟨next, submitted⟩ := act_submitted (.dispatch fact journal) member.backed member.reachable
  rw [acted] at submitted
  have kept := submitted.keeps allowed (fun _ same => by cases same) member.views member.joint
  exact ⟨next, submitted, submitted.backed member.backed, kept.1, kept.2⟩

/-- **What a command of a member keeps.** -/
theorem Member.command (member : Member runtime state) (command : Command)
    (room : ¬ Crowds runtime (.command command)) :
    ∃ next, Member (command.perform runtime).2 next ∧ state.Onward next := by
  have derivation := perform_performs command runtime
  generalize (command.perform runtime).1 = result at derivation
  generalize (command.perform runtime).2 = reached at derivation ⊢
  induction derivation generalizing state with
  | halt => exact ⟨state, member, .refl state⟩
  | failed chosen acted =>
    obtain ⟨next, submitted, after⟩ := member.act chosen room acted
    exact ⟨next, after, submitted.onward⟩
  | replied chosen acted =>
    obtain ⟨next, submitted, after⟩ := member.act chosen room acted
    exact ⟨next, after, submitted.onward⟩
  | again chosen acted _ ih =>
    obtain ⟨middle, submitted, between⟩ := member.act chosen room acted
    obtain ⟨next, after, onward⟩ := ih between (not_crowds_again chosen acted)
    exact ⟨next, after, submitted.onward.trans onward⟩
  | undispatched chosen acted =>
    obtain ⟨next, submitted, after⟩ := member.act chosen room acted
    exact ⟨next, after, submitted.onward⟩
  | misdispatched chosen acted persisted failed =>
    obtain ⟨middle, submitted, between⟩ := member.act chosen room acted
    obtain ⟨next, further, after⟩ := between.dispatch
      (allowed_dispatch_of_chooses chosen acted persisted) failed
    exact ⟨next, after, submitted.onward.trans further.onward⟩
  | dispatched chosen acted persisted recorded =>
    obtain ⟨middle, submitted, between⟩ := member.act chosen room acted
    obtain ⟨next, further, after⟩ := between.dispatch
      (allowed_dispatch_of_chooses chosen acted persisted) recorded
    exact ⟨next, after, submitted.onward.trans further.onward⟩

/-- **What an operation of a member keeps.** -/
theorem Member.perform (member : Member runtime state) (operation : Operation ν)
    (room : ¬ Crowds runtime operation) :
    ∃ next, Member (operation.perform runtime).2 next ∧ state.Onward next := by
  cases committing : operation.commits with
  | false => exact ⟨state, (quiet_of_not_commits committing runtime).member member, .refl state⟩
  | true =>
    cases operation with
    | command command => exact member.command command room
    | runUntilBlocked =>
      refine runUntilBlocked_keeps
        (fun runtime : Runtime σ ν => ∃ next, Member runtime next ∧ state.Onward next) ?_
        ⟨state, member, .refl state⟩
      rintro runtime ⟨middle, between, onward⟩
      obtain ⟨next, after, further⟩ := between.command .step runtime.not_crowds_step
      exact ⟨next, after, onward.trans further⟩
    | _ => cases committing

theorem Member.unique {other : DurableRunState} (member : Member runtime state)
    (second : Member runtime other) : state = other :=
  Option.some.inj (member.backed.symm.trans second.backed)

/-- A dispatch that went through is durable and known. -/
theorem Submitted.dispatched {fact : DispatchRecord} {journal : DurableJournal}
    (submitted : Submitted runtime state (.dispatch fact journal) (.ok ()) reached next) :
    next.dispatches[fact.attemptId]? = some fact ∧ reached.journal = journal := by
  generalize answered : (Except.ok () : Except RuntimeError Unit) = result at submitted
  cases submitted with
  | refused => cases answered
  | taken reflected => exact ⟨reflected, rfl⟩

/-- **What a successful dispatch of a member leaves**: a durable record of the attempt it names. The
member did not know of a dispatch, or the operation may be repeated. -/
theorem Member.dispatched (member : Member runtime state) {operationId : OperationId} {reply : Reply}
    (room : ¬ Crowds runtime (.command (.dispatchEffect operationId)))
    (answered : ((Command.dispatchEffect operationId).perform runtime).1 = .ok reply) :
    ∃ next attemptId intent, Member ((Command.dispatchEffect operationId).perform runtime).2 next ∧
      reply = .dispatched attemptId ∧ next.dispatches[attemptId]? = some ⟨operationId, attemptId⟩ ∧
      ((Command.dispatchEffect operationId).perform runtime).2.journal.Sent operationId ∧
      state.intents[operationId]? = some intent ∧
      (¬ runtime.journal.Sent operationId ∨ intent.semantics ≠ .nonIdempotent) := by
  have derivation := perform_performs (.dispatchEffect operationId) runtime
  rw [answered] at derivation
  generalize ((Command.dispatchEffect operationId).perform runtime).2 = reached at derivation ⊢
  clear answered
  generalize command_eq : Command.dispatchEffect operationId = command at derivation
  generalize result_eq : (Except.ok reply : Except RuntimeError Reply) = result at derivation
  induction derivation generalizing state with
  | halt decided =>
    subst command_eq
    obtain ⟨error, failed⟩ := dispatch_halts decided
    rw [failed] at result_eq
    cases result_eq
  | failed => cases result_eq
  | replied chosen acted =>
    subst command_eq
    obtain ⟨next, submitted, after⟩ := member.act chosen room acted
    cases chosen with
    | dispatch found live prepared waiting persisted =>
      obtain ⟨recorded, journal⟩ := submitted.dispatched
      cases result_eq
      refine ⟨next, _, _, after, rfl, recorded, ?_, member.views.intent found,
        .inl (DurableJournal.not_sent_of_prepared prepared)⟩
      rw [journal]
      exact DurableJournal.sent_of_persistDispatch persisted
  | again chosen acted _ ih =>
    subst command_eq
    obtain ⟨middle, submitted, between⟩ := member.act chosen room acted
    obtain ⟨next, attemptId, _, after, named, recorded, sent, _, _⟩ :=
      ih between (not_crowds_again chosen acted) result_eq
    cases chosen with
    | begin found live prepared =>
      exact ⟨next, attemptId, _, after, named, recorded, sent, member.views.intent found,
        .inl (DurableJournal.not_sent_of_prepared prepared)⟩
  | undispatched => cases result_eq
  | misdispatched => cases result_eq
  | dispatched chosen acted persisted sending =>
    subst command_eq
    obtain ⟨middle, submitted, between⟩ := member.act chosen room acted
    obtain ⟨next, further, after⟩ := between.dispatch
      (allowed_dispatch_of_chooses chosen acted persisted) sending
    obtain ⟨recorded, journal⟩ := further.dispatched
    cases chosen with
    | retry found live unknown idempotent =>
      cases result_eq
      refine ⟨next, _, _, after, rfl, recorded, ?_, member.views.intent found, .inr idempotent⟩
      rw [journal]
      exact DurableJournal.sent_of_persistDispatch persisted

/-- A runtime in step with its store that has announced nothing yet is a member. -/
theorem Synced.member (synced : Synced runtime state) (joint : state.Joint)
    (accounted : Accounted runtime state) (follows : Follows runtime state)
    (silent : runtime.executionSequencer.nextSequence = 1) : Member runtime state := by
  have coherent := synced.coherent
  have lineage := joint.owned.lineage
  refine ⟨synced.backed, ⟨coherent.runId, ?_, ?_, ?_, ?_, ?_, follows.built, ?_, coherent.live, ?_⟩,
    joint⟩
  · rw [coherent.journal]
    exact .refl _
  · intro taskId operationId owned
    rw [coherent.journal] at owned
    exact (lineage.inverse taskId operationId).mp owned
  · rw [coherent.number]
    exact Nat.le_add_left 1 _
  · exact Nat.le_of_eq coherent.number
  · rw [coherent.number, Nat.add_sub_cancel, List.take_length]
    exact accounted
  · intro taskId member
    rw [← coherent.completed]
    exact ((WorkflowGraph.invariant_of_built follows.built).listed taskId).mp member
  · rw [silent, coherent.number]
    omega

theorem joint_started (runId : RunId) (identity : WorkflowReplayIdentity) :
    (DurableRunState.started runId identity).Joint where
  owned := DurableRunState.owned_started runId identity
  bounded := by show 1 ≤ u64Max; decide
  counted := Nat.zero_lt_one
  owner admission member := by cases member
  single operationId intent prepared := by
    simp [DurableRunState.started, DurableRunState.recordCommit, DurableRunState.new] at prepared

/-- A started runtime is a member. -/
theorem Started.member {store : σ} (clean : (FaithfulStore.content store).AllReachable)
    (started : Started store runtime) : ∃ state, Member runtime state := by
  obtain ⟨runId, workflow, _, _, identity, _, _, built, inner⟩ := started.inner
  obtain ⟨synced, _, rfl⟩ := startWithIdentity_synced clean built inner
  exact ⟨_, synced.member (joint_started runId identity) .nil (started.follows clean synced) rfl⟩

/-- **A runtime restored from the durable data of members is a member.** -/
theorem Restored.member {store : σ} {runId : RunId} (joint : state.Joint)
    (own : state.runId = runId) (held : (FaithfulStore.content store).runs[runId]? = some state)
    (restored : Restored runId store runtime) :
    Member runtime state ∧ runtime.journal = state.journal := by
  have loaded : DurableStore.loadRun runId store = .ok state := by
    rw [FaithfulStore.load, InMemoryDurableStore.loadRun, held]
  have follows := restored.follows loaded
  obtain ⟨_, _, _, _, found, _, load, inner⟩ := restored.inner
  cases Except.ok.inj (load.symm.trans loaded)
  have synced := restoreLoaded_synced joint.owned held own inner
  obtain ⟨_, _, attempts, _, _, repinned, rfl⟩ := restoreLoaded_ok.mp inner
  refine ⟨synced.member joint ?_ follows rfl, synced.coherent.journal⟩
  simp only [Accounted, known, build, Option.map_none, Option.toList_none, List.append_nil]
  rw [lineage_of_restores (restoreAttempts_ok repinned)]

end Member

/-! ### Fleets -/

section Fleet

variable {ι : Type} [DecidableEq ι]

/-- **Several runtimes that drive one run.** A member may join by a restore at any time, also in the
place of one that crashed. Every operation of a member works on the durable data as it is now,
through a handle of its own. No dispatch crowds out a parked start. -/
inductive Fleet (runId : RunId) : List (ι × Operation ν × Except RuntimeError Reply) →
    InMemoryDurableStore → (ι → Option (Runtime σ ν)) → Prop
  | started {store : σ} {runtime : Runtime σ ν} (name : ι)
      (clean : (FaithfulStore.content store).AllReachable) (started : Started store runtime)
      (own : runtime.runId = runId) :
      Fleet runId [] (FaithfulStore.content runtime.store)
        (Function.update (fun _ => none) name (some runtime))
  | restored {events : List (ι × Operation ν × Except RuntimeError Reply)}
      {shared : InMemoryDurableStore} {members : ι → Option (Runtime σ ν)} {store : σ}
      {next : Runtime σ ν} (name : ι) (fleet : Fleet runId events shared members)
      (same : FaithfulStore.content store = shared) (restored : Restored runId store next) :
      Fleet runId events shared (Function.update members name (some next))
  | performed {events : List (ι × Operation ν × Except RuntimeError Reply)}
      {shared : InMemoryDurableStore} {members : ι → Option (Runtime σ ν)} {store : σ}
      {runtime : Runtime σ ν} (name : ι) (fleet : Fleet runId events shared members)
      (member : members name = some runtime) (same : FaithfulStore.content store = shared)
      (operation : Operation ν) (room : ¬ Crowds (runtime.onStore store) operation) :
      Fleet runId
        (events ++ [(name, operation, (operation.perform (runtime.onStore store)).1)])
        (FaithfulStore.content (operation.perform (runtime.onStore store)).2.store)
        (Function.update members name (some (operation.perform (runtime.onStore store)).2))

omit [Postcard] [FaithfulStore σ] in
/-- The successful dispatches of an operation by a member. -/
def dispatchesBy (events : List (ι × Operation ν × Except RuntimeError Reply)) (name : ι)
    (operationId : OperationId) : Nat :=
  events.countP fun event => event.1 = name ∧ dispatchAnswered operationId event.2

/-- **What holds in a fleet.** Every member views the durable facts; every successful dispatch is
recorded and known to its member, which had no other of a non-idempotent operation. -/
structure Shares (runId : RunId) (events : List (ι × Operation ν × Except RuntimeError Reply))
    (shared : InMemoryDurableStore) (members : ι → Option (Runtime σ ν))
    (state : DurableRunState) : Prop where
  held : shared.runs[runId]? = some state
  own : state.runId = runId
  joint : state.Joint
  views : ∀ name runtime, members name = some runtime → Views runtime state
  recorded : ∀ name operationId reply,
    (name, .command (.dispatchEffect operationId), .ok reply) ∈ events →
    ∃ attemptId, reply = .dispatched attemptId ∧
      state.dispatches[attemptId]? = some ⟨operationId, attemptId⟩
  known : ∀ name runtime operationId, members name = some runtime →
    dispatchesBy events name operationId = 0 ∨ runtime.journal.Sent operationId
  once : ∀ name operationId, dispatchesBy events name operationId ≤ 1 ∨
    ∃ intent : EffectIntent, state.intents[operationId]? = some intent ∧
      intent.semantics ≠ .nonIdempotent

variable {runId : RunId} {events : List (ι × Operation ν × Except RuntimeError Reply)}
  {shared : InMemoryDurableStore} {members : ι → Option (Runtime σ ν)} {state : DurableRunState}

omit [Postcard] [FaithfulStore σ] in
/-- A dispatch that was counted is in the history. -/
theorem exists_of_dispatchesBy {name : ι} {operationId : OperationId}
    (some_ : dispatchesBy events name operationId ≠ 0) :
    ∃ reply, (name, .command (.dispatchEffect operationId), .ok reply) ∈ events := by
  obtain ⟨event, member, counted⟩ := List.countP_pos_iff.mp (Nat.pos_of_ne_zero some_)
  obtain ⟨same, answered⟩ := of_decide_eq_true counted
  obtain ⟨other, operation, result⟩ := event
  cases same
  unfold dispatchAnswered at answered
  split at answered
  · rename_i named reply equal
    obtain ⟨rfl, rfl⟩ := Prod.mk.inj equal
    cases of_decide_eq_true answered
    exact ⟨reply, member⟩
  · cases answered

omit [Postcard] [FaithfulStore σ] in
/-- One more event: it is not counted, or it is a successful dispatch of that member. -/
theorem dispatchesBy_append (event : ι × Operation ν × Except RuntimeError Reply) (name : ι)
    (operationId : OperationId) :
    dispatchesBy (events ++ [event]) name operationId = dispatchesBy events name operationId ∨
      (dispatchesBy (events ++ [event]) name operationId =
          dispatchesBy events name operationId + 1 ∧
        ∃ reply, event = (name, .command (.dispatchEffect operationId), .ok reply)) := by
  have added : dispatchesBy (events ++ [event]) name operationId =
      dispatchesBy events name operationId + dispatchesBy [event] name operationId :=
    List.countP_append
  by_cases none : dispatchesBy [event] name operationId = 0
  · exact .inl (by rw [added, none, Nat.add_zero])
  · obtain ⟨reply, member⟩ := exists_of_dispatchesBy none
    have single : dispatchesBy [event] name operationId ≤ 1 := List.countP_le_length
    exact .inr ⟨by omega, reply, (List.mem_singleton.mp member).symm⟩

/-- A member joins. -/
theorem Shares.restored (shares : Shares runId events shared members state) {store : σ}
    {next : Runtime σ ν} (name : ι) (same : FaithfulStore.content store = shared)
    (restored : Restored runId store next) :
    Shares runId events shared (Function.update members name (some next)) state := by
  have held : (FaithfulStore.content store).runs[runId]? = some state := by
    rw [same]
    exact shares.held
  obtain ⟨joined, journal⟩ := restored.member shares.joint shares.own held
  refine { shares with views := ?_, known := ?_ }
  · intro other runtime found
    rw [Function.update_apply] at found
    split at found
    · cases found
      exact joined.views
    · exact shares.views other runtime found
  · intro other runtime operationId found
    rw [Function.update_apply] at found
    split at found
    · cases found
      by_cases none : dispatchesBy events other operationId = 0
      · exact .inl none
      · obtain ⟨reply, member⟩ := exists_of_dispatchesBy none
        obtain ⟨attemptId, _, recorded⟩ := shares.recorded other operationId reply member
        rw [journal]
        exact .inr (shares.joint.owned.lineage.sent recorded)
    · exact shares.known other runtime operationId found

/-- **A member performs an operation.** -/
theorem Shares.performed (shares : Shares runId events shared members state) {store : σ}
    {runtime : Runtime σ ν} (name : ι) (found : members name = some runtime)
    (same : FaithfulStore.content store = shared) (operation : Operation ν)
    (room : ¬ Crowds (runtime.onStore store) operation) :
    ∃ next, Shares runId
      (events ++ [(name, operation, (operation.perform (runtime.onStore store)).1)])
      (FaithfulStore.content (operation.perform (runtime.onStore store)).2.store)
      (Function.update members name (some (operation.perform (runtime.onStore store)).2)) next := by
  have views := shares.views name runtime found
  have member : Member (runtime.onStore store) state := by
    refine ⟨?_, { views with }, shares.joint⟩
    show (FaithfulStore.content store).runs[runtime.runId]? = some state
    rw [same, ← views.runId, shares.own]
    exact shares.held
  obtain ⟨next, after, onward⟩ := member.perform operation room
  -- What a successful dispatch by this event leaves.
  have dispatched : ∀ operationId reply, operation = .command (.dispatchEffect operationId) →
      (operation.perform (runtime.onStore store)).1 = .ok reply →
      ∃ attemptId intent, reply = .dispatched attemptId ∧
        next.dispatches[attemptId]? = some ⟨operationId, attemptId⟩ ∧
        (operation.perform (runtime.onStore store)).2.journal.Sent operationId ∧
        state.intents[operationId]? = some intent ∧
        (¬ runtime.journal.Sent operationId ∨ intent.semantics ≠ .nonIdempotent) := by
    rintro operationId reply rfl answered
    obtain ⟨other, attemptId, intent, again, named, recorded, sent, prepared, first⟩ :=
      member.dispatched room answered
    cases after.unique again
    exact ⟨attemptId, intent, named, recorded, sent, prepared, first⟩
  have own : next.runId = runId := onward.more.runId.trans shares.own
  refine ⟨next, ?_, own, after.joint, ?_, ?_, ?_, ?_⟩
  · rw [← own, after.views.runId]
    exact after.backed
  · intro other held present
    rw [Function.update_apply] at present
    split at present
    · cases present
      exact after.views
    · exact (shares.views other held present).mono onward
  · intro other operationId reply inside
    rcases List.mem_append.mp inside with before | last
    · obtain ⟨attemptId, named, recorded⟩ := shares.recorded other operationId reply before
      exact ⟨attemptId, named, onward.more.dispatches recorded⟩
    · obtain ⟨_, isDispatch, answered⟩ : other = name ∧
          .command (.dispatchEffect operationId) = operation ∧
          .ok reply = (operation.perform (runtime.onStore store)).1 := by
        simpa using last
      obtain ⟨attemptId, _, named, recorded, _⟩ :=
        dispatched operationId reply isDispatch.symm answered.symm
      exact ⟨attemptId, named, recorded⟩
  · intro other held operationId present
    rcases dispatchesBy_append
      (name, operation, (operation.perform (runtime.onStore store)).1) other operationId with
      kept | ⟨_, reply, event⟩
    · rw [kept]
      rw [Function.update_apply] at present
      split at present
      · rename_i mine
        cases present
        subst mine
        refine (shares.known other runtime operationId found).imp_right fun sent => ?_
        exact sent_of_perform operation sent
      · exact shares.known other held operationId present
    · simp only [Prod.mk.injEq] at event
      obtain ⟨rfl, isDispatch, answered⟩ := event
      rw [Function.update_self] at present
      cases present
      obtain ⟨_, _, _, _, sent, _⟩ := dispatched operationId reply isDispatch answered
      exact .inr sent
  · intro other operationId
    rcases dispatchesBy_append
      (name, operation, (operation.perform (runtime.onStore store)).1) other operationId with
      kept | ⟨one, reply, event⟩
    · rw [kept]
      refine (shares.once other operationId).imp_right ?_
      rintro ⟨intent, prepared, idempotent⟩
      exact ⟨intent, onward.more.intents prepared, idempotent⟩
    · simp only [Prod.mk.injEq] at event
      obtain ⟨rfl, isDispatch, answered⟩ := event
      obtain ⟨_, intent, _, _, _, prepared, first⟩ := dispatched operationId reply isDispatch answered
      rcases first with unsent | idempotent
      · rcases shares.known name runtime operationId found with none | sent
        · exact .inl (by omega)
        · exact absurd sent unsent
      · exact .inr ⟨intent, onward.more.intents prepared, idempotent⟩

/-- **What holds in every fleet.** -/
theorem Fleet.shares (fleet : Fleet runId events shared members) :
    ∃ state, Shares runId events shared members state := by
  induction fleet with
  | started name clean started own =>
    obtain ⟨state, member⟩ := started.member clean
    subst own
    refine ⟨state, member.backed, member.views.runId, member.joint, ?_, ?_, ?_, ?_⟩
    · intro other runtime found
      rw [Function.update_apply] at found
      split at found <;> cases found
      exact member.views
    · intro other operationId reply inside
      cases inside
    · exact fun _ _ _ _ => .inl rfl
    · exact fun _ _ => .inl (Nat.zero_le 1)
  | restored name _ same restored ih =>
    obtain ⟨state, shares⟩ := ih
    exact ⟨state, shares.restored name same restored⟩
  | performed name _ found same operation room ih =>
    obtain ⟨state, shares⟩ := ih
    exact shares.performed name found same operation room

omit [DecidableEq ι] in
/-- **The dispatches of an operation that is not idempotent are of one attempt.** -/
theorem dispatchesOf_single (joint : state.Joint) {operationId : OperationId} {intent : EffectIntent}
    (prepared : state.intents[operationId]? = some intent)
    (exclusive : intent.semantics = .nonIdempotent) :
    (state.dispatchesOf operationId).length ≤ 1 := by
  have lineage := joint.owned.lineage
  have admitted : ∀ dispatch ∈ state.dispatchesOf operationId, ∃ admission,
      state.admissions[dispatch.attemptId]? = some admission ∧
        admission.operationId = some operationId := by
    intro dispatch member
    obtain ⟨inside, same⟩ := List.mem_filter.mp member
    obtain ⟨admission, _, found, carried, _⟩ := lineage.dispatched dispatch inside
    rw [of_decide_eq_true same] at carried
    exact ⟨admission, found, carried⟩
  have distinct : ((state.dispatchesOf operationId).map DispatchRecord.attemptId).Nodup :=
    lineage.dispatches.unique.sublist (List.filter_sublist.map _)
  match listed : state.dispatchesOf operationId with
  | [] => exact Nat.zero_le 1
  | [_] => exact Nat.le_refl 1
  | first :: second :: rest =>
    rw [listed] at admitted distinct
    obtain ⟨one, foundOne, ofOne⟩ := admitted first List.mem_cons_self
    obtain ⟨two, foundTwo, ofTwo⟩ := admitted second (List.mem_cons_of_mem _ List.mem_cons_self)
    have equal := joint.single operationId intent prepared exclusive one
      (lineage.admissions.mem_of_lookup foundOne) two (lineage.admissions.mem_of_lookup foundTwo)
      ofOne ofTwo
    have same : first.attemptId = second.attemptId := by
      rw [← lineage.admissions.key_of_lookup foundOne, ← lineage.admissions.key_of_lookup foundTwo,
        equal]
    simp [same] at distinct

/-- **Runtimes that share a run agree on its dispatches.** Any number of runtimes drive a run over
handles of the same durable data, in any interleaving, with failures, crashes and restores, and no
dispatch crowds out a parked start. A non-idempotent operation has at most one dispatch record; every
successful dispatch of it, by any runtime, names the attempt of that record; and every runtime has at
most one of them. -/
theorem dispatches_agree (runId : RunId)
    (events : List (ι × Operation ν × Except RuntimeError Reply)) (shared : InMemoryDurableStore)
    (members : ι → Option (Runtime σ ν)) (fleet : Fleet runId events shared members) :
    ∃ state, shared.loadRun runId = .ok state ∧
      ∀ (operationId : OperationId) (intent : EffectIntent),
        state.intents[operationId]? = some intent → intent.semantics = .nonIdempotent →
        (state.dispatchHistory.filter fun dispatch => dispatch.operationId = operationId).length ≤ 1 ∧
        (∀ name reply, (name, .command (.dispatchEffect operationId), .ok reply) ∈ events →
          ∃ attemptId, reply = .dispatched attemptId ∧
            state.dispatchHistory.filter (fun dispatch => dispatch.operationId = operationId) =
              [⟨operationId, attemptId⟩]) ∧
        ∀ name, dispatchesBy events name operationId ≤ 1 := by
  obtain ⟨state, shares⟩ := fleet.shares
  refine ⟨state, by rw [InMemoryDurableStore.loadRun, shares.held], ?_⟩
  intro operationId intent prepared exclusive
  have single := dispatchesOf_single shares.joint prepared exclusive
  refine ⟨single, fun name reply inside => ?_, fun name => ?_⟩
  · obtain ⟨attemptId, named, recorded⟩ := shares.recorded name operationId reply inside
    refine ⟨attemptId, named, ?_⟩
    have listed : ⟨operationId, attemptId⟩ ∈ state.dispatchesOf operationId :=
      List.mem_filter.mpr ⟨shares.joint.owned.lineage.dispatches.mem_of_lookup recorded,
        decide_eq_true rfl⟩
    obtain ⟨only, same⟩ := List.length_eq_one_iff.mp
      (Nat.le_antisymm single (List.length_pos_of_mem listed))
    rw [same, List.mem_singleton] at listed
    rw [listed]
    exact same
  · rcases shares.once name operationId with few | ⟨other, found, idempotent⟩
    · exact few
    · rw [prepared] at found
      cases found
      exact absurd exclusive idempotent

end Fleet

end Runtime

/-! ### Two runtimes -/

/-- The intent of an operation that is not idempotent. -/
def samplePrepare : Operation Unit :=
  .command (.recordEffectIntent sampleTask sampleOperation .nonIdempotent)

/-- Its dispatch. -/
def sampleDispatch : Operation Unit := .command (.dispatchEffect sampleOperation)

/-- Two runtimes dispatch the sample operation, one after the other. -/
def sampleRivals : List (Bool × Operation Unit × Except RuntimeError Reply) :=
  [(false, samplePrepare, .ok .done),
    (false, sampleDispatch, .ok (.dispatched (generatedAttemptId sampleRun 1))),
    (true, sampleDispatch, .ok (.dispatched (generatedAttemptId sampleRun 1)))]

/-- The intent is recorded and the process stops; two runtimes are restored, and both dispatch. -/
theorem sampleRivals_fleet [Postcard] {started restored : Runtime InMemoryDurableStore Unit}
    (starts : sampleStarted = .ok started)
    (restores : Runtime.restoreRun sampleRun sampleWorkflow Scope.root []
      (samplePrepare.perform started).2.store = .ok restored)
    (idle : restored.pendingStarted.isNone = true)
    (answers : started.runId = sampleRun ∧ (samplePrepare.perform started).1 = .ok .done ∧
      (sampleDispatch.perform (restored.onStore (samplePrepare.perform started).2.store)).1 =
        .ok (.dispatched (generatedAttemptId sampleRun 1)) ∧
      (sampleDispatch.perform (restored.onStore (sampleDispatch.perform
        (restored.onStore (samplePrepare.perform started).2.store)).2.store)).1 =
        .ok (.dispatched (generatedAttemptId sampleRun 1))) :
    ∃ members : Bool → Option (Runtime InMemoryDurableStore Unit),
      Runtime.Fleet sampleRun sampleRivals (sampleDispatch.perform (restored.onStore
        (sampleDispatch.perform
          (restored.onStore (samplePrepare.perform started).2.store)).2.store)).2.store members := by
  obtain ⟨own, prepared, first, second⟩ := answers
  have built : sampleWorkflow.Built := .batch .empty sampleWorkflow_built
  have quiet : ∀ store : InMemoryDurableStore,
      ¬ Runtime.Crowds (restored.onStore store) sampleDispatch := by
    rintro store ⟨_, _, _, parked, _⟩
    have parked : restored.pendingStarted.isSome = true := parked
    rw [Option.isNone_iff_eq_none.mp idle] at parked
    cases parked
  have unparked : ¬ Runtime.Crowds (started.onStore started.store) samplePrepare := by
    rintro ⟨_, same, _⟩
    cases same
  have begun : Runtime.Fleet sampleRun [] (FaithfulStore.content started.store)
      (Function.update (fun _ => none) false (some started)) :=
    .started false InMemoryDurableStore.allReachable_new (.run built (Prod.ext starts rfl)) own
  have recorded := begun.performed false (Function.update_self ..) rfl samplePrepare unparked
  have rejoined := recorded.restored false rfl (.run built restores)
  have joined := rejoined.restored true rfl (.run built restores)
  have left := joined.performed false ((Function.update_of_ne (by decide) ..).trans
    (Function.update_self ..)) rfl sampleDispatch (quiet _)
  have right := left.performed true ((Function.update_of_ne (by decide) ..).trans
    (Function.update_self ..)) rfl sampleDispatch (quiet _)
  have answered : sampleRivals = [] ++
      [(false, samplePrepare, (samplePrepare.perform (started.onStore started.store)).1)] ++
      [(false, sampleDispatch, (sampleDispatch.perform
        (restored.onStore (samplePrepare.perform started).2.store)).1)] ++
      [(true, sampleDispatch, (sampleDispatch.perform (restored.onStore (sampleDispatch.perform
        (restored.onStore (samplePrepare.perform started).2.store)).2.store)).1)] := by
    rw [first, second, show (samplePrepare.perform (started.onStore started.store)).1 = _ from
      prepared]
    rfl
  rw [answered]
  exact ⟨_, right⟩

/-- The durable data that the two runtimes leave. -/
theorem sampleRivals_reached :
    let _ := Persisted.postcard
    ∃ (shared : InMemoryDurableStore) (state : DurableRunState)
      (members : Bool → Option (Runtime InMemoryDurableStore Unit)),
      Runtime.Fleet sampleRun sampleRivals shared members ∧ shared.loadRun sampleRun = .ok state ∧
      state.intents[sampleOperation]? = some ⟨sampleTask, sampleOperation, .nonIdempotent⟩ := by
  intro _
  obtain ⟨started, starts, continued⟩ := exists_ok_of_any
    (show (sampleStarted.toOption.any fun started =>
      (Runtime.restoreRun sampleRun sampleWorkflow Scope.root []
          (samplePrepare.perform started).2.store).toOption.any fun restored =>
        (sampleDispatch.perform (restored.onStore (sampleDispatch.perform
            (restored.onStore (samplePrepare.perform started).2.store)).2.store)).2.store.loadRun
              sampleRun |>.toOption.any fun state =>
          restored.pendingStarted.isNone = true ∧
          (started.runId = sampleRun ∧ (samplePrepare.perform started).1 = .ok .done ∧
            (sampleDispatch.perform (restored.onStore (samplePrepare.perform started).2.store)).1 =
              .ok (.dispatched (generatedAttemptId sampleRun 1)) ∧
            (sampleDispatch.perform (restored.onStore (sampleDispatch.perform
              (restored.onStore (samplePrepare.perform started).2.store)).2.store)).1 =
              .ok (.dispatched (generatedAttemptId sampleRun 1))) ∧
          state.intents[sampleOperation]? =
            some ⟨sampleTask, sampleOperation, .nonIdempotent⟩) = true by decide +kernel)
  obtain ⟨restored, restores, ended⟩ := exists_ok_of_any continued
  obtain ⟨state, loaded, holds⟩ := exists_ok_of_any ended
  obtain ⟨idle, answers, prepared⟩ := of_decide_eq_true holds
  obtain ⟨members, fleet⟩ := sampleRivals_fleet starts restores idle answers
  exact ⟨_, state, members, fleet, loaded, prepared⟩

/-- **Two runtimes both win a non-idempotent dispatch.** -/
theorem two_runtimes_dispatch :
    let _ := Persisted.postcard
    ∃ (shared : InMemoryDurableStore) (state : DurableRunState)
      (members : Bool → Option (Runtime InMemoryDurableStore Unit)),
      Runtime.Fleet sampleRun sampleRivals shared members ∧ shared.loadRun sampleRun = .ok state ∧
      state.intents[sampleOperation]? = some ⟨sampleTask, sampleOperation, .nonIdempotent⟩ ∧
      sampleRivals.countP (fun event => Runtime.dispatchAnswered sampleOperation event.2) = 2 := by
  intro _
  obtain ⟨shared, state, members, fleet, loaded, prepared⟩ := sampleRivals_reached
  exact ⟨shared, state, members, fleet, loaded, prepared, by decide +kernel⟩

/-- Both name the attempt of the one dispatch record. -/
theorem dispatches_agree_sample :
    let _ := Persisted.postcard
    ∃ (shared : InMemoryDurableStore) (state : DurableRunState),
      shared.loadRun sampleRun = .ok state ∧
      state.dispatchHistory.filter (fun dispatch => dispatch.operationId = sampleOperation) =
        [⟨sampleOperation, generatedAttemptId sampleRun 1⟩] := by
  intro _
  obtain ⟨shared, state, members, fleet, loaded, prepared⟩ := sampleRivals_reached
  obtain ⟨other, again, agree⟩ := Runtime.dispatches_agree sampleRun sampleRivals shared members fleet
  cases Except.ok.inj (loaded.symm.trans again)
  obtain ⟨attemptId, named, single⟩ := (agree sampleOperation _ prepared rfl).2.1 true
    (.dispatched (generatedAttemptId sampleRun 1)) (by simp [sampleRivals, sampleDispatch])
  cases named
  exact ⟨shared, state, loaded, single⟩

end Kernis
