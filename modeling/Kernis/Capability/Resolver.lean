/-
**The resolver of capability graphs, with its two `expect`s.**

* `resolveWithin` — the recursion as it is written, within a depth: it may also stop at an `expect`
  (`Halt`), which `resolve` leaves out.
* `resolveWithin_eq` — a depth above the number of definitions suffices, and no `expect` is reached:
  an active capability is on the active path, and a visited one is registered.
* `resolve_exact` — what a resolution is, when there is one, and what an error reports.
-/

import Kernis.Lib.ActivePath
import Kernis.Capability.Graph

namespace Kernis

open Std

/-- A validated capability graph with deterministic lifecycle order. -/
structure ResolvedCapabilityGraph where
  constructionOrder : List Id
deriving DecidableEq

/-- The capabilities in reverse construction order. -/
def ResolvedCapabilityGraph.teardownOrder (resolved : ResolvedCapabilityGraph) : List Id :=
  resolved.constructionOrder.reverse

namespace CapabilityGraph

/-- Where the recursion stops: at an error, or at an `expect` that does not hold. -/
inductive Halt
  | error (error : CapabilityGraphError)
  | notOnActivePath
  | notRegistered
deriving DecidableEq

/-- Visits the dependencies of a capability in order, a missing one refused. -/
def visitDependencies (graph : CapabilityGraph)
    (visit : Id → Exploration Id → Option (Except Halt (Exploration Id))) (id : Id) :
    List Id → Exploration Id → Option (Except Halt (Exploration Id))
  | [], exploration => some (.ok exploration)
  | dependency :: rest, exploration =>
    if dependency ∉ graph.definitions then
      some (.error (.error (.missingDependency id dependency)))
    else
      match visit dependency exploration with
      | none => none
      | some (.error halt) => some (.error halt)
      | some (.ok reached) => visitDependencies graph visit id rest reached

/-- Visits one capability within a depth; `none` is an exhausted depth. -/
def visit (graph : CapabilityGraph) : Nat → Id → Exploration Id →
    Option (Except Halt (Exploration Id))
  | 0, _, _ => none
  | depth + 1, id, exploration =>
    match exploration.marks[id]? with
    | some .done => some (.ok exploration)
    | some .active =>
      match exploration.activePath.idxOf? id with
      | none => some (.error .notOnActivePath)
      | some start =>
        some (.error (.error (.cycle (exploration.activePath.drop start ++ [id]))))
    | none =>
      match graph.definitions[id]? with
      | none => some (.error .notRegistered)
      | some definition =>
        match visitDependencies graph (visit graph depth) id definition.dependencies.toList
            (exploration.enter id) with
        | none => none
        | some (.error halt) => some (.error halt)
        | some (.ok reached) => some (.ok (reached.leave id))

/-- Visits the capabilities in order. -/
def visitAll (graph : CapabilityGraph) (depth : Nat) : List Id → Exploration Id →
    Option (Except Halt (Exploration Id))
  | [], exploration => some (.ok exploration)
  | id :: rest, exploration =>
    match graph.visit depth id exploration with
    | none => none
    | some (.error halt) => some (.error halt)
    | some (.ok reached) => visitAll graph depth rest reached

/-- The resolution within a depth of the recursion. -/
def resolveWithin (graph : CapabilityGraph) (depth : Nat) :
    Option (Except Halt ResolvedCapabilityGraph) :=
  match graph.visitAll depth graph.definitions.keys .start with
  | none => none
  | some (.error halt) => some (.error halt)
  | some (.ok explored) => some (.ok ⟨explored.finished⟩)

/-! ### No `expect` is reached -/

/-- An answer without `expect`s, as one with them. -/
def raise {β : Type} : Option (Except CapabilityGraphError β) → Option (Except Halt β) :=
  Option.map (Except.mapError .error)

variable {graph : CapabilityGraph} {before : Exploration Id} {id : Id}

theorem visitDependencies_eq
    {visit : Id → Exploration Id → Option (Except Halt (Exploration Id))}
    {plain : Id → Exploration Id → Option (Except CapabilityGraphError (Exploration Id))}
    (same : ∀ next one, one.Stacked graph.resolvePlan → one.Enters graph.resolvePlan next →
      next ∈ graph.definitions → visit next one = raise (plain next one))
    (visits : ∀ next one two, plain next one = some (.ok two) → one.Stacked graph.resolvePlan →
      one.Enters graph.resolvePlan next →
      two.Stacked graph.resolvePlan ∧ two.activePath = one.activePath)
    {dependencies path : List Id} (inside : ∀ next ∈ dependencies, next ∈ graph.requirements id)
    (stacked : before.Stacked graph.resolvePlan) (top : before.activePath = path ++ [id]) :
    graph.visitDependencies visit id dependencies before =
      raise (Exploration.follow graph.resolvePlan plain id dependencies before) := by
  induction dependencies generalizing before with
  | nil => rfl
  | cons next rest ih =>
    obtain ⟨edge, others⟩ := List.forall_mem_cons.mp inside
    unfold visitDependencies Exploration.follow
    by_cases known : next ∈ graph.definitions
    · have allowed : graph.resolvePlan.refuse id next = none := if_pos known
      have enters : before.Enters graph.resolvePlan next := by
        intro last final
        rw [top, List.getLast?_concat, Option.mem_some_iff] at final
        exact final ▸ edge
      rw [if_neg (not_not.mpr known), allowed, same next before stacked enters known]
      cases visited : plain next before with
      | none => rfl
      | some answer =>
        cases answer with
        | error error => rfl
        | ok reached =>
          obtain ⟨kept, unchanged⟩ := visits next before reached visited stacked enters
          exact ih others kept (unchanged.trans top)
    · have refused : graph.resolvePlan.refuse id next = some (.missingDependency id next) :=
        if_neg known
      rw [if_pos known, refused]
      rfl

/-- **A visit along the active path reaches no `expect`.** -/
theorem visit_eq {depth : Nat} (stacked : before.Stacked graph.resolvePlan)
    (enters : before.Enters graph.resolvePlan id) (known : id ∈ graph.definitions) :
    graph.visit depth id before = raise (Exploration.visit graph.resolvePlan depth id before) := by
  induction depth generalizing id before with
  | zero => rfl
  | succ depth ih =>
    unfold visit Exploration.visit
    cases mark : before.marks[id]? with
    | none =>
      obtain ⟨definition, found⟩ := exists_lookup_of_mem known
      have listed : graph.requirements id = definition.dependencies.toList := by
        unfold requirements
        rw [found]
      simp only [found]
      rw [visitDependencies_eq (fun _ _ => ih) (fun _ _ _ => Exploration.visit_stacked)
        (fun next member => by rw [listed]; exact member) (stacked.enter enters) rfl, ← listed]
      have edges : graph.resolvePlan.edges id = graph.requirements id := rfl
      rw [edges]
      cases Exploration.follow graph.resolvePlan (Exploration.visit graph.resolvePlan depth) id
          (graph.requirements id) (before.enter id) with
      | none => rfl
      | some answer =>
        cases answer with
        | error error => rfl
        | ok reached => rfl
    | some state =>
      cases state with
      | done => rfl
      | active =>
        have member := (stacked.active id).mp mark
        have position : before.activePath.idxOf? id = some (before.activePath.idxOf id) :=
          List.findIdx?_eq_some_iff_findIdx_eq.mpr ⟨List.idxOf_lt_length_iff.mpr member, rfl⟩
        simp only [position]
        rfl

theorem visitAll_eq {depth : Nat} {ids : List Id} (known : ∀ id ∈ ids, id ∈ graph.definitions)
    (stacked : before.Stacked graph.resolvePlan) (bare : before.activePath = []) :
    graph.visitAll depth ids before =
      raise (Exploration.visitAll graph.resolvePlan depth ids before) := by
  induction ids generalizing before with
  | nil => rfl
  | cons id rest ih =>
    obtain ⟨here, others⟩ := List.forall_mem_cons.mp known
    have enters : before.Enters graph.resolvePlan id := Exploration.enters_of_empty bare
    unfold visitAll Exploration.visitAll
    rw [visit_eq stacked enters here]
    cases visited : Exploration.visit graph.resolvePlan depth id before with
    | none => rfl
    | some answer =>
      cases answer with
      | error error => rfl
      | ok reached =>
        obtain ⟨kept, same⟩ := Exploration.visit_stacked visited stacked enters
        exact ih others kept (same.trans bare)

/-- **The recursion ends within the number of definitions, and reaches no `expect`.** -/
theorem resolveWithin_eq {depth : Nat} (enough : graph.definitions.size < depth) :
    graph.resolveWithin depth =
      some ((graph.resolve.map ResolvedCapabilityGraph.mk).mapError .error) := by
  have within : graph.definitions.keys.length + 1 ≤ depth := by
    rw [ExtTreeMap.length_keys]
    exact enough
  unfold resolveWithin resolve Exploration.search
  rw [visitAll_eq (fun id member => ExtTreeMap.mem_keys.mp member) Exploration.stacked_start rfl]
  cases visited : Exploration.visitAll graph.resolvePlan (graph.definitions.keys.length + 1)
      graph.definitions.keys .start with
  | none =>
    exact absurd visited (Exploration.visitAll_ne_none graph.resolvePlan_closed fun _ member => member)
  | some answer =>
    rw [Exploration.visitAll_of_depth within visited]
    cases answer with
    | error error => rfl
    | ok explored => rfl

/-! ### What the answer says -/

/-- A resolution lists the definitions. -/
theorem perm_of_resolve {order : List Id} (resolved : graph.resolve = .ok order) :
    order.Perm graph.definitions.keys := by
  obtain ⟨distinct, defined, _⟩ := order_of_resolve resolved
  refine (List.perm_ext_iff_of_nodup distinct ExtTreeMap.nodup_keys).mpr fun id => ?_
  rw [ExtTreeMap.mem_keys]
  exact ⟨defined id, mem_resolve resolved⟩

/-- **What an error reports**: a requirement that is not defined, or a closed walk of requirements. -/
theorem reports_of_resolve {error : CapabilityGraphError} (failed : graph.resolve = .error error) :
    (∃ capability dependency, error = .missingDependency capability dependency ∧
      graph.Requires capability dependency ∧ dependency ∉ graph.definitions) ∨
    ∃ path, error = .cycle path ∧ ClosedWalk graph.Requires path := by
  cases Exploration.reports_of_search failed with
  | refused edge refused =>
    rename_i source target
    change (if target ∈ graph.definitions then none else
      some (CapabilityGraphError.missingDependency source target)) = some error at refused
    split at refused
    · cases refused
    · cases refused
      exact .inl ⟨source, target, rfl, mem_requirements.mp edge, ‹_›⟩
  | cycle walk => exact .inr ⟨_, rfl, walk.imp fun _ _ => mem_requirements.mp⟩

/-- **What the resolver promises.** -/
structure ResolveExact (graph : CapabilityGraph) : Prop where
  resolves : (∃ order, graph.resolve = .ok order) ↔
    (∀ capability dependency, graph.Requires capability dependency →
      dependency ∈ graph.definitions) ∧
    ∀ capability, ¬ Relation.TransGen graph.Requires capability capability
  order : ∀ order, graph.resolve = .ok order → order.Perm graph.definitions.keys ∧
    (∀ front capability back, order = front ++ capability :: back →
      ∀ dependency, graph.Requires capability dependency → dependency ∈ front) ∧
    (ResolvedCapabilityGraph.mk order).teardownOrder = order.reverse
  cycle : ∀ path, graph.resolve = .error (.cycle path) → ClosedWalk graph.Requires path
  missing : ∀ capability dependency,
    graph.resolve = .error (.missingDependency capability dependency) →
    graph.Requires capability dependency ∧ dependency ∉ graph.definitions
  other : ∀ capability, graph.resolve ≠ .error (.unknownCapability capability)
  returns : ∀ depth, graph.definitions.size < depth → graph.resolveWithin depth =
    some ((graph.resolve.map ResolvedCapabilityGraph.mk).mapError .error)

/-- **The resolver is sound and complete**, on every graph of definitions. -/
theorem resolve_exact (graph : CapabilityGraph) : ResolveExact graph := by
  refine ⟨?_, fun order resolved => ⟨perm_of_resolve resolved, ?_, rfl⟩, fun path failed => ?_,
    fun capability dependency failed => ?_, fun capability failed => ?_,
    fun depth enough => resolveWithin_eq enough⟩
  · rw [resolve_iff]
    exact ⟨fun valid => ⟨valid.closed, valid.acyclic⟩, fun ⟨closed, acyclic⟩ => ⟨closed, acyclic⟩⟩
  · intro front capability back split dependency requires
    exact (order_of_resolve resolved).2.2 front capability back split dependency
      (mem_requirements.mpr requires)
  · rcases reports_of_resolve failed with ⟨_, _, same, _⟩ | ⟨other, same, walk⟩
    · cases same
    · cases same
      exact walk
  · rcases reports_of_resolve failed with ⟨_, _, same, reported⟩ | ⟨_, same, _⟩
    · cases same
      exact reported
    · cases same
  · rcases reports_of_resolve failed with ⟨_, _, same, _⟩ | ⟨_, same, _⟩
    · cases same
    · cases same

end CapabilityGraph

end Kernis
