/-
**What refuses a publication of a fiber.**

A load is published with what its context resolves. Its scope finds the same, so admission can refuse it for
a slot that is taken, for a cycle, or for a graph that was not valid before.

* `Chained.get` — what a context resolves, its scope finds.
* `CapabilityGraph.valid_insert_iff` — when a graph admits a candidate.
* `Sound.admitted` — when the second phase of a publication succeeds.
* `Whole.refused_iff` — a publication of a fiber is refused exactly when another stands in its way.
-/

import Kernis.Capability.Admission
import Kernis.Capability.Serial

namespace Kernis

open Std

variable {ν : Type}

/-! ### Graphs -/

/-- A walk that comes back passes through a node, or leaves it out. -/
theorem closed_walk_cases {α : Type} {step : α → α → Prop} (node : α) {source target : α}
    (walk : Relation.TransGen step source target) :
    Relation.TransGen (fun one two => one ≠ node ∧ step one two) source target ∨
      Relation.ReflTransGen step source node ∧ Relation.TransGen step node target := by
  induction walk with
  | single edge =>
    by_cases here : source = node
    · subst here
      exact .inr ⟨.refl, .single edge⟩
    · exact .inl (.single ⟨here, edge⟩)
  | @tail middle last before edge ih =>
    rcases ih with outside | ⟨reached, through⟩
    · by_cases here : middle = node
      · subst here
        exact .inr ⟨before.to_reflTransGen, .single edge⟩
      · exact .inl (outside.tail ⟨here, edge⟩)
    · exact .inr ⟨reached, through.tail edge⟩

namespace CapabilityGraph

variable {graph : CapabilityGraph} {definition : CapabilityDefinition}

theorem completes_iff : graph.completes definition = true ↔
    (graph.insert { definition with dependencies := ∅ }).Valid := by
  unfold completes validateCandidate
  rw [← resolve_iff]
  cases (graph.insert { definition with dependencies := ∅ }).resolve with
  | error error => simp [Except.toOption]
  | ok order => simp [Except.toOption]

/-- What a graph requires with a candidate: what the candidate does, and what the others do. -/
theorem requires_insert {capability dependency : Id} :
    (graph.insert definition).Requires capability dependency ↔
      capability = definition.id ∧ dependency ∈ definition.dependencies ∨
        capability ≠ definition.id ∧ graph.Requires capability dependency := by
  unfold Requires insert
  by_cases same : definition.id = capability
  · subst same
    simp only [lookup_insert_self, Option.some.injEq, exists_eq_left', true_and, ne_eq, not_true_eq_false,
      false_and, or_false]
  · simp only [lookup_insert_ne _ _ same, Ne.symm same, false_and, false_or, ne_eq, not_false_eq_true,
      true_and]

/-- **A candidate is admitted** exactly when the others are complete beside it, what it requires is there,
and it closes no cycle. -/
theorem valid_insert_iff : (graph.insert definition).Valid ↔ graph.completes definition = true ∧
    (∀ dependency ∈ definition.dependencies, dependency ∈ (graph.insert definition).definitions) ∧
      ¬ Relation.TransGen (graph.insert definition).Requires definition.id definition.id := by
  rw [completes_iff]
  have known (candidate : CapabilityDefinition) {id : Id} :
      id ∈ (graph.insert candidate).definitions ↔ candidate.id = id ∨ id ∈ graph.definitions :=
    ExtTreeMap.mem_insert.trans (or_congr_left compare_eq_iff_eq)
  constructor
  · intro valid
    refine ⟨⟨fun capability dependency requires => ?_, fun capability cycle => ?_⟩,
      fun dependency required => ?_, valid.acyclic _⟩
    · rcases requires_insert.mp requires with ⟨_, none⟩ | other
      · exact absurd none ExtTreeSet.not_mem_empty
      · exact (known _).mpr ((known definition).mp (valid.closed _ _ (requires_insert.mpr (.inr other))))
    · refine valid.acyclic capability (Relation.TransGen.mono (fun one two requires => ?_) _ _ cycle)
      rcases requires_insert.mp requires with ⟨_, none⟩ | other
      · exact absurd none ExtTreeSet.not_mem_empty
      · exact requires_insert.mpr (.inr other)
    · exact valid.closed _ _ (requires_insert.mpr (.inl ⟨rfl, required⟩))
  · rintro ⟨complete, present, acyclic⟩
    refine ⟨fun capability dependency requires => ?_, fun capability cycle => ?_⟩
    · rcases requires_insert.mp requires with ⟨_, required⟩ | other
      · exact present dependency required
      · exact (known _).mpr ((known { definition with dependencies := ∅ }).mp (complete.closed _ _ (requires_insert.mpr (.inr other))))
    · rcases closed_walk_cases definition.id cycle with outside | ⟨reached, through⟩
      · refine complete.acyclic capability (Relation.TransGen.mono (fun one two edge => ?_) _ _ outside)
        rcases requires_insert.mp edge.2 with ⟨same, _⟩ | other
        · exact absurd same edge.1
        · exact requires_insert.mpr (.inr other)
      · exact acyclic (through.trans_left reached)

end CapabilityGraph

/-! ### What a context resolves -/

namespace Topology

/-- What a lookup may reach is a part of the context. -/
theorem within_prefix (id : Id) (context : List ContextState) :
    ∃ rest, context = within id context ++ rest := by
  induction context with
  | nil => exact ⟨[], rfl⟩
  | cons current parents ih =>
    unfold within
    split
    · exact ⟨parents, rfl⟩
    · obtain ⟨rest, same⟩ := ih
      exact ⟨rest, congrArg (current :: ·) same⟩

/-- **A definition resolves** exactly where all its dependencies are visible. -/
theorem resolves_iff {topology : Topology ν} {context : List ContextState}
    {definition : CapabilityDefinition} :
    (∃ dependencies, topology.contextResolve context definition = .ok dependencies) ↔
      ∀ dependency ∈ definition.dependencies, (topology.contextGet context dependency).isSome = true := by
  unfold contextResolve
  rw [exists_mapM_ok_iff]
  simp only [ExtTreeSet.mem_toList]
  refine forall₂_congr fun dependency _ => ?_
  cases topology.contextGet context dependency with
  | none => simp
  | some handle => simp

/-- Which scopes would see a publication. -/
theorem sees_iff {topology : Topology ν} {scope other : Nat} {capability : Id} :
    topology.sees scope capability other = true ↔ (topology.live other = true ∧
      (topology.level other).isOpen = true) ∧
        topology.candidateAffects scope capability (other :: topology.ancestors other) = true := by
  unfold sees
  rw [Bool.and_eq_true, Bool.and_eq_true]

end Topology

namespace ContextTree

variable {tree : ScopeTree ν}

/-- **What a context resolves, its scope finds**, when that is open. -/
theorem Chained.get (sound : tree.Sound) {context : List ContextState}
    (chained : Chained tree.topology context)
    (isOpen : (tree.topology.level ((context.head?.map ContextState.scope).getD 0)).isOpen = true)
    {id : Id} {handle : CapabilityHandle ν} (found : tree.topology.contextGet context id = some handle) :
    (tree.topology.view ((context.head?.map ContextState.scope).getD 0)).get id = some handle := by
  obtain ⟨scope, live, views⟩ := chained
  have own : (context.head?.map ContextState.scope).getD 0 = scope := by
    rw [← List.head?_map, views]
    rfl
  rw [own] at isOpen ⊢
  rw [Topology.contextGet_eq_findSome sound.vacant] at found
  obtain ⟨rest, split⟩ := Topology.within_prefix id context
  have walked : ((scope :: tree.topology.ancestors scope).findSome? (tree.topology.entry id)) =
      context.findSome? fun view => tree.topology.entry id view.scope := by
    rw [← views, List.findSome?_map]
    rfl
  rw [Topology.get_eq_findSome (sound.path_open live isOpen), walked, split, List.findSome?_append, found]
  rfl

end ContextTree

/-- The entry of a dependency is that of its binding. -/
theorem entryOf_eq_lookup (dependencies : ResolvedDependencies ν) (id : Id) :
    Scope.entryOf dependencies id = (bindingOf dependencies).lookup id := by
  unfold Scope.entryOf bindingOf
  induction dependencies with
  | nil => rfl
  | cons first rest ih =>
    rw [List.map_cons, List.lookup_cons, List.lookup_cons]
    cases id == first.1 with
    | true => rfl
    | false => exact ih

/-! ### Admission -/

namespace ScopeTree

variable {tree : ScopeTree ν}

/-- **What a scope finds, the scopes below it define**: itself or a nearer entry. -/
theorem Sound.mem_graph (sound : Sound tree) {scope other : Nat} (live : tree.topology.live other = true)
    (isOpen : (tree.topology.level other).isOpen = true)
    (below : scope ∈ other :: tree.topology.ancestors other) {id : Id} {handle : CapabilityHandle ν}
    (found : (tree.topology.view scope).get id = some handle) :
    id ∈ (tree.topology.graph other).definitions := by
  have opened := sound.path_open live isOpen
  obtain ⟨holder, above, held⟩ := Topology.get_held found
  have reached : holder ∈ other :: tree.topology.ancestors other := by
    rcases List.mem_cons.mp below with rfl | further
    · exact above
    · refine List.mem_cons_of_mem _ ?_
      rcases List.mem_cons.mp above with rfl | top
      · exact further
      · exact sound.grounded.trans further top
  rw [ExtTreeMap.mem_iff_isSome_getElem?, sound.named.graph_lookup, Option.isSome_map,
    Topology.get_eq_findSome opened, List.findSome?_isSome_iff]
  refine ⟨holder, reached, ?_⟩
  show (tree.topology.level holder).entries[id]?.isSome = true
  rw [held]
  rfl

/-- What admits a candidate. -/
theorem validateCandidate_ok {scope : Scope ν} {definition : CapabilityDefinition} {order : List Id}
    (admits : scope.visibleGraph.validateCandidate definition = .ok order) :
    scope.validateCandidate definition = .ok () := by
  unfold Scope.validateCandidate
  rw [admits]

/-- A snapshot that is current. -/
theorem unchanged_of_binding {definition : CapabilityDefinition}
    {current dependencies : ResolvedDependencies ν} (same : bindingOf current = bindingOf dependencies) :
    Scope.changedDependency definition current dependencies = none := by
  unfold Scope.changedDependency
  refine List.find?_eq_none.mpr fun dependency _ => ?_
  rw [entryOf_eq_lookup, entryOf_eq_lookup, same]
  exact fun different => absurd rfl (of_decide_eq_true different)

/-- **The second phase of a publication succeeds** with a current snapshot, in a vacant slot of an open
scope, when every scope that would see it admits it. -/
theorem Sound.admitted (sound : Sound tree) {scope : Nat} {definition : CapabilityDefinition}
    {dependencies current : ResolvedDependencies ν} (live : tree.topology.live scope = true)
    (isOpen : (tree.topology.level scope).isOpen = true)
    (resolved : (tree.topology.view scope).resolveDependencies definition = .ok current)
    (same : bindingOf current = bindingOf dependencies)
    (vacant : (tree.topology.level scope).entries[definition.id]? = none)
    (admits : ∀ other, tree.topology.sees scope definition.id other = true →
      ∃ order, (tree.topology.graph other).validateCandidate definition = .ok order) :
    tree.topology.admitPreconstructed scope definition .new dependencies = .ok 1 := by
  have descendants : tree.topology.validateDescendantAdmission scope definition = .ok () := by
    refine forM_ok.mpr fun other below => ?_
    split
    · rename_i here
      obtain ⟨order, admitted⟩ := admits other (Topology.sees_iff.mpr
        ⟨⟨(sound.grounded.mem_liveDescendants.mp below).1, here.1⟩, here.2⟩)
      exact validateCandidate_ok admitted
    · rfl
  have expected : (tree.topology.view scope).checkExpectation definition.id .new = .ok () := by
    unfold Scope.checkExpectation
    rw [if_neg (not_not.mpr (show (tree.topology.view scope).own.isOpen = true from isOpen)),
      show (tree.topology.view scope).own.entries[definition.id]? = none from vacant]
  have own : (tree.topology.view scope).validateWithEntries definition = .ok () := by
    have itself : tree.topology.candidateAffects scope definition.id
        (scope :: tree.topology.ancestors scope) = true := by
      unfold Topology.candidateAffects
      rw [if_pos rfl]
    obtain ⟨order, admitted⟩ := admits scope (Topology.sees_iff.mpr ⟨⟨live, isOpen⟩, itself⟩)
    unfold Scope.validateWithEntries
    rw [Topology.visibleGraphWithEntries_eq isOpen, admitted]
  unfold Topology.admitPreconstructed
  simp only [resolved, bind, Except.bind, unchanged_of_binding same, descendants, expected, own]
  rfl

/-- **A current snapshot passes the check without the lock.** -/
theorem checkSnapshot_ok {scope : Scope ν} {definition : CapabilityDefinition}
    {current dependencies : ResolvedDependencies ν}
    (resolved : scope.resolveDependencies definition = .ok current)
    (same : bindingOf current = bindingOf dependencies) :
    scope.checkSnapshot definition dependencies definition.dependencies.toList = .ok () := by
  obtain ⟨listed, found⟩ := Topology.resolved_of_mapM resolved
  have distinct : (current.map Prod.fst).Nodup := by
    rw [listed]
    exact nodup_toList _
  have every : ∀ wanted ∈ definition.dependencies.toList, ∃ handle, scope.get wanted = some handle ∧
      Scope.entryOf dependencies wanted = some (handle.generation, handle.entryId) := by
    intro wanted inside
    rw [← listed] at inside
    obtain ⟨⟨_, handle⟩, there, rfl⟩ := List.mem_map.mp inside
    refine ⟨handle, found _ there, ?_⟩
    rw [entryOf_eq_lookup, ← same, ← entryOf_eq_lookup]
    unfold Scope.entryOf
    rw [lookup_of_mem distinct there]
    rfl
  generalize definition.dependencies.toList = wanted at every
  induction wanted with
  | nil => rfl
  | cons dependency rest ih =>
    obtain ⟨⟨handle, here, entry⟩, others⟩ := List.forall_mem_cons.mp every
    unfold Scope.checkSnapshot
    rw [here]
    simp only
    rw [entry, if_neg (not_not.mpr rfl)]
    exact ih others

/-- **A load that is published is not refused** when it is admitted and its snapshot is current. -/
theorem unrefused {publication : Nat} {begun : Publication ν}
    (found : tree.pending[publication]? = some (some begun)) (load : begun.load = true)
    (snapshot : (tree.topology.view begun.scope).checkSnapshot begun.definition begun.dependencies
      begun.definition.dependencies.toList = .ok ())
    {generation : Nat} (admitted : tree.topology.admitPreconstructed begun.scope begun.definition .new
      begun.dependencies = .ok generation) (value : ν) (error : ScopeError) :
    (tree.step (.constructed publication (.ok value))).1 ≠ .failed error := by
  simp only [step, found, complete, load, if_true]
  unfold provideValue
  rw [show (Topology.view tree.topology begun.scope).checkSnapshot begun.definition begun.dependencies
    begun.definition.dependencies.toList = .ok () from snapshot]
  unfold locked
  simp only
  split
  · exact fun same => by cases same
  · split
    · exact fun same => by cases same
    · unfold publishPreconstructed
      simp only [admitted]
      split
      · exact fun same => by cases same
      · exact fun same => by cases same

/-- A load that is not refused was admitted. -/
theorem admitted_of_unrefused {publication : Nat} {begun : Publication ν}
    (found : tree.pending[publication]? = some (some begun)) (load : begun.load = true)
    (live : tree.topology.live begun.scope = true) (unpoisoned : tree.poisoned = false) {value : ν}
    (unrefused : ∀ error, (tree.step (.constructed publication (.ok value))).1 ≠ .failed error) :
    ∃ generation, tree.topology.admitPreconstructed begun.scope begun.definition .new begun.dependencies =
      .ok generation := by
  simp only [step, found, complete, load, if_true] at unrefused
  unfold provideValue at unrefused
  split at unrefused
  · exact absurd rfl (unrefused _)
  · unfold locked at unrefused
    rw [if_neg (not_not.mpr live), if_neg (by rw [unpoisoned]; exact Bool.false_ne_true)] at unrefused
    unfold publishPreconstructed at unrefused
    cases admitted : tree.topology.admitPreconstructed begun.scope begun.definition .new
        begun.dependencies with
    | ok generation => exact ⟨generation, rfl⟩
    | error error =>
      simp only [admitted] at unrefused
      exact absurd rfl (unrefused error)

end ScopeTree

/-! ### Fibers -/

namespace ReactiveRuntime

open CapabilityFiber

variable {runtime : ReactiveRuntime ν}

/-- The publication of a fiber is refused. -/
def Refuses (runtime : ReactiveRuntime ν) (id : Nat) (error : ScopeError) : Prop :=
  ∃ fiber call force publication dependencies value, runtime.fibers[id]? = some fiber ∧
    fiber.transition = .publishing call force publication dependencies value ∧
      (runtime.tree.step (.constructed publication (.ok value))).1 = .failed error

theorem blocked_iff {fiber : CapabilityFiber ν} : runtime.blocked fiber = true ↔ ∃ other,
    runtime.tree.topology.sees fiber.scope fiber.definition.capability.id other = true ∧
      ¬ (runtime.tree.topology.graph other).completes fiber.definition.capability = true := by
  unfold blocked Topology.graph
  simp only [List.any_eq_true, List.mem_range, Bool.and_eq_true, Bool.not_eq_true', Bool.not_eq_true]
  refine exists_congr fun other => ⟨fun both => both.2, fun both => ⟨?_, both⟩⟩
  exact Topology.lt_of_live (Topology.sees_iff.mp both.1).1.1

/-- What the context of a fiber resolves, its scope does. -/
theorem Whole.resolves (whole : runtime.Whole) {fiber : CapabilityFiber ν} (member : fiber ∈ runtime.fibers)
    {dependencies : ResolvedDependencies ν}
    (binding : currentBinding runtime.tree fiber = some (bindingOf dependencies)) : ∃ current,
      (runtime.tree.topology.view fiber.scope).resolveDependencies fiber.definition.capability =
        .ok current ∧ bindingOf current = bindingOf dependencies := by
  have owns := (whole.intact fiber member).owns
  have chained := whole.coordinated.rooted.chained fiber.context (whole.coordinated.placed fiber member)
  unfold currentBinding at binding
  cases resolved : runtime.tree.topology.contextResolve fiber.context fiber.definition.capability with
  | error error =>
    rw [resolved] at binding
    cases binding
  | ok current =>
    rw [resolved] at binding
    refine ⟨current, mapM_of_forall₂ ((forall₂_of_mapM resolved).imp fun wanted result one => ?_),
      Option.some.inj binding⟩
    split at one
    · cases one
    · rename_i handle reached
      cases one
      rw [show (runtime.tree.topology.view fiber.scope).get wanted = some handle from
        chained.get (whole.intact fiber member).sound (whole.opened fiber.scope owns.live) reached]

/-- **What refuses a publication** with a current snapshot and a vacant slot that closes no cycle: another
publication that stands in its way. -/
theorem Whole.refused_iff (whole : runtime.Whole) (unpoisoned : runtime.tree.poisoned = false)
    {fiber : CapabilityFiber ν} (member : fiber ∈ runtime.fibers) {publication : Nat}
    {dependencies : ResolvedDependencies ν} (loads : fiber.loads = some (publication, dependencies))
    (binding : currentBinding runtime.tree fiber = some (bindingOf dependencies))
    (vacant : (runtime.tree.topology.level fiber.scope).entries[fiber.definition.capability.id]? = none)
    (acyclic : ∀ other,
      runtime.tree.topology.sees fiber.scope fiber.definition.capability.id other = true →
        ¬ Relation.TransGen ((runtime.tree.topology.graph other).insert fiber.definition.capability).Requires
          fiber.definition.capability.id fiber.definition.capability.id) (value : ν) :
    (∃ error, (runtime.tree.step (.constructed publication (.ok value))).1 = .failed error) ↔
      runtime.blocked fiber = true := by
  obtain ⟨sound, _, _, owns⟩ := whole.intact fiber member
  have sound : runtime.tree.Sound := sound
  have live : runtime.tree.topology.live fiber.scope = true := owns.live
  have waits : runtime.tree.pending[publication]? =
      some (some ⟨fiber.scope, fiber.definition.capability, .new, dependencies, true⟩) :=
    (owns.begun publication dependencies loads).resolve_left
      (by rw [show runtime.tree.poisoned = false from unpoisoned]; exact Bool.false_ne_true)
  obtain ⟨current, resolved, same⟩ := whole.resolves member binding
  obtain ⟨listed, found⟩ := Topology.resolved_of_mapM resolved
  constructor
  · rintro ⟨error, failed⟩
    by_contra unblocked
    refine ScopeTree.unrefused waits rfl (ScopeTree.checkSnapshot_ok resolved same) (sound.admitted live
      (whole.opened fiber.scope live) resolved same vacant fun other seen => ?_) value error failed
    refine (CapabilityGraph.resolve_iff _).mpr (CapabilityGraph.valid_insert_iff.mpr
      ⟨?_, fun dependency required => ?_, acyclic other seen⟩)
    · by_contra incomplete
      exact unblocked (blocked_iff.mpr ⟨other, seen, incomplete⟩)
    · rw [← ExtTreeSet.mem_toList, ← listed] at required
      obtain ⟨⟨_, handle⟩, there, rfl⟩ := List.mem_map.mp required
      obtain ⟨⟨lives, opened⟩, affects⟩ := Topology.sees_iff.mp seen
      exact ExtTreeMap.mem_insert.mpr
        (.inr (sound.mem_graph lives opened (Topology.mem_of_affects affects) (found _ there)))
  · intro blocked
    obtain ⟨other, seen, incomplete⟩ := blocked_iff.mp blocked
    obtain ⟨⟨lives, opened⟩, affects⟩ := Topology.sees_iff.mp seen
    by_contra unrefused
    obtain ⟨generation, admitted⟩ := ScopeTree.admitted_of_unrefused waits rfl live unpoisoned
      (fun error failed => unrefused ⟨error, failed⟩)
    exact incomplete
      (CapabilityGraph.valid_insert_iff.mp (sound.admits admitted lives opened affects)).1

end ReactiveRuntime

end Kernis
