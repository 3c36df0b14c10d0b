/-
**What the loader promises.**

* `collectRoots_ok` — exactly pairwise distinct roots are accepted.
* `resolveGraph_iff` — a graph resolves exactly when all reachable references are in the catalog and none
  of them needs itself.
* `resolveCalls` — the resolution with the factories that it calls.
* `resolution_exact` — when a resolution succeeds, what it holds and calls, which error it reports
  otherwise, and that no order of the inputs shows in it.
-/

import Kernis.Loader.Shortest
import Kernis.Loader.Cycles

namespace Kernis

open Std

variable {ν : Type} {catalog : ModuleCatalog ν}

/-! ### The roots -/

/-- No two neighbours of a sorted list are equal exactly when no two elements are. -/
theorem adjacentDuplicate_none {references : List ModuleReference}
    (sorted : references.Pairwise fun left right => (compare left right).isLE) :
    adjacentDuplicate references = none ↔ references.Nodup := by
  induction references with
  | nil => simp [adjacentDuplicate]
  | cons first rest ih =>
    obtain ⟨least, others⟩ := List.pairwise_cons.mp sorted
    cases rest with
    | nil => simp [adjacentDuplicate]
    | cons second rest =>
      rw [adjacentDuplicate, List.nodup_cons, ← ih others]
      by_cases same : first = second
      · rw [if_pos same]
        refine ⟨fun none_ => (Option.some_ne_none first none_).elim, fun both => ?_⟩
        exact absurd (same ▸ List.mem_cons_self) both.1
      · rw [if_neg same]
        refine ⟨fun none_ => ⟨fun member => ?_, none_⟩, And.right⟩
        rcases List.mem_cons.mp member with equal | later
        · exact same equal
        · -- The second element lies between the first and an equal one.
          have above := (List.pairwise_cons.mp others).1 first later
          have below := least second List.mem_cons_self
          exact same (LawfulEqOrd.eq_of_compare (OrientedCmp.isLE_antisymm below above))

/-- A duplicate that is reported occurs twice. -/
theorem count_of_adjacentDuplicate {references : List ModuleReference} {reference : ModuleReference}
    (found : adjacentDuplicate references = some reference) : 2 ≤ references.count reference := by
  induction references with
  | nil => cases found
  | cons first rest ih =>
    cases rest with
    | nil => cases found
    | cons second rest =>
      rw [adjacentDuplicate] at found
      split at found
      · rename_i same
        cases found
        rw [same, List.count_cons_self, List.count_cons_self]
        omega
      · have later := ih found
        rw [List.count_cons]
        omega

/-- The references in order. -/
def sortedReferences (references : List ModuleReference) : List ModuleReference :=
  references.mergeSort fun left right => (compare left right).isLE

theorem sortedReferences_sorted (references : List ModuleReference) :
    (sortedReferences references).Pairwise fun left right => (compare left right).isLE := by
  refine List.pairwise_mergeSort (fun a b c => TransCmp.isLE_trans) (fun a b => ?_) references
  rw [OrientedOrd.eq_swap]
  cases compare b a with
  | lt => rfl
  | eq => rfl
  | gt => rfl

/-- The same references in another order are the same in order. -/
theorem sortedReferences_congr {references others : List ModuleReference}
    (same : references.Perm others) : sortedReferences references = sortedReferences others := by
  refine List.Perm.eq_of_pairwise (fun left right _ _ below above => ?_)
    (sortedReferences_sorted references) (sortedReferences_sorted others)
    ((List.mergeSort_perm _ _).trans (same.trans (List.mergeSort_perm _ _).symm))
  exact LawfulEqOrd.eq_of_compare (OrientedCmp.isLE_antisymm below above)

theorem collectRoots_congr {roots others : List ModuleReference} (same : roots.Perm others) :
    collectRoots roots = collectRoots others := by
  have sorted := sortedReferences_congr same
  unfold sortedReferences at sorted
  unfold collectRoots
  rw [sorted]

/-- **Exactly pairwise distinct roots are accepted**, as a set. -/
theorem collectRoots_ok {roots : List ModuleReference} (distinct : roots.Nodup) :
    ∃ set : BTreeSet ModuleReference, collectRoots roots = .ok set ∧
      ∀ reference, reference ∈ set ↔ reference ∈ roots := by
  have perm : (sortedReferences roots).Perm roots := List.mergeSort_perm _ _
  have none_ := (adjacentDuplicate_none (sortedReferences_sorted roots)).mpr
    (perm.nodup_iff.mpr distinct)
  refine ⟨.ofList (sortedReferences roots), ?_, fun reference => ?_⟩
  · unfold sortedReferences at none_
    unfold collectRoots
    simp only [none_]
    rfl
  · rw [ExtTreeSet.mem_ofList, List.contains_iff_mem]
    exact perm.mem_iff

theorem collectRoots_error {roots : List ModuleReference} (repeated : ¬ roots.Nodup) :
    ∃ reference, collectRoots roots = .error (.duplicateRootReference reference) ∧
      2 ≤ roots.count reference := by
  have perm : (sortedReferences roots).Perm roots := List.mergeSort_perm _ _
  cases found : adjacentDuplicate (sortedReferences roots) with
  | none =>
    exact absurd (perm.nodup_iff.mp
      ((adjacentDuplicate_none (sortedReferences_sorted roots)).mp found)) repeated
  | some reference =>
    have twice := count_of_adjacentDuplicate found
    rw [perm.count_eq] at twice
    refine ⟨reference, ?_, twice⟩
    unfold sortedReferences at found
    unfold collectRoots
    simp only [found]

/-! ### The graph -/

section Graph

variable {roots : BTreeSet ModuleReference}

/-- **Where a reachable reference is missing, the smallest one is reported** with a shortest chain. -/
theorem missing_of_resolveGraph {lost : ModuleReference}
    (reachable : Reachable catalog (· ∈ roots) lost) (absent : catalog.get lost = none) :
    ∃ smallest requiredBy path,
      resolveGraph catalog roots = .error (.missingReference smallest requiredBy path) ∧
      Reachable catalog (· ∈ roots) smallest ∧ catalog.get smallest = none ∧
      (∀ other, Reachable catalog (· ∈ roots) other → catalog.get other = none →
        (compare smallest other).isLE) ∧
      Chain catalog (· ∈ roots) smallest path ∧
      (∀ other, Chain catalog (· ∈ roots) smallest other → path.length ≤ other.length) ∧
      requiredBy = path.dropLast.getLast? := by
  obtain ⟨_, missing, shortest⟩ := Closure.closes catalog roots
  have whole : (Closure.ofRoots roots).close catalog (catalog.entries.size + 2) =
      Closure.whole catalog roots := rfl
  unfold resolveGraph
  simp only [whole]
  have sorted := ExtTreeMap.ordered_keys_toList (t := (Closure.whole catalog roots).missing)
  cases listed : (Closure.whole catalog roots).missing.toList with
  | nil =>
    obtain ⟨held, found⟩ := exists_lookup_of_mem ((missing lost).mpr ⟨reachable, absent⟩)
    have inside := ExtTreeMap.mem_toList_iff_getElem?_eq_some.mpr found
    rw [listed] at inside
    cases inside
  | cons first rest =>
    obtain ⟨smallest, discovery⟩ := first
    have found : (Closure.whole catalog roots).missing[smallest]? = some discovery :=
      ExtTreeMap.mem_toList_iff_getElem?_eq_some.mp (by rw [listed]; exact List.mem_cons_self)
    obtain ⟨reached, none_⟩ := (missing smallest).mp (mem_of_lookup found)
    obtain ⟨⟨chain, requiredBy⟩, least⟩ := shortest smallest discovery found
    refine ⟨smallest, _, _, rfl, reached, none_, fun other reachable absent => ?_, chain, least,
      requiredBy⟩
    obtain ⟨held, there⟩ := exists_lookup_of_mem ((missing other).mpr ⟨reachable, absent⟩)
    have inside := ExtTreeMap.mem_toList_iff_getElem?_eq_some.mpr there
    rw [listed] at inside sorted
    rcases List.mem_cons.mp inside with same | later
    · cases same
      rw [compare_self]
      rfl
    · rw [(List.pairwise_cons.mp sorted).1 _ later]
      rfl

/-- Where nothing is missing, the graph resolves to its reachable references, unless a cycle is found. -/
theorem resolveGraph_complete
    (complete : ∀ reference, Reachable catalog (· ∈ roots) reference → catalog.get reference ≠ none) :
    resolveGraph catalog roots = (detectCycles catalog roots
      (Closure.whole catalog roots).resolved).map fun _ => (Closure.whole catalog roots).resolved := by
  obtain ⟨_, missing, _⟩ := Closure.closes catalog roots
  have none_ : (Closure.whole catalog roots).missing.toList = [] := by
    refine List.eq_nil_iff_forall_not_mem.mpr fun entry inside => ?_
    obtain ⟨reachable, absent⟩ := (missing entry.1).mp
      (mem_of_lookup (ExtTreeMap.mem_toList_iff_getElem?_eq_some.mp inside))
    exact complete entry.1 reachable absent
  have whole : (Closure.ofRoots roots).close catalog (catalog.entries.size + 2) =
      Closure.whole catalog roots := rfl
  unfold resolveGraph
  simp only [whole, none_]
  cases detectCycles catalog roots (Closure.whole catalog roots).resolved with
  | error error => rfl
  | ok _ => rfl

/-- A cycle that can be reached is refused, when nothing is missing. -/
theorem cycle_of_resolveGraph
    (complete : ∀ reference, Reachable catalog (· ∈ roots) reference → catalog.get reference ≠ none)
    {reference : ModuleReference} (reachable : Reachable catalog (· ∈ roots) reference)
    (cycle : Relation.TransGen catalog.Declares reference reference) :
    ∃ path, resolveGraph catalog roots = .error (.dependencyCycle path) ∧
      ClosedWalk catalog.Declares path ∧
      (∀ reference ∈ path, Reachable catalog (· ∈ roots) reference) ∧
      ∀ first ∈ path.head?, ∀ reference ∈ path, (compare first reference).isLE := by
  cases resolves : resolveGraph catalog roots with
  | ok resolved =>
    obtain ⟨_, closed, rank, ranked⟩ := resolveGraph_ok resolves
    have held : resolved = (Closure.whole catalog roots).resolved := by
      rw [resolveGraph_complete complete] at resolves
      cases searched : detectCycles catalog roots (Closure.whole catalog roots).resolved with
      | error error =>
        rw [searched] at resolves
        cases resolves
      | ok _ =>
        rw [searched] at resolves
        cases resolves
        rfl
    have inside : reference ∈ resolved :=
      held ▸ ((Closure.closes catalog roots).1 reference).mpr ⟨reachable, complete _ reachable⟩
    -- A rank descends along the cycle, back to where it began.
    have descends : ∀ {other : ModuleReference}, Relation.TransGen catalog.Declares reference other →
        other ∈ resolved ∧ rank other < rank reference := by
      intro other path
      induction path with
      | single declares => exact ⟨closed _ inside _ declares, ranked _ inside _ declares⟩
      | tail _ declares ih =>
        exact ⟨closed _ ih.1 _ declares, (ranked _ ih.1 _ declares).trans ih.2⟩
    exact absurd (descends cycle).2 (Nat.lt_irrefl _)
  | error error =>
    rw [resolveGraph_complete complete] at resolves
    cases searched : detectCycles catalog roots (Closure.whole catalog roots).resolved with
    | ok _ =>
      rw [searched] at resolves
      cases resolves
    | error reported =>
      rw [searched] at resolves
      cases resolves
      obtain ⟨path, rfl, walk, inside, least⟩ := cycle_of_detectCycles searched
      exact ⟨path, rfl, walk, fun reference member =>
        (((Closure.closes catalog roots).1 reference).mp (inside reference member)).1, least⟩

/-- **A graph resolves to its reachable references exactly when they are all in the catalog and none of
them needs itself.** -/
theorem resolveGraph_iff : (∃ resolved, resolveGraph catalog roots = .ok resolved) ↔
    (∀ reference, Reachable catalog (· ∈ roots) reference → catalog.get reference ≠ none) ∧
      ∀ reference, Reachable catalog (· ∈ roots) reference →
        ¬ Relation.TransGen catalog.Declares reference reference := by
  constructor
  · rintro ⟨resolved, resolves⟩
    have complete : ∀ reference, Reachable catalog (· ∈ roots) reference →
        catalog.get reference ≠ none := by
      intro reference reachable absent
      obtain ⟨_, _, _, failed, _⟩ := missing_of_resolveGraph reachable absent
      rw [resolves] at failed
      cases failed
    refine ⟨complete, fun reference reachable cycle => ?_⟩
    obtain ⟨_, failed, _⟩ := cycle_of_resolveGraph complete reachable cycle
    rw [resolves] at failed
    cases failed
  · rintro ⟨complete, acyclic⟩
    cases resolves : resolveGraph catalog roots with
    | ok resolved => exact ⟨resolved, rfl⟩
    | error error =>
      exfalso
      rw [resolveGraph_complete complete] at resolves
      cases searched : detectCycles catalog roots (Closure.whole catalog roots).resolved with
      | ok _ =>
        rw [searched] at resolves
        cases resolves
      | error reported =>
        obtain ⟨path, _, walk, inside, _⟩ := cycle_of_detectCycles searched
        obtain ⟨node, member, cycle⟩ := walk.cycle
        exact acyclic node (((Closure.closes catalog roots).1 node).mp (inside node member)).1 cycle

/-- The graph that resolves holds its reachable references. -/
theorem resolveGraph_eq {resolved : BTreeMap ModuleReference Discovered}
    (resolves : resolveGraph catalog roots = .ok resolved) :
    resolved = (Closure.whole catalog roots).resolved := by
  rw [resolveGraph_complete (resolveGraph_iff.mp ⟨resolved, resolves⟩).1] at resolves
  cases searched : detectCycles catalog roots (Closure.whole catalog roots).resolved with
  | error error =>
    rw [searched] at resolves
    cases resolves
  | ok _ =>
    rw [searched] at resolves
    cases resolves
    rfl

end Graph

/-! ### The factories -/

/-- A factory agrees with its entry: it returns a registration of the identity of the reference, with the
declared dependencies. -/
def Agrees (reference : ModuleReference) (entry : CatalogEntry ν) : Prop :=
  ∃ registration, entry.factory = .ok registration ∧ registration.definition.id = reference.id ∧
    ∀ id, id ∈ registration.definition.dependencies ↔ id ∈ entry.dependencies.map ModuleReference.id

/-- **A reference is constructed exactly when its factory agrees.** -/
theorem constructEntry_iff {reference : ModuleReference} {entry : CatalogEntry ν} :
    (∃ resolved, constructEntry reference entry = .ok resolved) ↔ Agrees reference entry := by
  unfold constructEntry Agrees
  cases entry.factory with
  | error reason => simp
  | ok registration =>
    have sets : (ExtTreeSet.ofList (entry.dependencies.map ModuleReference.id) : BTreeSet Id) =
        ExtTreeSet.ofList registration.definition.dependencies ↔
          ∀ id, id ∈ registration.definition.dependencies ↔
            id ∈ entry.dependencies.map ModuleReference.id := by
      constructor
      · intro same id
        have both := congrArg (fun ids : BTreeSet Id => id ∈ ids) same
        simp only [ExtTreeSet.mem_ofList, List.contains_iff_mem, eq_iff_iff] at both
        exact both.symm
      · intro alike
        refine ExtTreeSet.ext_mem fun id => ?_
        rw [ExtTreeSet.mem_ofList, ExtTreeSet.mem_ofList, List.contains_iff_mem,
          List.contains_iff_mem]
        exact (alike id).symm
    by_cases named : registration.definition.id = reference.id
    · by_cases agree : (ExtTreeSet.ofList (entry.dependencies.map ModuleReference.id) : BTreeSet Id) =
        ExtTreeSet.ofList registration.definition.dependencies
      · simp [named, agree, sets.mp agree]
      · constructor
        · rintro ⟨resolved, constructed⟩
          simp [named, agree] at constructed
        · rintro ⟨_, same, _, alike⟩
          cases same
          exact absurd (sets.mpr alike) agree
    · simp [named]

/-- Calls the factories in order, up to the first one that does not agree. -/
def callFactories : List (ModuleReference × CatalogEntry ν) →
    List ModuleReference × Except LoaderError (List (ResolvedEntry ν))
  | [] => ([], .ok [])
  | (reference, entry) :: rest =>
    match constructEntry reference entry with
    | .error error => ([reference], .error error)
    | .ok resolved =>
      let later := callFactories rest
      (reference :: later.1, later.2.map fun others => resolved :: others)

/-- The resolution, with the references whose factories are called in order. -/
def resolveCalls (catalog : ModuleCatalog ν) (roots : List ModuleReference) :
    List ModuleReference × Except LoaderError (ResolvedModules ν) :=
  match collectRoots roots with
  | .error error => ([], .error error)
  | .ok roots =>
    match resolveGraph catalog roots with
    | .error error => ([], .error error)
    | .ok resolved =>
      let called := callFactories (resolved.keys.filterMap fun reference =>
        (catalog.get reference).map fun entry => (reference, entry))
      (called.1, called.2.map ResolvedModules.mk)

theorem callFactories_result (found : List (ModuleReference × CatalogEntry ν)) :
    (callFactories found).2 = found.mapM fun found => constructEntry found.1 found.2 := by
  induction found with
  | nil => rfl
  | cons first rest ih =>
    obtain ⟨reference, entry⟩ := first
    rw [callFactories, List.mapM_cons, ← ih]
    cases constructEntry reference entry with
    | error error => rfl
    | ok resolved =>
      cases later : (callFactories rest).2 with
      | error error =>
        simp only [later]
        rfl
      | ok others =>
        simp only [later]
        rfl

/-- **Factories that all agree are called once each.** -/
theorem callFactories_called {found : List (ModuleReference × CatalogEntry ν)}
    {entries : List (ResolvedEntry ν)} (returned : (callFactories found).2 = .ok entries) :
    (callFactories found).1 = found.map Prod.fst := by
  induction found generalizing entries with
  | nil => rfl
  | cons first rest ih =>
    obtain ⟨reference, entry⟩ := first
    unfold callFactories at returned ⊢
    cases constructed : constructEntry reference entry with
    | error error =>
      rw [constructed] at returned
      cases returned
    | ok resolved =>
      rw [constructed] at returned
      cases later : (callFactories rest).2 with
      | error error =>
        simp only [later] at returned
        cases returned
      | ok others => simp only [ih later, List.map_cons]

/-- The calls do not change the result. -/
theorem resolveCalls_result (catalog : ModuleCatalog ν) (roots : List ModuleReference) :
    (resolveCalls catalog roots).2 = catalog.resolve roots := by
  unfold resolveCalls ModuleCatalog.resolve
  cases collectRoots roots with
  | error error => rfl
  | ok set =>
    cases graph : resolveGraph catalog set with
    | error error =>
      simp only [bind, Except.bind, graph]
    | ok resolved =>
      simp only [bind, Except.bind, graph, callFactories_result]
      rfl

/-- Before the factories, an error calls none. -/
theorem resolveCalls_none {roots : List ModuleReference} {set : BTreeSet ModuleReference}
    {error : LoaderError} (collected : collectRoots roots = .ok set)
    (failed : resolveGraph catalog set = .error error) :
    resolveCalls catalog roots = ([], .error error) := by
  unfold resolveCalls
  simp only [collected, failed]

/-! ### No order shows -/

/-- **Two catalogs that differ in the order of dependency lists only.** -/
def SameEntries (catalog other : ModuleCatalog ν) : Prop :=
  Alike (fun entry twin : CatalogEntry ν => entry.dependencies.Perm twin.dependencies ∧
    entry.factory = twin.factory) catalog.entries other.entries

section SameEntries

variable {other : ModuleCatalog ν} (same : SameEntries catalog other)
include same

/-- Looking a reference up in both catalogs. -/
theorem SameEntries.get (reference : ModuleReference) :
    (catalog.get reference = none ∧ other.get reference = none) ∨
      ∃ entry twin, catalog.get reference = some entry ∧ other.get reference = some twin ∧
        sortedDependencies entry = sortedDependencies twin ∧
        constructEntry reference entry = constructEntry reference twin := by
  have related := same reference
  unfold ModuleCatalog.get
  cases found : catalog.entries[reference]? with
  | none =>
    rw [found] at related
    cases looked : other.entries[reference]? with
    | none => exact .inl ⟨rfl, rfl⟩
    | some twin =>
      rw [looked] at related
      cases related
  | some entry =>
    rw [found] at related
    cases looked : other.entries[reference]? with
    | none =>
      rw [looked] at related
      cases related
    | some twin =>
      rw [looked] at related
      cases related with
      | some both =>
        obtain ⟨perm, factory⟩ := both
        refine .inr ⟨entry, twin, rfl, rfl, sortedReferences_congr perm, ?_⟩
        have sets : (ExtTreeSet.ofList (entry.dependencies.map ModuleReference.id) : BTreeSet Id) =
            ExtTreeSet.ofList (twin.dependencies.map ModuleReference.id) := by
          refine ExtTreeSet.ext_mem fun id => ?_
          rw [ExtTreeSet.mem_ofList, ExtTreeSet.mem_ofList, List.contains_iff_mem,
            List.contains_iff_mem]
          exact (perm.map _).mem_iff
        unfold constructEntry
        rw [factory, sets]

theorem SameEntries.discover (closure : Closure) (found : ModuleReference × Discovered) :
    closure.discover catalog found = closure.discover other found := by
  unfold Closure.discover
  rcases same.get found.1 with ⟨mine, theirs⟩ | ⟨entry, twin, mine, theirs, sorted, _⟩
  · rw [mine, theirs]
  · rw [mine, theirs]
    simp only [sorted]

theorem SameEntries.close (rounds : Nat) (closure : Closure) :
    closure.close catalog rounds = closure.close other rounds := by
  have discovers : Closure.discover catalog = Closure.discover other := by
    funext closure found
    exact same.discover closure found
  induction rounds generalizing closure with
  | zero => rfl
  | succ rounds ih =>
    unfold Closure.close Closure.round
    rw [discovers, ih]

theorem SameEntries.cycleSearch (resolved : BTreeMap ModuleReference Discovered) :
    cycleSearch catalog resolved = cycleSearch other resolved := by
  have edges : (Kernis.cycleSearch catalog resolved).edges =
      (Kernis.cycleSearch other resolved).edges := by
    funext reference
    unfold Kernis.cycleSearch
    rcases same.get reference with ⟨mine, theirs⟩ | ⟨entry, twin, mine, theirs, sorted, _⟩
    · simp only [mine, theirs]
    · simp only [mine, theirs, sorted]
  exact congrArg (fun edges => (⟨edges, fun _ _ => none,
    fun path => .dependencyCycle (closedCycle path)⟩ :
      Exploration.Plan ModuleReference LoaderError)) edges

theorem SameEntries.resolveGraph (roots : BTreeSet ModuleReference) :
    resolveGraph catalog roots = resolveGraph other roots := by
  have size : catalog.entries.size = other.entries.size := by
    rw [← ExtTreeMap.length_keys, ← ExtTreeMap.length_keys, Alike.keys same]
  unfold Kernis.resolveGraph detectCycles
  simp only [size, same.close, same.cycleSearch]

theorem SameEntries.construct (resolved : BTreeMap ModuleReference Discovered) :
    construct catalog resolved = construct other resolved := by
  have results (references : List ModuleReference) :
      ((references.filterMap fun reference =>
        (catalog.get reference).map fun entry => (reference, entry)).mapM
          fun found => constructEntry found.1 found.2) =
      ((references.filterMap fun reference =>
        (other.get reference).map fun entry => (reference, entry)).mapM
          fun found => constructEntry found.1 found.2) := by
    induction references with
    | nil => rfl
    | cons reference rest ih =>
      rcases same.get reference with ⟨mine, theirs⟩ | ⟨entry, twin, mine, theirs, _, constructs⟩
      · rw [List.filterMap_cons, List.filterMap_cons, mine, theirs]
        exact ih
      · rw [List.filterMap_cons, List.filterMap_cons, mine, theirs]
        simp only [Option.map_some, List.mapM_cons, constructs, ih]
  unfold Kernis.construct
  rw [results]

/-- **The order of the roots and of the dependency lists does not show.** -/
theorem SameEntries.resolve {roots others : List ModuleReference} (perm : roots.Perm others) :
    other.resolve others = catalog.resolve roots := by
  unfold ModuleCatalog.resolve
  rw [collectRoots_congr perm]
  cases collectRoots others with
  | error error => rfl
  | ok set =>
    simp only [bind, Except.bind, same.resolveGraph set]
    cases Kernis.resolveGraph other set with
    | error error => rfl
    | ok resolved => exact (same.construct resolved).symm

end SameEntries

/-- Adds entries one after the other. -/
def ModuleCatalog.registerAll (catalog : ModuleCatalog ν) :
    List (CatalogEntry ν) → Except LoaderError (ModuleCatalog ν)
  | [] => .ok catalog
  | entry :: rest =>
    match catalog.register entry with
    | .error error => .error error
    | .ok next => next.registerAll rest

/-- An entry that is added. -/
theorem ModuleCatalog.register_eq_ok {entry : CatalogEntry ν} {next : ModuleCatalog ν} :
    catalog.register entry = .ok next ↔ entry.reference ∉ catalog.entries ∧
      next.entries = catalog.entries.insert entry.reference entry := by
  unfold ModuleCatalog.register
  split
  · rename_i known
    refine ⟨fun failed => ?_, fun both => absurd known both.1⟩
    cases failed
  · rename_i new
    constructor
    · intro added
      cases added
      exact ⟨new, rfl⟩
    · rintro ⟨_, same⟩
      obtain ⟨entries, keyed⟩ := next
      cases same
      rfl

/-- Two entries that are added can be added the other way round. -/
theorem ModuleCatalog.register_swap {first second : CatalogEntry ν} {middle last : ModuleCatalog ν}
    (one : catalog.register first = .ok middle) (two : middle.register second = .ok last) :
    ∃ other, catalog.register second = .ok other ∧ other.register first = .ok last := by
  obtain ⟨fresh, same⟩ := register_eq_ok.mp one
  obtain ⟨freshSecond, sameLast⟩ := register_eq_ok.mp two
  rw [same, mem_insert_iff, not_or] at freshSecond
  obtain ⟨apart, freshSecond⟩ := freshSecond
  cases added : catalog.register second with
  | error error =>
    unfold register at added
    rw [if_neg freshSecond] at added
    cases added
  | ok other =>
    obtain ⟨_, sameOther⟩ := register_eq_ok.mp added
    refine ⟨other, rfl, register_eq_ok.mpr ⟨?_, ?_⟩⟩
    · rw [sameOther, mem_insert_iff, not_or]
      exact ⟨Ne.symm apart, fresh⟩
    · rw [sameLast, same, sameOther]
      refine ExtTreeMap.ext_getElem? fun reference => ?_
      rw [lookup_insert, lookup_insert, lookup_insert, lookup_insert]
      by_cases here : second.reference = reference
      · rw [if_pos here, if_neg fun there => apart (here.trans there.symm), if_pos here]
      · rw [if_neg here, if_neg here]

theorem ModuleCatalog.registerAll_cons {entry : CatalogEntry ν} {rest : List (CatalogEntry ν)}
    {start : ModuleCatalog ν} : start.registerAll (entry :: rest) = .ok catalog ↔
      ∃ next, start.register entry = .ok next ∧ next.registerAll rest = .ok catalog := by
  rw [registerAll]
  cases start.register entry with
  | error error => simp
  | ok next => simp

/-- **The order of registration does not show.** -/
theorem ModuleCatalog.registerAll_perm {entries others : List (CatalogEntry ν)}
    (perm : entries.Perm others) {start : ModuleCatalog ν}
    (registered : start.registerAll entries = .ok catalog) :
    start.registerAll others = .ok catalog := by
  induction perm generalizing start with
  | nil => exact registered
  | cons entry _ ih =>
    obtain ⟨next, added, later⟩ := registerAll_cons.mp registered
    exact registerAll_cons.mpr ⟨next, added, ih later⟩
  | swap second first rest =>
    obtain ⟨middle, one, later⟩ := registerAll_cons.mp registered
    obtain ⟨last, two, later⟩ := registerAll_cons.mp later
    obtain ⟨other, two, one⟩ := register_swap one two
    exact registerAll_cons.mpr ⟨other, two, registerAll_cons.mpr ⟨last, one, later⟩⟩
  | trans _ _ ih ih' => exact ih' (ih registered)

/-! ### The whole resolution -/

/-- The factories that are called are those of the resolved references, in order. -/
theorem resolveCalls_references {roots : List ModuleReference} {modules : ResolvedModules ν}
    (resolves : catalog.resolve roots = .ok modules) :
    ∃ set : BTreeSet ModuleReference, collectRoots roots = .ok set ∧
      resolveGraph catalog set = .ok (Closure.whole catalog set).resolved ∧
      modules.references = (Closure.whole catalog set).resolved.keys ∧
      resolveCalls catalog roots = (modules.references, .ok modules) := by
  have result := resolveCalls_result catalog roots
  rw [resolves] at result
  obtain ⟨set, collected, resolves⟩ := except_bind_ok.mp resolves
  obtain ⟨resolved, graph, constructs⟩ := except_bind_ok.mp resolves
  obtain ⟨found, _⟩ := resolveGraph_ok graph
  have references := references_of_construct constructs found
  have whole := resolveGraph_eq graph
  refine ⟨set, collected, whole ▸ graph, whole ▸ references, Prod.ext ?_ result⟩
  unfold resolveCalls at result ⊢
  simp only [collected, graph] at result ⊢
  cases called : (callFactories (resolved.keys.filterMap fun reference =>
      (catalog.get reference).map fun entry => (reference, entry))).2 with
  | error error =>
    rw [called] at result
    cases result
  | ok entries =>
    rw [callFactories_called called, references, List.map_filterMap]
    refine (List.filterMap_congr fun reference member => ?_).trans List.filterMap_some
    obtain ⟨entry, entered⟩ := found reference (ExtTreeMap.mem_keys.mp member)
    rw [entered]
    rfl

/-- **When a resolution succeeds.** -/
theorem resolve_iff {roots : List ModuleReference} :
    (∃ modules, catalog.resolve roots = .ok modules) ↔ roots.Nodup ∧
      (∀ reference, Reachable catalog (· ∈ roots) reference → catalog.get reference ≠ none) ∧
      (∀ reference, Reachable catalog (· ∈ roots) reference →
        ¬ Relation.TransGen catalog.Declares reference reference) ∧
      ∀ reference entry, Reachable catalog (· ∈ roots) reference →
        catalog.get reference = some entry → Agrees reference entry := by
  by_cases distinct : roots.Nodup
  · obtain ⟨set, collected, members⟩ := collectRoots_ok distinct
    have same : (fun reference => reference ∈ set) = fun reference => reference ∈ roots :=
      funext fun reference => propext (members reference)
    have resolves : (∃ modules, catalog.resolve roots = .ok modules) ↔
        ∃ modules, (resolveGraph catalog set >>= construct catalog) = .ok modules := by
      unfold ModuleCatalog.resolve
      rw [collected]
      exact Iff.rfl
    have constructed (resolved : BTreeMap ModuleReference Discovered) :
        (∃ modules, construct catalog resolved = .ok modules) ↔
          ∀ reference entry, reference ∈ resolved → catalog.get reference = some entry →
            Agrees reference entry := by
      have mapped : (∃ modules, construct catalog resolved = .ok modules) ↔
          ∃ entries, (resolved.keys.filterMap fun reference =>
            (catalog.get reference).map fun entry => (reference, entry)).mapM
              (fun found => constructEntry found.1 found.2) = .ok entries := by
        unfold construct
        cases (resolved.keys.filterMap fun reference =>
          (catalog.get reference).map fun entry => (reference, entry)).mapM
            fun found => constructEntry found.1 found.2 with
        | error error => simp [Except.map]
        | ok entries => simp [Except.map]
      rw [mapped, exists_mapM_ok_iff]
      constructor
      · intro all reference entry inside entered
        refine constructEntry_iff.mp (all (reference, entry) (List.mem_filterMap.mpr
          ⟨reference, ExtTreeMap.mem_keys.mpr inside, ?_⟩))
        rw [entered]
        rfl
      · rintro all ⟨reference, entry⟩ listed
        obtain ⟨other, inside, found⟩ := List.mem_filterMap.mp listed
        obtain ⟨held, entered, both⟩ := Option.map_eq_some_iff.mp found
        cases both
        exact constructEntry_iff.mpr
          (all reference entry (ExtTreeMap.mem_keys.mp inside) entered)
    have graph := @resolveGraph_iff _ catalog set
    have reached := (Closure.closes catalog set).1
    rw [same] at graph
    rw [resolves]
    constructor
    · rintro ⟨modules, bound⟩
      obtain ⟨resolved, resolved_, constructs⟩ := except_bind_ok.mp bound
      obtain ⟨complete, acyclic⟩ := graph.mp ⟨resolved, resolved_⟩
      refine ⟨distinct, complete, acyclic, fun reference entry reachable entered => ?_⟩
      refine (constructed resolved).mp ⟨modules, constructs⟩ reference entry ?_ entered
      rw [resolveGraph_eq resolved_, reached, same]
      exact ⟨reachable, complete reference reachable⟩
    · rintro ⟨_, complete, acyclic, agree⟩
      obtain ⟨resolved, resolved_⟩ := graph.mpr ⟨complete, acyclic⟩
      obtain ⟨modules, constructs⟩ := (constructed resolved).mpr
        fun reference entry inside entered => by
          rw [resolveGraph_eq resolved_, reached, same] at inside
          exact agree reference entry inside.1 entered
      exact ⟨modules, except_bind_ok.mpr ⟨resolved, resolved_, constructs⟩⟩
  · obtain ⟨reference, failed, _⟩ := collectRoots_error distinct
    constructor
    · rintro ⟨modules, resolves⟩
      obtain ⟨set, collected, _⟩ := except_bind_ok.mp resolves
      rw [failed] at collected
      cases collected
    · exact fun all => absurd all.1 distinct

/-- **What a resolution promises.** -/
structure ResolutionExact (catalog : ModuleCatalog ν) (roots : List ModuleReference) : Prop where
  resolves : (∃ modules, catalog.resolve roots = .ok modules) ↔ roots.Nodup ∧
    (∀ reference, Reachable catalog (· ∈ roots) reference → catalog.get reference ≠ none) ∧
    (∀ reference, Reachable catalog (· ∈ roots) reference →
      ¬ Relation.TransGen catalog.Declares reference reference) ∧
    ∀ reference entry, Reachable catalog (· ∈ roots) reference →
      catalog.get reference = some entry → Agrees reference entry
  rooted : ∀ modules, catalog.resolve roots = .ok modules →
    ∀ root ∈ roots, root ∈ modules.references
  closed : ∀ modules, catalog.resolve roots = .ok modules →
    ∀ reference ∈ modules.references, ∀ dependency, catalog.Declares reference dependency →
      dependency ∈ modules.references
  least : ∀ modules, catalog.resolve roots = .ok modules → ∀ holds : ModuleReference → Prop,
    (∀ root ∈ roots, holds root) →
    (∀ reference dependency, holds reference → catalog.Declares reference dependency →
      holds dependency) →
    ∀ reference ∈ modules.references, holds reference
  sorted : ∀ modules, catalog.resolve roots = .ok modules →
    modules.references.Pairwise fun left right => compare left right = .lt
  called : ∀ modules, catalog.resolve roots = .ok modules →
    resolveCalls catalog roots = (modules.references, .ok modules)
  duplicate : ¬ roots.Nodup → ∃ reference, 2 ≤ roots.count reference ∧
    resolveCalls catalog roots = ([], .error (.duplicateRootReference reference))
  missing : roots.Nodup → ∀ lost, Reachable catalog (· ∈ roots) lost → catalog.get lost = none →
    ∃ smallest requiredBy path,
      resolveCalls catalog roots = ([], .error (.missingReference smallest requiredBy path)) ∧
      Reachable catalog (· ∈ roots) smallest ∧ catalog.get smallest = none ∧
      (∀ other, Reachable catalog (· ∈ roots) other → catalog.get other = none →
        (compare smallest other).isLE) ∧
      Chain catalog (· ∈ roots) smallest path ∧
      (∀ other, Chain catalog (· ∈ roots) smallest other → path.length ≤ other.length) ∧
      requiredBy = path.dropLast.getLast?
  cycle : roots.Nodup →
    (∀ reference, Reachable catalog (· ∈ roots) reference → catalog.get reference ≠ none) →
    ∀ reference, Reachable catalog (· ∈ roots) reference →
      Relation.TransGen catalog.Declares reference reference →
    ∃ path, resolveCalls catalog roots = ([], .error (.dependencyCycle path)) ∧
      ClosedWalk catalog.Declares path ∧
      (∀ reference ∈ path, Reachable catalog (· ∈ roots) reference) ∧
      ∀ first ∈ path.head?, ∀ reference ∈ path, (compare first reference).isLE
  result : (resolveCalls catalog roots).2 = catalog.resolve roots
  permuted : ∀ (other : ModuleCatalog ν) (others : List ModuleReference), SameEntries catalog other →
    roots.Perm others → other.resolve others = catalog.resolve roots
  registered : ∀ entries twins : List (CatalogEntry ν),
    ModuleCatalog.new.registerAll entries = .ok catalog → entries.Perm twins →
      ModuleCatalog.new.registerAll twins = .ok catalog

/-- **The resolution of references is exact**, for every catalog and every list of roots. -/
theorem resolution_exact (catalog : ModuleCatalog ν) (roots : List ModuleReference) :
    ResolutionExact catalog roots := by
  have members : ∀ modules, catalog.resolve roots = .ok modules → ∀ reference,
      reference ∈ modules.references ↔ Reachable catalog (· ∈ roots) reference := by
    intro modules resolves reference
    obtain ⟨distinct, complete, _⟩ := resolve_iff.mp ⟨modules, resolves⟩
    obtain ⟨set, collected, _, references, _⟩ := resolveCalls_references resolves
    obtain ⟨other, again, inside⟩ := collectRoots_ok distinct
    rw [collected] at again
    cases again
    have same : (fun reference => reference ∈ set) = fun reference => reference ∈ roots :=
      funext fun reference => propext (inside reference)
    rw [references, ExtTreeMap.mem_keys, (Closure.closes catalog set).1, same]
    exact ⟨And.left, fun reachable => ⟨reachable, complete reference reachable⟩⟩
  refine
    { resolves := resolve_iff
      rooted := fun modules resolves root member =>
        (members modules resolves root).mpr ⟨root, member, .refl⟩
      closed := fun modules resolves reference member dependency declares => ?_
      least := fun modules resolves holds base step reference member => ?_
      sorted := fun modules resolves => ?_
      called := fun modules resolves => ?_
      duplicate := fun repeated => ?_
      missing := fun distinct lost reachable absent => ?_
      cycle := fun distinct complete reference reachable cycle => ?_
      result := resolveCalls_result catalog roots
      permuted := fun other others same perm => same.resolve perm
      registered := fun entries twins registered perm => ModuleCatalog.registerAll_perm perm registered }
  · obtain ⟨root, isRoot, path⟩ := (members modules resolves reference).mp member
    exact (members modules resolves dependency).mpr ⟨root, isRoot, path.tail declares⟩
  · obtain ⟨root, isRoot, path⟩ := (members modules resolves reference).mp member
    clear member
    induction path with
    | refl => exact base root isRoot
    | tail _ declares ih => exact step _ _ ih declares
  · obtain ⟨set, _, _, references, _⟩ := resolveCalls_references resolves
    rw [references]
    exact ExtTreeMap.ordered_keys
  · obtain ⟨_, _, _, _, called⟩ := resolveCalls_references resolves
    exact called
  · obtain ⟨reference, failed, twice⟩ := collectRoots_error repeated
    refine ⟨reference, twice, ?_⟩
    unfold resolveCalls
    rw [failed]
  · obtain ⟨set, collected, inside⟩ := collectRoots_ok distinct
    have same : (fun reference => reference ∈ set) = fun reference => reference ∈ roots :=
      funext fun reference => propext (inside reference)
    obtain ⟨smallest, requiredBy, path, failed, reported⟩ :=
      @missing_of_resolveGraph _ catalog set _ (same ▸ reachable) absent
    rw [same] at reported
    exact ⟨smallest, requiredBy, path, resolveCalls_none collected failed, reported⟩
  · obtain ⟨set, collected, inside⟩ := collectRoots_ok distinct
    have same : (fun reference => reference ∈ set) = fun reference => reference ∈ roots :=
      funext fun reference => propext (inside reference)
    obtain ⟨path, failed, reported⟩ :=
      @cycle_of_resolveGraph _ catalog set (same ▸ complete) _ (same ▸ reachable) cycle
    rw [same] at reported
    exact ⟨path, resolveCalls_none collected failed, reported⟩

end Kernis
