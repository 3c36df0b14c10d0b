/-
**Resolving references.**

* `Closure.close` — the closure of the roots under the declared dependencies, in breadth-first rounds.
* `detectCycles` — a depth-first search of the closure from the roots.
* `construct` — one registration for every reference, checked against its entry.
* `ModuleCatalog.resolve` — all three. `Loads` is what it returns: a closed set of references in a
  topological order, with registrations that agree with their entries (`loads_of_resolve`).
-/

import Kernis.Lib.DepthFirst
import Kernis.Lib.Fallible
import Kernis.Loader.Catalog

namespace Kernis

open Std

/-- A resolved reference with its registration. -/
structure ResolvedEntry (ν : Type) where
  reference : ModuleReference
  registration : ModuleRegistration ν

/-- The resolved closure in reference order. -/
structure ResolvedModules (ν : Type) where
  entries : List (ResolvedEntry ν)

/-- The resolved references in order. -/
def ResolvedModules.references {ν : Type} (modules : ResolvedModules ν) : List ModuleReference :=
  modules.entries.map ResolvedEntry.reference

/-- How a reference was found: the entry that requires it, and the path from a root. -/
structure Discovered where
  requiredBy : Option ModuleReference
  path : List ModuleReference
deriving DecidableEq

/-- What the closure has resolved, what it missed, and the references of the next round. -/
structure Closure where
  resolved : BTreeMap ModuleReference Discovered
  missing : BTreeMap ModuleReference Discovered
  frontier : BTreeMap ModuleReference Discovered
deriving DecidableEq

section Resolve

variable {ν : Type} (catalog : ModuleCatalog ν)

/-- The root references; a repeated one is refused. -/
def adjacentDuplicate : List ModuleReference → Option ModuleReference
  | first :: second :: rest =>
    if first = second then some first else adjacentDuplicate (second :: rest)
  | _ => none

/-- The root references as a set; a repeated one is refused. -/
def collectRoots (roots : List ModuleReference) :
    Except LoaderError (BTreeSet ModuleReference) :=
  let sorted := roots.mergeSort fun left right => (compare left right).isLE
  match adjacentDuplicate sorted with
  | some reference => .error (.duplicateRootReference reference)
  | none => .ok (.ofList sorted)

/-- The dependencies of an entry in order. -/
def sortedDependencies (entry : CatalogEntry ν) : List ModuleReference :=
  entry.dependencies.mergeSort fun left right => (compare left right).isLE

/-! ### The closure -/

namespace Closure

/-- A dependency that is not resolved yet is looked up in the next round. -/
def request (reference : ModuleReference) (discovery : Discovered) (closure : Closure)
    (dependency : ModuleReference) : Closure :=
  if dependency ∈ closure.resolved ∨ dependency ∈ closure.frontier then closure
  else { closure with
    frontier := closure.frontier.insert dependency
      ⟨some reference, discovery.path ++ [dependency]⟩ }

/-- Looks up one reference. -/
def discover (closure : Closure) (found : ModuleReference × Discovered) : Closure :=
  if found.1 ∈ closure.resolved then closure
  else
    match catalog.get found.1 with
    | none =>
      if found.1 ∈ closure.missing then closure
      else { closure with missing := closure.missing.insert found.1 found.2 }
    | some entry => (sortedDependencies entry).foldl (request found.1 found.2)
      { closure with resolved := closure.resolved.insert found.1 found.2 }

/-- One round. -/
def round (closure : Closure) : Closure :=
  closure.frontier.toList.foldl (discover catalog) { closure with frontier := ∅ }

/-- Rounds until no reference is left. -/
def close : Nat → Closure → Closure
  | 0, closure => closure
  | rounds + 1, closure =>
    if closure.frontier.isEmpty then closure else close rounds (closure.round catalog)

/-- The roots, each found by itself. -/
def ofRoots (roots : BTreeSet ModuleReference) : Closure where
  resolved := ∅
  missing := ∅
  frontier := roots.toList.foldl (fun frontier reference =>
    frontier.insert reference ⟨none, [reference]⟩) ∅

end Closure

/-! ### Cycles -/

/-- The smallest reference of a cycle comes first. -/
def rotateToSmallest (cycle : List ModuleReference) : List ModuleReference :=
  match cycle with
  | [] => []
  | first :: rest => cycle.rotate (cycle.idxOf (rest.foldl (fun smallest reference =>
      if compare reference smallest = .lt then reference else smallest) first))

/-- The reported path of a cycle, closed at its smallest reference. -/
def closedCycle (path : List ModuleReference) : List ModuleReference :=
  let cycle := rotateToSmallest path.dropLast
  cycle ++ cycle.head?.toList

/-- The search for a cycle: resolved dependencies in order, nothing refused. -/
def cycleSearch (resolved : BTreeMap ModuleReference Discovered) :
    Exploration.Plan ModuleReference LoaderError where
  edges reference :=
    match catalog.get reference with
    | none => []
    | some entry => (sortedDependencies entry).filter (· ∈ resolved)
  refuse _ _ := none
  cycle path := .dependencyCycle (closedCycle path)

/-- Refuses a closure with a cycle. -/
def detectCycles (roots : BTreeSet ModuleReference)
    (resolved : BTreeMap ModuleReference Discovered) : Except LoaderError Unit :=
  (Exploration.search (cycleSearch catalog resolved) resolved.keys roots.toList).map fun _ => ()

/-- The closure of the roots, complete and without cycles. -/
def resolveGraph (roots : BTreeSet ModuleReference) :
    Except LoaderError (BTreeMap ModuleReference Discovered) :=
  let closure := (Closure.ofRoots roots).close catalog (catalog.entries.size + 2)
  match closure.missing.toList with
  | (requested, discovery) :: _ =>
    .error (.missingReference requested discovery.requiredBy discovery.path)
  | [] =>
    match detectCycles catalog roots closure.resolved with
    | .error error => .error error
    | .ok _ => .ok closure.resolved

/-! ### Construction -/

/-- The registration of one reference, which must agree with its entry. -/
def constructEntry (reference : ModuleReference) (entry : CatalogEntry ν) :
    Except LoaderError (ResolvedEntry ν) :=
  match entry.factory with
  | .error reason => .error (.registrationConstructionFailed reference reason)
  | .ok registration =>
    if registration.definition.id ≠ reference.id then
      .error (.incompatibleEntry reference
        (.producedIdentityMismatch registration.definition.id))
    else
      let declared : BTreeSet Id := .ofList (entry.dependencies.map ModuleReference.id)
      let produced : BTreeSet Id := .ofList registration.definition.dependencies
      if declared ≠ produced then
        .error (.incompatibleEntry reference
          (.declaredDependenciesDisagree declared.toList produced.toList))
      else .ok ⟨reference, registration⟩

/-- The registrations in reference order; every resolved reference has an entry. -/
def construct (resolved : BTreeMap ModuleReference Discovered) :
    Except LoaderError (ResolvedModules ν) :=
  ((resolved.keys.filterMap fun reference =>
    (catalog.get reference).map fun entry => (reference, entry)).mapM fun found =>
      constructEntry found.1 found.2).map ResolvedModules.mk

/-- Resolves the root references with their dependencies into registrations. -/
def ModuleCatalog.resolve (roots : List ModuleReference) :
    Except LoaderError (ResolvedModules ν) := do
  let roots ← collectRoots roots
  let resolved ← resolveGraph catalog roots
  construct catalog resolved

end Resolve

/-- Feeds the registrations into a builder. -/
def ResolvedModules.intoCompositionBuilder {ν : Type} (modules : ResolvedModules ν) :
    Except CompositionError (CompositionBuilder ν) :=
  modules.entries.foldlM (fun builder entry => builder.register entry.registration) .new

/-! ### What a closure holds -/

section Closing

variable {ν : Type} {catalog : ModuleCatalog ν}

/-- The entry of the first reference declares the second one. -/
def ModuleCatalog.Declares (catalog : ModuleCatalog ν) (reference dependency : ModuleReference) :
    Prop :=
  ∃ entry, catalog.get reference = some entry ∧ dependency ∈ entry.dependencies

theorem mem_sortedDependencies {entry : CatalogEntry ν} {dependency : ModuleReference} :
    dependency ∈ sortedDependencies entry ↔ dependency ∈ entry.dependencies :=
  List.mem_mergeSort

namespace Closure

/-- A reference that is resolved, missing, or still looked up. -/
def Known (waiting : List ModuleReference) (closure : Closure) (reference : ModuleReference) : Prop :=
  reference ∈ closure.resolved ∨ reference ∈ closure.missing ∨ reference ∈ closure.frontier ∨
    reference ∈ waiting

/-- **What the rounds keep**: resolved references have entries, whatever they declare is known, and
nothing is looked up that no root leads to. -/
structure Closing (catalog : ModuleCatalog ν) (roots : BTreeSet ModuleReference)
    (waiting : List ModuleReference) (closure : Closure) : Prop where
  found : ∀ reference ∈ closure.resolved, ∃ entry, catalog.get reference = some entry
  closed : ∀ reference ∈ closure.resolved, ∀ dependency, catalog.Declares reference dependency →
    closure.Known waiting dependency
  rooted : ∀ reference ∈ roots, closure.Known waiting reference
  reached : ∀ reference, reference ∈ closure.resolved ∨ reference ∈ closure.frontier ∨
    reference ∈ waiting → ∃ root ∈ roots, Relation.ReflTransGen catalog.Declares root reference

theorem foldl_request_resolved (reference : ModuleReference) (discovery : Discovered)
    (dependencies : List ModuleReference) (closure : Closure) :
    (dependencies.foldl (request reference discovery) closure).resolved = closure.resolved ∧
      (dependencies.foldl (request reference discovery) closure).missing = closure.missing := by
  induction dependencies generalizing closure with
  | nil => exact ⟨rfl, rfl⟩
  | cons dependency rest ih =>
    rw [List.foldl_cons, (ih _).1, (ih _).2]
    unfold request
    split
    · exact ⟨rfl, rfl⟩
    · exact ⟨rfl, rfl⟩

theorem mem_foldl_request (reference : ModuleReference) (discovery : Discovered)
    (dependencies : List ModuleReference) (closure : Closure) (other : ModuleReference) :
    other ∈ (dependencies.foldl (request reference discovery) closure).frontier ↔
      other ∈ closure.frontier ∨ other ∈ dependencies ∧ other ∉ closure.resolved := by
  induction dependencies generalizing closure with
  | nil => simp
  | cons dependency rest ih =>
    rw [List.foldl_cons, ih, List.mem_cons]
    unfold request
    split
    · rename_i known
      by_cases same : other = dependency
      · subst same
        by_cases resolved : other ∈ closure.resolved
        · simp [resolved]
        · simp [resolved, known.resolve_left resolved]
      · simp [same]
    · rename_i unknown
      rw [not_or] at unknown
      rw [mem_insert_iff]
      by_cases same : other = dependency
      · subst same
        simp [unknown.1]
      · simp [same]

/-- Looking up one of the waiting references. -/
theorem Closing.discover {roots : BTreeSet ModuleReference} {waiting : List ModuleReference}
    {closure : Closure} {found : ModuleReference × Discovered}
    (closing : Closing catalog roots (found.1 :: waiting) closure) :
    Closing catalog roots waiting (closure.discover catalog found) := by
  obtain ⟨reference, discovery⟩ := found
  unfold Closure.discover
  by_cases resolved : reference ∈ closure.resolved
  · rw [if_pos resolved]
    have still : ∀ other, closure.Known (reference :: waiting) other → closure.Known waiting other := by
      rintro other (known | known | known | known)
      · exact .inl known
      · exact .inr (.inl known)
      · exact .inr (.inr (.inl known))
      · rcases List.mem_cons.mp known with rfl | known
        · exact .inl resolved
        · exact .inr (.inr (.inr known))
    exact ⟨closing.found, fun one inside dependency declares =>
      still dependency (closing.closed one inside dependency declares),
      fun one root => still one (closing.rooted one root),
      fun one known => closing.reached one (known.imp_right (Or.imp_right (List.mem_cons_of_mem _)))⟩
  · rw [if_neg resolved]
    cases entered : catalog.get reference with
    | none =>
      simp only
      have missing : ∀ other, other ∈ (if reference ∈ closure.missing then closure
          else { closure with missing := closure.missing.insert reference discovery }).missing ↔
          other = reference ∨ other ∈ closure.missing := by
        intro other
        split
        · rename_i before
          exact ⟨.inr, fun either => either.elim (fun same => same ▸ before) id⟩
        · exact mem_insert_iff _ _ _ _
      have same : (if reference ∈ closure.missing then closure
          else { closure with missing := closure.missing.insert reference discovery }).resolved =
            closure.resolved ∧ (if reference ∈ closure.missing then closure
          else { closure with missing := closure.missing.insert reference discovery }).frontier =
            closure.frontier := by
        split
        · exact ⟨rfl, rfl⟩
        · exact ⟨rfl, rfl⟩
      generalize (if reference ∈ closure.missing then closure
          else { closure with missing := closure.missing.insert reference discovery }) = next
        at missing same
      obtain ⟨sameResolved, sameFrontier⟩ := same
      have still : ∀ other, closure.Known (reference :: waiting) other → next.Known waiting other := by
        rintro other (known | known | known | known)
        · exact .inl (sameResolved ▸ known)
        · exact .inr (.inl ((missing other).mpr (.inr known)))
        · exact .inr (.inr (.inl (sameFrontier ▸ known)))
        · rcases List.mem_cons.mp known with rfl | known
          · exact .inr (.inl ((missing other).mpr (.inl rfl)))
          · exact .inr (.inr (.inr known))
      refine ⟨fun one inside => closing.found one (sameResolved ▸ inside),
        fun one inside dependency declares => still dependency
          (closing.closed one (sameResolved ▸ inside) dependency declares),
        fun one root => still one (closing.rooted one root), fun one known => closing.reached one ?_⟩
      rw [sameResolved, sameFrontier] at known
      exact known.imp_right (Or.imp_right (List.mem_cons_of_mem _))
    | some entry =>
      simp only
      obtain ⟨sameResolved, sameMissing⟩ := foldl_request_resolved reference discovery
        (sortedDependencies entry)
        { closure with resolved := closure.resolved.insert reference discovery }
      have frontier := mem_foldl_request reference discovery (sortedDependencies entry)
        { closure with resolved := closure.resolved.insert reference discovery }
      generalize (sortedDependencies entry).foldl (request reference discovery)
        { closure with resolved := closure.resolved.insert reference discovery } = next
        at sameResolved sameMissing frontier
      have now : ∀ other, other ∈ next.resolved ↔ other = reference ∨ other ∈ closure.resolved := by
        intro other
        rw [sameResolved]
        exact mem_insert_iff _ _ _ _
      have still : ∀ other, closure.Known (reference :: waiting) other → next.Known waiting other := by
        rintro other (known | known | known | known)
        · exact .inl ((now other).mpr (.inr known))
        · exact .inr (.inl (sameMissing ▸ known))
        · exact .inr (.inr (.inl ((frontier other).mpr (.inl known))))
        · rcases List.mem_cons.mp known with rfl | known
          · exact .inl ((now other).mpr (.inl rfl))
          · exact .inr (.inr (.inr known))
      obtain ⟨root, isRoot, path⟩ := closing.reached reference (.inr (.inr List.mem_cons_self))
      refine ⟨fun one inside => ?_, fun one inside dependency declares => ?_,
        fun one root => still one (closing.rooted one root), fun one known => ?_⟩
      · rcases (now one).mp inside with rfl | before
        · exact ⟨entry, entered⟩
        · exact closing.found one before
      · rcases (now one).mp inside with rfl | before
        · -- What the new reference declares is resolved, or it is in the next round.
          obtain ⟨held, looked, member⟩ := declares
          rw [entered, Option.some.injEq] at looked
          subst looked
          by_cases there : dependency ∈ next.resolved
          · exact .inl there
          · refine .inr (.inr (.inl ((frontier dependency).mpr
              (.inr ⟨mem_sortedDependencies.mpr member, ?_⟩))))
            exact sameResolved ▸ there
        · exact still dependency (closing.closed one before dependency declares)
      · rcases known with known | known | known
        · rcases (now one).mp known with rfl | before
          · exact ⟨root, isRoot, path⟩
          · exact closing.reached one (.inl before)
        · rcases (frontier one).mp known with before | ⟨declared, _⟩
          · exact closing.reached one (.inr (.inl before))
          · exact ⟨root, isRoot, path.tail ⟨entry, entered, mem_sortedDependencies.mp declared⟩⟩
        · exact closing.reached one (.inr (.inr (List.mem_cons_of_mem _ known)))

theorem Closing.foldl {roots : BTreeSet ModuleReference} (found : List (ModuleReference × Discovered))
    {closure : Closure} (closing : Closing catalog roots (found.map Prod.fst) closure) :
    Closing catalog roots [] (found.foldl (Closure.discover catalog) closure) := by
  induction found generalizing closure with
  | nil => exact closing
  | cons first rest ih => exact ih closing.discover

/-- **A round keeps the closure.** -/
theorem Closing.round {roots : BTreeSet ModuleReference} {closure : Closure}
    (closing : Closing catalog roots [] closure) :
    Closing catalog roots [] (closure.round catalog) := by
  refine Closing.foldl _ ?_
  have waits : ∀ reference, reference ∈ closure.frontier.toList.map Prod.fst ↔
      reference ∈ closure.frontier := by
    intro reference
    rw [ExtTreeMap.map_fst_toList_eq_keys, ExtTreeMap.mem_keys]
  have still : ∀ other, closure.Known [] other →
      ({ closure with frontier := ∅ } : Closure).Known (closure.frontier.toList.map Prod.fst) other := by
    rintro other (known | known | known | known)
    · exact .inl known
    · exact .inr (.inl known)
    · exact .inr (.inr (.inr ((waits other).mpr known)))
    · cases known
  refine ⟨closing.found, fun one inside dependency declares =>
    still dependency (closing.closed one inside dependency declares),
    fun one root => still one (closing.rooted one root), fun one known => ?_⟩
  rcases known with known | known | known
  · exact closing.reached one (.inl known)
  · exact absurd known ExtTreeMap.not_mem_empty
  · exact closing.reached one (.inr (.inl ((waits one).mp known)))

theorem Closing.close {roots : BTreeSet ModuleReference} (rounds : Nat) {closure : Closure}
    (closing : Closing catalog roots [] closure) :
    Closing catalog roots [] (closure.close catalog rounds) := by
  induction rounds generalizing closure with
  | zero => exact closing
  | succ rounds ih =>
    unfold Closure.close
    split
    · exact closing
    · exact ih closing.round

theorem closing_ofRoots (roots : BTreeSet ModuleReference) :
    Closing catalog roots [] (ofRoots roots) := by
  have members : ∀ (references : List ModuleReference)
      (frontier : BTreeMap ModuleReference Discovered) (other : ModuleReference),
      other ∈ references.foldl (fun frontier reference =>
        frontier.insert reference ⟨none, [reference]⟩) frontier ↔
        other ∈ frontier ∨ other ∈ references := by
    intro references
    induction references with
    | nil => simp
    | cons reference rest ih =>
      intro frontier other
      rw [List.foldl_cons, ih, mem_insert_iff, List.mem_cons, or_assoc, or_left_comm]
  have frontier : ∀ other, other ∈ (ofRoots roots).frontier ↔ other ∈ roots := by
    intro other
    refine (members _ _ _).trans ?_
    rw [ExtTreeSet.mem_toList]
    exact ⟨fun either => either.resolve_left ExtTreeMap.not_mem_empty, .inr⟩
  refine ⟨fun one inside => absurd inside ExtTreeMap.not_mem_empty,
    fun one inside => absurd inside ExtTreeMap.not_mem_empty,
    fun one root => .inr (.inr (.inl ((frontier one).mpr root))), fun one known => ?_⟩
  rcases known with known | known | known
  · exact absurd known ExtTreeMap.not_mem_empty
  · exact ⟨one, (frontier one).mp known, .refl⟩
  · cases known

/-! ### The rounds suffice -/

/-- The references of the catalog that are not resolved yet. -/
def unresolved (catalog : ModuleCatalog ν) (closure : Closure) : Nat :=
  (catalog.entries.keys.filter (· ∉ closure.resolved)).length

/-- Looking up a reference resolves it, or it adds nothing to the next round. -/
theorem discover_progress (closure : Closure) (found : ModuleReference × Discovered) :
    ((closure.discover catalog found).frontier = closure.frontier ∧
        (closure.discover catalog found).resolved = closure.resolved) ∨
      unresolved catalog (closure.discover catalog found) < unresolved catalog closure := by
  unfold discover
  split
  · exact .inl ⟨rfl, rfl⟩
  · rename_i fresh
    split
    · split
      · exact .inl ⟨rfl, rfl⟩
      · exact .inl ⟨rfl, rfl⟩
    · rename_i entry entered
      refine .inr ?_
      unfold unresolved
      rw [(foldl_request_resolved _ _ _ _).1]
      have fewer : catalog.entries.keys.filter (· ∉ closure.resolved.insert found.1 found.2) =
          (catalog.entries.keys.filter (· ∉ closure.resolved)).filter (· ≠ found.1) := by
        rw [List.filter_filter]
        refine List.filter_congr fun other _ => ?_
        rw [Bool.eq_iff_iff, Bool.and_eq_true, decide_eq_true_iff, decide_eq_true_iff,
          decide_eq_true_iff, mem_insert_iff, not_or]
      simp only [fewer]
      rw [List.length_filter_lt_length_iff_exists]
      refine ⟨found.1, List.mem_filter.mpr ⟨ExtTreeMap.mem_keys.mpr (mem_of_lookup entered), ?_⟩, ?_⟩
      · exact decide_eq_true fresh
      · simp

theorem foldl_discover_progress (found : List (ModuleReference × Discovered)) (closure : Closure) :
    ((found.foldl (discover catalog) closure).frontier = closure.frontier ∧
        (found.foldl (discover catalog) closure).resolved = closure.resolved) ∨
      unresolved catalog (found.foldl (discover catalog) closure) < unresolved catalog closure := by
  induction found generalizing closure with
  | nil => exact .inl ⟨rfl, rfl⟩
  | cons first rest ih =>
    rw [List.foldl_cons]
    rcases discover_progress closure first with ⟨frontier, resolved⟩ | fewer
    · have same : unresolved catalog (closure.discover catalog first) = unresolved catalog closure := by
        unfold unresolved
        rw [resolved]
      rw [← frontier, ← resolved, ← same]
      exact ih _
    · refine .inr ?_
      rcases ih (closure.discover catalog first) with ⟨_, resolved⟩ | again
      · unfold unresolved at fewer ⊢
        rw [resolved]
        exact fewer
      · exact Nat.lt_trans again fewer

/-- **As many rounds as there are entries suffice.** -/
theorem close_done {rounds : Nat} {closure : Closure}
    (enough : (closure.frontier.isEmpty = true ∧ 0 < rounds) ∨ unresolved catalog closure + 2 ≤ rounds) :
    (closure.close catalog rounds).frontier.isEmpty = true := by
  induction rounds generalizing closure with
  | zero => omega
  | succ rounds ih =>
    unfold close
    split
    · assumption
    · rename_i open_
      refine ih ?_
      have room := enough.resolve_left fun done => open_ done.1
      rcases foldl_discover_progress closure.frontier.toList { closure with frontier := ∅ }
        with ⟨frontier, _⟩ | fewer
      · refine .inl ⟨?_, by omega⟩
        change (closure.frontier.toList.foldl (discover catalog)
          { closure with frontier := ∅ }).frontier.isEmpty = true
        rw [frontier]
        exact ExtTreeMap.isEmpty_empty
      · change unresolved catalog (closure.round catalog) < unresolved catalog closure at fewer
        omega

end Closure

/-! ### What a resolution returns -/

/-- **The resolved references**: each once and with a registration that agrees with its entry, closed
under the declared dependencies, and ranked above them. -/
structure Loads (catalog : ModuleCatalog ν) (modules : ResolvedModules ν) : Prop where
  answered : ∀ entry ∈ modules.entries, ∃ held, catalog.get entry.reference = some held ∧
    entry.registration.definition.id = entry.reference.id ∧
    ∀ id, id ∈ entry.registration.definition.dependencies ↔
      id ∈ held.dependencies.map ModuleReference.id
  distinct : modules.references.Nodup
  closed : ∀ reference ∈ modules.references, ∀ dependency, catalog.Declares reference dependency →
    dependency ∈ modules.references
  ranked : ∃ rank : ModuleReference → Nat, ∀ reference ∈ modules.references, ∀ dependency,
    catalog.Declares reference dependency → rank dependency < rank reference

/-- **A resolved graph** has an entry for every reference, is closed, and has no cycle. -/
theorem resolveGraph_ok {roots : BTreeSet ModuleReference}
    {resolved : BTreeMap ModuleReference Discovered}
    (resolves : resolveGraph catalog roots = .ok resolved) :
    (∀ reference ∈ resolved, ∃ entry, catalog.get reference = some entry) ∧
      (∀ reference ∈ resolved, ∀ dependency, catalog.Declares reference dependency →
        dependency ∈ resolved) ∧
      ∃ rank : ModuleReference → Nat, ∀ reference ∈ resolved, ∀ dependency,
        catalog.Declares reference dependency → rank dependency < rank reference := by
  have opening : Closure.Closing catalog roots [] (Closure.ofRoots roots) :=
    Closure.closing_ofRoots roots
  have closing := opening.close (catalog.entries.size + 2)
  have done : ((Closure.ofRoots roots).close catalog
      (catalog.entries.size + 2)).frontier.isEmpty = true := by
    refine Closure.close_done (.inr (Nat.add_le_add_right ?_ 2))
    refine (List.length_filter_le _ _).trans ?_
    rw [ExtTreeMap.length_keys]
  unfold resolveGraph at resolves
  simp only at resolves
  generalize (Closure.ofRoots roots).close catalog (catalog.entries.size + 2) = closure
    at resolves closing done
  split at resolves
  · cases resolves
  · rename_i complete
    split at resolves
    · cases resolves
    · rename_i explored searched
      cases resolves
      have settled : ∀ reference, closure.Known [] reference → reference ∈ closure.resolved := by
        rintro reference (known | known | known | known)
        · exact known
        · obtain ⟨discovery, found⟩ := exists_lookup_of_mem known
          have listed := ExtTreeMap.mem_toList_iff_getElem?_eq_some.mpr found
          rw [complete] at listed
          cases listed
        · rw [ExtTreeMap.isEmpty_iff] at done
          rw [done] at known
          exact absurd known ExtTreeMap.not_mem_empty
        · cases known
      have closed := fun reference inside dependency declares =>
        settled dependency (closing.closed reference inside dependency declares)
      refine ⟨closing.found, closed, ?_⟩
      have edges : ∀ {reference dependency : ModuleReference}, reference ∈ closure.resolved →
          catalog.Declares reference dependency →
          dependency ∈ (cycleSearch catalog closure.resolved).edges reference := by
        intro reference dependency inside declares
        have there := closed reference inside dependency declares
        obtain ⟨entry, entered, member⟩ := declares
        simp only [cycleSearch, entered]
        exact List.mem_filter.mpr ⟨mem_sortedDependencies.mpr member, decide_eq_true there⟩
      unfold detectCycles at searched
      cases search : Exploration.search (cycleSearch catalog closure.resolved)
          closure.resolved.keys roots.toList with
      | error error =>
        rw [search] at searched
        cases searched
      | ok order =>
        have ordered := Exploration.search_ordered search
        have inside : ∀ node ∈ roots.toList, node ∈ closure.resolved.keys := fun node root =>
          ExtTreeMap.mem_keys.mpr (settled node (closing.rooted node (ExtTreeSet.mem_toList.mp root)))
        have territory : ∀ node ∈ closure.resolved.keys,
            ∀ next ∈ (cycleSearch catalog closure.resolved).edges node,
              (cycleSearch catalog closure.resolved).refuse node next = none →
                next ∈ closure.resolved.keys := by
          intro node _ next edge _
          simp only [cycleSearch] at edge
          split at edge
          · cases edge
          · exact ExtTreeMap.mem_keys.mpr (of_decide_eq_true (List.mem_filter.mp edge).2)
        -- Every resolved reference is reached from a root, so the search finished it.
        have finished : ∀ reference ∈ closure.resolved, reference ∈ order := by
          intro reference member
          obtain ⟨root, isRoot, path⟩ := closing.reached reference (.inl member)
          have both : reference ∈ closure.resolved ∧ reference ∈ order := by
            clear member
            induction path with
            | refl =>
              exact ⟨settled root (closing.rooted root isRoot), Exploration.mem_search search
                territory inside (ExtTreeSet.mem_toList.mpr isRoot)⟩
            | tail _ declares ih =>
              exact ⟨closed _ ih.1 _ declares, (ordered.moves ih.2 (edges ih.1 declares)).1⟩
          exact both.2
        exact ⟨order.idxOf, fun reference member dependency declares =>
          (ordered.moves (finished reference member) (edges member declares)).2⟩

theorem constructEntry_ok {reference : ModuleReference} {entry : CatalogEntry ν}
    {resolved : ResolvedEntry ν} (constructed : constructEntry reference entry = .ok resolved) :
    resolved.reference = reference ∧ resolved.registration.definition.id = reference.id ∧
      ∀ id, id ∈ resolved.registration.definition.dependencies ↔
        id ∈ entry.dependencies.map ModuleReference.id := by
  unfold constructEntry at constructed
  split at constructed
  · cases constructed
  · split at constructed
    · cases constructed
    · rename_i same
      simp only at constructed
      split at constructed
      · cases constructed
      · rename_i agree
        cases constructed
        refine ⟨rfl, not_not.mp same, fun id => ?_⟩
        rw [not_not] at agree
        have both := congrArg (fun ids : BTreeSet Id => id ∈ ids) agree
        simp only [ExtTreeSet.mem_ofList, List.contains_iff_mem, eq_iff_iff] at both
        exact both.symm

theorem references_of_mapM {found : List (ModuleReference × CatalogEntry ν)}
    {entries : List (ResolvedEntry ν)}
    (mapped : found.mapM (fun found => constructEntry found.1 found.2) = .ok entries) :
    entries.map ResolvedEntry.reference = found.map Prod.fst := by
  have each := forall₂_of_mapM mapped
  clear mapped
  induction each with
  | nil => rfl
  | cons one _ ih => rw [List.map_cons, List.map_cons, ih, (constructEntry_ok one).1]

/-- The constructed references are the resolved ones, which all have an entry. -/
theorem references_of_construct {resolved : BTreeMap ModuleReference Discovered}
    {modules : ResolvedModules ν} (constructs : construct catalog resolved = .ok modules)
    (found : ∀ reference ∈ resolved, ∃ entry, catalog.get reference = some entry) :
    modules.references = resolved.keys := by
  unfold construct at constructs
  cases mapped : (resolved.keys.filterMap fun reference =>
      (catalog.get reference).map fun entry => (reference, entry)).mapM
        fun found => constructEntry found.1 found.2 with
  | error error =>
    rw [mapped] at constructs
    cases constructs
  | ok entries =>
    rw [mapped] at constructs
    cases constructs
    unfold ResolvedModules.references
    rw [references_of_mapM mapped, List.map_filterMap]
    refine (List.filterMap_congr fun reference member => ?_).trans List.filterMap_some
    obtain ⟨entry, entered⟩ := found reference (ExtTreeMap.mem_keys.mp member)
    rw [entered]
    rfl

/-- **A resolution returns a closed set of references in a topological order**, with registrations
that agree with their entries. -/
theorem loads_of_resolve {roots : List ModuleReference} {modules : ResolvedModules ν}
    (resolves : catalog.resolve roots = .ok modules) : Loads catalog modules := by
  obtain ⟨rootSet, _, resolves⟩ := except_bind_ok.mp resolves
  obtain ⟨resolved, graph, constructs⟩ := except_bind_ok.mp resolves
  obtain ⟨found, closed, rank, ranked⟩ := resolveGraph_ok graph
  have references := references_of_construct constructs found
  have members : ∀ reference, reference ∈ modules.references ↔ reference ∈ resolved := by
    intro reference
    rw [references, ExtTreeMap.mem_keys]
  unfold construct at constructs
  cases mapped : (resolved.keys.filterMap fun reference =>
      (catalog.get reference).map fun entry => (reference, entry)).mapM
        fun found => constructEntry found.1 found.2 with
  | error error =>
    rw [mapped] at constructs
    cases constructs
  | ok entries =>
    rw [mapped] at constructs
    cases constructs
    refine ⟨fun entry member => ?_, ?_, fun reference inside dependency declares => ?_, rank,
      fun reference inside => ranked reference ((members reference).mp inside)⟩
    · obtain ⟨⟨reference, held⟩, listed, constructed⟩ := exists_of_mapM mapped member
      obtain ⟨other, _, entered⟩ := List.mem_filterMap.mp listed
      obtain ⟨entry', looked, same⟩ := Option.map_eq_some_iff.mp entered
      cases same
      obtain ⟨named, identity, dependencies⟩ := constructEntry_ok constructed
      exact ⟨held, named ▸ looked, named ▸ identity, dependencies⟩
    · rw [references]
      exact ExtTreeMap.nodup_keys
    · exact (members dependency).mpr
        (closed reference ((members reference).mp inside) dependency declares)

end Closing

end Kernis
