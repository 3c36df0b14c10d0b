/-
**The closure finds every reference along a shortest chain.**

The rounds are the levels of a breadth-first search: the references that a round looks up are found
along chains as long as the number of the round.

* `Chain` — declared dependencies from a root to a reference.
* `Scanning`, `Level` — inside a round and between two rounds: whatever has a shorter chain is resolved
  or missing, and is kept with a shortest one.
* `closes` — at the end, exactly the reachable references are resolved or missing, by whether the
  catalog has an entry.
-/

import Kernis.Loader.Resolve

namespace Kernis

open Std

variable {ν : Type} {catalog : ModuleCatalog ν} {roots : BTreeSet ModuleReference}
  {reference dependency : ModuleReference} {closure : Closure} {length : Nat}

/-- **A chain of declared dependencies** from a root to a reference. -/
structure Chain (catalog : ModuleCatalog ν) (isRoot : ModuleReference → Prop)
    (reference : ModuleReference) (path : List ModuleReference) : Prop where
  rooted : ∃ root, isRoot root ∧ path.head? = some root
  steps : path.IsChain catalog.Declares
  ends : path.getLast? = some reference

/-- A reference that a root leads to. -/
def Reachable (catalog : ModuleCatalog ν) (isRoot : ModuleReference → Prop)
    (reference : ModuleReference) : Prop :=
  ∃ root, isRoot root ∧ Relation.ReflTransGen catalog.Declares root reference

/-- A walk leads from its first node to its last. -/
theorem reflTransGen_of_isChain {α : Type} {step : α → α → Prop} {path : List α} {first last : α}
    (steps : path.IsChain step) (starts : path.head? = some first) (ends : path.getLast? = some last) :
    Relation.ReflTransGen step first last := by
  induction path generalizing first with
  | nil => cases starts
  | cons one rest ih =>
    cases starts
    cases rest with
    | nil =>
      cases ends
      exact .refl
    | cons next rest =>
      obtain ⟨edge, others⟩ := List.isChain_cons_cons.mp steps
      exact .head edge (ih others rfl (List.getLast?_cons_cons ▸ ends))

theorem Chain.reachable {isRoot : ModuleReference → Prop} {path : List ModuleReference}
    (chain : Chain catalog isRoot reference path) : Reachable catalog isRoot reference := by
  obtain ⟨root, isRoot_, starts⟩ := chain.rooted
  exact ⟨root, isRoot_, reflTransGen_of_isChain chain.steps starts chain.ends⟩

/-- A chain goes on along a declared dependency. -/
theorem Chain.push {isRoot : ModuleReference → Prop} {path : List ModuleReference}
    (chain : Chain catalog isRoot reference path) (declares : catalog.Declares reference dependency) :
    Chain catalog isRoot dependency (path ++ [dependency]) where
  rooted := by
    obtain ⟨root, isRoot_, starts⟩ := chain.rooted
    exact ⟨root, isRoot_, by rw [List.head?_append, starts]; rfl⟩
  steps := by
    refine chain.steps.append (List.isChain_singleton _) fun last final first one => ?_
    rw [chain.ends, Option.mem_some_iff] at final
    rw [List.head?_cons, Option.mem_some_iff] at one
    subst final one
    exact declares
  ends := List.getLast?_concat

/-- A chain of more than one reference goes over the one before its end. -/
theorem Chain.pop {isRoot : ModuleReference → Prop} {path : List ModuleReference}
    (chain : Chain catalog isRoot dependency path) : (isRoot dependency ∧ path = [dependency]) ∨
      ∃ reference front, path = front ++ [dependency] ∧ Chain catalog isRoot reference front ∧
        catalog.Declares reference dependency := by
  obtain ⟨front, rfl⟩ := List.getLast?_eq_some_iff.mp chain.ends
  rcases List.eq_nil_or_concat front with rfl | ⟨early, reference, rfl⟩
  · obtain ⟨root, isRoot_, starts⟩ := chain.rooted
    cases starts
    exact .inl ⟨isRoot_, rfl⟩
  · rw [List.concat_eq_append] at chain ⊢
    obtain ⟨root, isRoot_, starts⟩ := chain.rooted
    refine .inr ⟨reference, _, rfl, ⟨⟨root, isRoot_, ?_⟩, chain.steps.left_of_append,
      List.getLast?_concat⟩, ?_⟩
    · rw [List.head?_append] at starts
      cases begun : (early ++ [reference]).head? with
      | none => simp at begun
      | some first =>
        rw [begun] at starts
        exact starts
    · have steps := chain.steps
      rw [List.append_assoc, List.singleton_append] at steps
      exact List.isChain_cons_cons.mp steps.right_of_append |>.1

namespace Closure

/-- **A discovery tells a chain**, and the reference before its end. -/
structure Tells (catalog : ModuleCatalog ν) (roots : BTreeSet ModuleReference)
    (reference : ModuleReference) (discovery : Discovered) : Prop where
  chain : Chain catalog (· ∈ roots) reference discovery.path
  requiredBy : discovery.requiredBy = discovery.path.dropLast.getLast?

/-- **A discovery tells a shortest chain.** -/
structure Shortest (catalog : ModuleCatalog ν) (roots : BTreeSet ModuleReference)
    (reference : ModuleReference) (discovery : Discovered) : Prop
    extends Tells catalog roots reference discovery where
  least : ∀ path, Chain catalog (· ∈ roots) reference path → discovery.path.length ≤ path.length

theorem Tells.push {discovery : Discovered} (tells : Tells catalog roots reference discovery)
    (declares : catalog.Declares reference dependency) :
    Tells catalog roots dependency ⟨some reference, discovery.path ++ [dependency]⟩ where
  chain := tells.chain.push declares
  requiredBy := by
    rw [List.dropLast_concat]
    exact tells.chain.ends.symm

/-- A reference that is resolved or missing. -/
def Settled (closure : Closure) (reference : ModuleReference) : Prop :=
  reference ∈ closure.resolved ∨ reference ∈ closure.missing

/-- **Inside a round**: the references that wait are found along chains of one length, the next ones
along chains one longer, and all that have a shorter chain are settled. -/
structure Scanning (catalog : ModuleCatalog ν) (roots : BTreeSet ModuleReference) (length : Nat)
    (waiting : List (ModuleReference × Discovered)) (closure : Closure) : Prop where
  resolved : ∀ (reference : ModuleReference) (discovery : Discovered),
    closure.resolved[reference]? = some discovery → Shortest catalog roots reference discovery
  missing : ∀ (reference : ModuleReference) (discovery : Discovered),
    closure.missing[reference]? = some discovery →
      Shortest catalog roots reference discovery ∧ catalog.get reference = none
  complete : ∀ reference path, Chain catalog (· ∈ roots) reference path → path.length < length →
    closure.Settled reference
  waiting : ∀ found ∈ waiting, Tells catalog roots found.1 found.2 ∧ found.2.path.length = length
  next : ∀ (reference : ModuleReference) (discovery : Discovered),
    closure.frontier[reference]? = some discovery →
      Tells catalog roots reference discovery ∧ discovery.path.length = length + 1

/-- **Between two rounds.** -/
structure Level (catalog : ModuleCatalog ν) (roots : BTreeSet ModuleReference) (length : Nat)
    (closure : Closure) : Prop where
  resolved : ∀ (reference : ModuleReference) (discovery : Discovered),
    closure.resolved[reference]? = some discovery → Shortest catalog roots reference discovery
  missing : ∀ (reference : ModuleReference) (discovery : Discovered),
    closure.missing[reference]? = some discovery →
      Shortest catalog roots reference discovery ∧ catalog.get reference = none
  complete : ∀ reference path, Chain catalog (· ∈ roots) reference path → path.length < length →
    closure.Settled reference
  frontier : ∀ (reference : ModuleReference) (discovery : Discovered),
    closure.frontier[reference]? = some discovery →
      Tells catalog roots reference discovery ∧ discovery.path.length = length

/-! ### One reference -/

/-- What is looked up next was looked up before, or it is one of the dependencies. -/
theorem lookup_foldl_request (discovery : Discovered) (dependencies : List ModuleReference)
    {other : ModuleReference} {found : Discovered}
    (looked : (dependencies.foldl (request reference discovery) closure).frontier[other]? =
      some found) : closure.frontier[other]? = some found ∨
        other ∈ dependencies ∧ found = ⟨some reference, discovery.path ++ [other]⟩ := by
  induction dependencies generalizing closure with
  | nil => exact .inl looked
  | cons dependency rest ih =>
    rcases ih looked with before | ⟨member, same⟩
    · unfold request at before
      split at before
      · exact .inl before
      · rw [lookup_insert] at before
        split at before
        · rename_i same
          cases before
          exact .inr ⟨same ▸ List.mem_cons_self, by rw [same]⟩
        · exact .inl before
    · exact .inr ⟨List.mem_cons_of_mem _ member, same⟩

/-- A reference that is looked up is settled. -/
theorem discover_settles (closure : Closure) (found : ModuleReference × Discovered) :
    (closure.discover catalog found).Settled found.1 := by
  unfold discover
  split
  · exact .inl ‹_›
  · split
    · split
      · exact .inr ‹_›
      · exact .inr ((mem_insert_iff _ _ _ _).mpr (.inl rfl))
    · refine .inl ?_
      rw [(foldl_request_resolved _ _ _ _).1]
      exact (mem_insert_iff _ _ _ _).mpr (.inl rfl)

/-- A settled reference stays settled. -/
theorem Settled.discover (settled : closure.Settled reference)
    (found : ModuleReference × Discovered) : (closure.discover catalog found).Settled reference := by
  unfold Closure.discover
  split
  · exact settled
  · split
    · split
      · exact settled
      · exact settled.imp_right fun member => (mem_insert_iff _ _ _ _).mpr (.inr member)
    · unfold Settled
      rw [(foldl_request_resolved _ _ _ _).1, (foldl_request_resolved _ _ _ _).2]
      exact settled.imp_left fun member => (mem_insert_iff _ _ _ _).mpr (.inr member)

theorem Settled.foldl (settled : closure.Settled reference)
    (found : List (ModuleReference × Discovered)) :
    (found.foldl (Closure.discover catalog) closure).Settled reference := by
  induction found generalizing closure with
  | nil => exact settled
  | cons first rest ih => exact ih (settled.discover first)

theorem foldl_settles {found : List (ModuleReference × Discovered)}
    (member : reference ∈ found.map Prod.fst) :
    (found.foldl (Closure.discover catalog) closure).Settled reference := by
  induction found generalizing closure with
  | nil => cases member
  | cons first rest ih =>
    rcases List.mem_cons.mp member with rfl | later
    · exact (discover_settles closure first).foldl rest
    · exact ih later

/-- **Looking up one reference**: a chain shorter than that of a new reference would have settled it. -/
theorem Scanning.discover {found : ModuleReference × Discovered}
    {waiting : List (ModuleReference × Discovered)}
    (scanning : Scanning catalog roots length (found :: waiting) closure) :
    Scanning catalog roots length waiting (closure.discover catalog found) := by
  have complete : ∀ reference path, Chain catalog (· ∈ roots) reference path → path.length < length →
      (closure.discover catalog found).Settled reference := fun reference path chain short =>
    (scanning.complete reference path chain short).discover found
  obtain ⟨⟨tells, same⟩, others⟩ := List.forall_mem_cons.mp scanning.waiting
  obtain ⟨reference, discovery⟩ := found
  change discovery.path.length = length at same
  have shortest (fresh : ¬ closure.Settled reference) : Shortest catalog roots reference discovery := by
    refine ⟨tells, fun path chain => ?_⟩
    by_contra shorter
    exact fresh (scanning.complete reference path chain (by omega))
  unfold Closure.discover at complete ⊢
  by_cases resolved : reference ∈ closure.resolved
  · rw [if_pos resolved] at complete ⊢
    exact ⟨scanning.resolved, scanning.missing, complete, others, scanning.next⟩
  rw [if_neg resolved] at complete ⊢
  cases entered : catalog.get reference with
  | none =>
    simp only [entered] at complete ⊢
    by_cases missing : reference ∈ closure.missing
    · rw [if_pos missing] at complete ⊢
      exact ⟨scanning.resolved, scanning.missing, complete, others, scanning.next⟩
    · rw [if_neg missing] at complete ⊢
      refine ⟨scanning.resolved, fun other held looked => ?_, complete, others, scanning.next⟩
      rw [lookup_insert] at looked
      split at looked
      · rename_i same
        cases looked
        exact same ▸ ⟨shortest fun settled => settled.elim resolved missing, entered⟩
      · exact scanning.missing other held looked
  | some entry =>
    simp only [entered] at complete ⊢
    obtain ⟨sameResolved, sameMissing⟩ := foldl_request_resolved reference discovery
      (sortedDependencies entry)
      { closure with resolved := closure.resolved.insert reference discovery }
    refine ⟨fun other held looked => ?_, fun other held looked => ?_, complete, others,
      fun other held looked => ?_⟩
    · rw [sameResolved, lookup_insert] at looked
      split at looked
      · rename_i same
        cases looked
        refine same ▸ shortest fun settled => settled.elim resolved fun missing => ?_
        obtain ⟨kept, found⟩ := exists_lookup_of_mem missing
        have absent := (scanning.missing reference kept found).2
        rw [entered] at absent
        cases absent
      · exact scanning.resolved other held looked
    · rw [sameMissing] at looked
      exact scanning.missing other held looked
    · rcases lookup_foldl_request discovery (sortedDependencies entry) looked with
        before | ⟨member, rfl⟩
      · exact scanning.next other held before
      · refine ⟨tells.push ⟨entry, entered, mem_sortedDependencies.mp member⟩, ?_⟩
        rw [List.length_append, List.length_singleton, same]

theorem Scanning.foldl {found : List (ModuleReference × Discovered)}
    (scanning : Scanning catalog roots length found closure) :
    Scanning catalog roots length [] (found.foldl (Closure.discover catalog) closure) := by
  induction found generalizing closure with
  | nil => exact scanning
  | cons first rest ih => exact ih scanning.discover

/-! ### One round -/

/-- **A round settles the references of one more length.** -/
theorem Level.round (level : Level catalog roots length closure)
    (closing : Closing catalog roots [] closure) :
    Level catalog roots (length + 1) (closure.round catalog) := by
  have scanning : Scanning catalog roots length closure.frontier.toList
      { closure with frontier := ∅ } := by
    refine ⟨level.resolved, level.missing, level.complete, fun found member => ?_,
      fun other held looked => ?_⟩
    · exact level.frontier found.1 found.2 (ExtTreeMap.mem_toList_iff_getElem?_eq_some.mp member)
    · rw [ExtTreeMap.getElem?_empty] at looked
      cases looked
  -- Whatever was known before the round is settled after it.
  have settles : ∀ reference, closure.Known [] reference → (closure.round catalog).Settled reference := by
    have begun : ∀ reference, closure.Settled reference →
        (closure.round catalog).Settled reference := by
      intro reference settled
      have emptied : ({ closure with frontier := ∅ } : Closure).Settled reference := settled
      exact emptied.foldl closure.frontier.toList
    rintro reference (known | known | known | known)
    · exact begun reference (.inl known)
    · exact begun reference (.inr known)
    · refine foldl_settles ?_
      rw [ExtTreeMap.map_fst_toList_eq_keys, ExtTreeMap.mem_keys]
      exact known
    · cases known
  have after := scanning.foldl
  refine ⟨after.resolved, after.missing, fun reference path chain short => ?_, after.next⟩
  rcases chain.pop with ⟨isRoot, _⟩ | ⟨before, front, rfl, earlier, declares⟩
  · exact settles reference (closing.rooted reference isRoot)
  · rw [List.length_append, List.length_singleton] at short
    rcases level.complete before front earlier (by omega) with resolved | missing
    · exact settles reference (closing.closed before resolved reference declares)
    · obtain ⟨held, found⟩ := exists_lookup_of_mem missing
      obtain ⟨entry, entered, _⟩ := declares
      rw [(level.missing before held found).2] at entered
      cases entered

theorem Level.close (level : Level catalog roots length closure)
    (closing : Closing catalog roots [] closure) (rounds : Nat) :
    ∃ more, Level catalog roots more (closure.close catalog rounds) := by
  induction rounds generalizing closure length with
  | zero => exact ⟨length, level⟩
  | succ rounds ih =>
    unfold Closure.close
    split
    · exact ⟨length, level⟩
    · exact ih (level.round closing) closing.round

/-- A root is found by itself. -/
theorem singleton_of_ofRoots {discovery : Discovered}
    (looked : (ofRoots roots).frontier[reference]? = some discovery) :
    ∃ root ∈ roots.toList, root = reference ∧ (⟨none, [root]⟩ : Discovered) = discovery :=
  exists_of_foldl_insert looked

/-- The roots are chains of one reference. -/
theorem level_ofRoots (roots : BTreeSet ModuleReference) : Level catalog roots 1 (ofRoots roots) := by
  refine ⟨fun other held looked => ?_, fun other held looked => ?_, fun other path chain short => ?_,
    fun other held looked => ?_⟩
  · change (∅ : BTreeMap ModuleReference Discovered)[other]? = some held at looked
    rw [ExtTreeMap.getElem?_empty] at looked
    cases looked
  · change (∅ : BTreeMap ModuleReference Discovered)[other]? = some held at looked
    rw [ExtTreeMap.getElem?_empty] at looked
    cases looked
  · have none_ : path = [] := List.length_eq_zero_iff.mp (by omega)
    have ends := chain.ends
    rw [none_] at ends
    cases ends
  · obtain ⟨root, member, rfl, rfl⟩ := singleton_of_ofRoots looked
    refine ⟨⟨⟨⟨root, ExtTreeSet.mem_toList.mp member, rfl⟩, List.isChain_singleton _, rfl⟩, rfl⟩, rfl⟩

/-! ### The whole closure -/

/-- The closure of the roots. -/
def whole (catalog : ModuleCatalog ν) (roots : BTreeSet ModuleReference) : Closure :=
  (ofRoots roots).close catalog (catalog.entries.size + 2)

/-- **At the end exactly the reachable references are settled**, a missing one with a shortest chain. -/
theorem closes (catalog : ModuleCatalog ν) (roots : BTreeSet ModuleReference) :
    (∀ reference, reference ∈ (whole catalog roots).resolved ↔
      Reachable catalog (· ∈ roots) reference ∧ catalog.get reference ≠ none) ∧
    (∀ reference, reference ∈ (whole catalog roots).missing ↔
      Reachable catalog (· ∈ roots) reference ∧ catalog.get reference = none) ∧
    ∀ (reference : ModuleReference) (discovery : Discovered),
      (whole catalog roots).missing[reference]? = some discovery →
        Shortest catalog roots reference discovery := by
  have opening : Closing catalog roots [] (ofRoots roots) := closing_ofRoots roots
  have closing := opening.close (catalog.entries.size + 2)
  obtain ⟨length, level⟩ := (level_ofRoots roots).close opening (catalog.entries.size + 2)
  have done : (whole catalog roots).frontier.isEmpty = true := by
    refine close_done (.inr (Nat.add_le_add_right ?_ 2))
    refine (List.length_filter_le _ _).trans ?_
    rw [ExtTreeMap.length_keys]
  change Closing catalog roots [] (whole catalog roots) at closing
  change Level catalog roots length (whole catalog roots) at level
  have settled : ∀ reference, (whole catalog roots).Known [] reference →
      (whole catalog roots).Settled reference := by
    rintro reference (known | known | known | known)
    · exact .inl known
    · exact .inr known
    · rw [ExtTreeMap.isEmpty_iff.mp done] at known
      exact absurd known ExtTreeMap.not_mem_empty
    · cases known
  have absent : ∀ reference ∈ (whole catalog roots).missing, catalog.get reference = none := by
    intro reference member
    obtain ⟨held, found⟩ := exists_lookup_of_mem member
    exact (level.missing reference held found).2
  have all : ∀ reference, Reachable catalog (· ∈ roots) reference →
      (whole catalog roots).Settled reference := by
    rintro reference ⟨root, isRoot, path⟩
    induction path with
    | refl => exact settled root (closing.rooted root isRoot)
    | tail _ declares ih =>
      rcases ih with resolved | missing
      · exact settled _ (closing.closed _ resolved _ declares)
      · obtain ⟨entry, entered, _⟩ := declares
        rw [absent _ missing] at entered
        cases entered
  refine ⟨fun reference => ⟨fun member => ⟨?_, ?_⟩, fun ⟨reachable, held⟩ => ?_⟩,
    fun reference => ⟨fun member => ⟨?_, absent reference member⟩, fun ⟨reachable, none_⟩ => ?_⟩,
    fun reference discovery found => (level.missing reference discovery found).1⟩
  · obtain ⟨root, isRoot, path⟩ := closing.reached reference (.inl member)
    exact ⟨root, isRoot, path⟩
  · obtain ⟨entry, entered⟩ := closing.found reference member
    rw [entered]
    exact Option.some_ne_none entry
  · exact (all reference reachable).resolve_right fun missing => held (absent reference missing)
  · obtain ⟨held, found⟩ := exists_lookup_of_mem member
    exact (level.missing reference held found).1.chain.reachable
  · refine (all reference reachable).resolve_left fun resolved => ?_
    obtain ⟨entry, entered⟩ := closing.found reference resolved
    rw [none_] at entered
    cases entered

end Closure

end Kernis
