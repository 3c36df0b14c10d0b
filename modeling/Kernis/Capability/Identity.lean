/-
**The identity of publications.**

A withdrawal and a replacement name a generation. Generations advance with every replacement, but a
new publication starts them again: they name one entry as long as no slot is provided twice.

* `Aims` — the calls that name the identifier and the generation of a handle.
* `Exact` — such a call changes the scope only while its entry is the one of the handle.
* `Numbered`, `Counted` — the generations of a slot that is provided once are those of its entries in
  order.
* `exact_iff` — a run is exact throughout if and only if it provides no slot twice.
-/

import Kernis.Capability.Sound

namespace Kernis

open Std

namespace ScopeTree

variable {ν : Type} {tree next : ScopeTree ν}

/-! ### Exactness -/

/-- The calls on a scope that name the identifier and the generation of a handle: its withdrawal, by
a fiber that unloads too, its replacement, and the rest of a replacement that has begun. -/
inductive Aims (tree : ScopeTree ν) (scope : Nat) (handle : CapabilityHandle ν) :
    List (ScopeCall ν) → Prop
  | withdraw : Aims tree scope handle [.withdraw scope handle.definition.id handle.generation]
  | replace (definition : CapabilityDefinition) (result : Except Text ν)
      (same : definition.id = handle.definition.id) :
      Aims tree scope handle [.publish scope definition (.replace handle.generation),
        .constructed tree.pending.length result]
  | replaced (publication : Nat) (begun : Publication ν) (result : Except Text ν)
      (found : tree.pending[publication]? = some (some begun)) (here : begun.scope = scope)
      (same : begun.definition.id = handle.definition.id)
      (expected : begun.expectation = .replace handle.generation) :
      Aims tree scope handle [.constructed publication result]

/-- **A holder of a handle changes the scope only while its entry is the one of the handle.** -/
def Exact (tree : ScopeTree ν) : Prop :=
  ∀ scope handle, (scope, handle) ∈ tree.published → ∀ calls, tree.Aims scope handle calls →
    (tree.run calls).topology.level scope ≠ tree.topology.level scope →
      ∃ entry, (tree.topology.level scope).entries[handle.definition.id]? = some entry ∧
        entry.entryId = handle.entryId

/-- The current entry of a slot is the only one that was published there with its generation. -/
def Current (tree : ScopeTree ν) : Prop :=
  ∀ scope handle, (scope, handle) ∈ tree.published → ∀ entry,
    (tree.topology.level scope).entries[handle.definition.id]? = some entry →
      entry.generation = handle.generation → entry.entryId = handle.entryId

/-- A replacement that changes its scope replaces an entry of the generation it names. -/
theorem Sound.replaces (sound : Sound tree) {publication : Nat} {begun : Publication ν}
    {result : Except Text ν} {expected : Nat}
    (found : tree.pending[publication]? = some (some begun))
    (replaces : begun.expectation = .replace expected)
    (changed : (tree.step (.constructed publication result)).2.topology.level begun.scope ≠
      tree.topology.level begun.scope) :
    ∃ entry, (tree.topology.level begun.scope).entries[begun.definition.id]? = some entry ∧
      entry.generation = expected := by
  rcases sound.constructed_cases publication result with
    ⟨same, _⟩ | ⟨other, value, generation, _, installs⟩
  · rw [same] at changed
    exact absurd rfl changed
  · have equal := installs.found
    rw [found] at equal
    cases equal
    have allocated := (allocates_of_admitted installs.admitted).2
    rw [replaces] at allocated
    cases allocated with
    | next held => exact ⟨_, held, rfl⟩

theorem Sound.exact (sound : Sound tree) (current : Current tree) : Exact tree := by
  intro scope handle published calls aims changed
  cases aims with
  | withdraw =>
    unfold ScopeTree.run at changed
    simp only [List.foldl_cons, List.foldl_nil, ScopeTree.step, locked] at changed
    split at changed
    · exact absurd rfl changed
    · split at changed
      · exact absurd rfl changed
      · unfold ScopeTree.withdraw Topology.withdrawable at changed
        split at changed
        · exact absurd rfl changed
        · rename_i entry found
          split at found
          · cases found
          · split at found
            · cases found
            · rename_i held
              split at found
              · cases found
              · rename_i same
                exact ⟨_, held, current scope handle published _ held (not_not.mp same)⟩
  | replaced publication begun result found here same expected =>
    subst here
    obtain ⟨entry, held, generation⟩ := sound.replaces found expected changed
    rw [same] at held
    exact ⟨entry, held, current begun.scope handle published entry held generation⟩
  | replace definition result same =>
    have after := sound.step (.publish scope definition (.replace handle.generation))
    have shape : (tree.step (.publish scope definition (.replace handle.generation))).2.topology =
          tree.topology ∧
        ((tree.step (.publish scope definition (.replace handle.generation))).2.pending =
          tree.pending ∨ ∃ dependencies,
        (tree.step (.publish scope definition (.replace handle.generation))).2.pending =
          tree.pending ++ [some ⟨scope, definition, .replace handle.generation, dependencies,
            false⟩]) := by
      simp only [ScopeTree.step, locked]
      split
      · exact ⟨rfl, .inl rfl⟩
      · split
        · exact ⟨rfl, .inl rfl⟩
        · split
          · exact ⟨rfl, .inl rfl⟩
          · exact ⟨rfl, .inr ⟨_, rfl⟩⟩
    unfold ScopeTree.run at changed
    simp only [List.foldl_cons, List.foldl_nil] at changed
    generalize (tree.step (.publish scope definition (.replace handle.generation))).2 = begunTree
      at after shape changed
    obtain ⟨topology, pending⟩ := shape
    rw [← topology] at changed ⊢
    rcases pending with none | ⟨dependencies, begun⟩
    · rcases after.constructed_cases tree.pending.length result with
        ⟨kept, _⟩ | ⟨other, value, generation, _, installs⟩
      · rw [kept] at changed
        exact absurd rfl changed
      · have found := installs.found
        rw [none, List.getElem?_eq_none (Nat.le_refl _)] at found
        cases found
    · have found : begunTree.pending[tree.pending.length]? = some (some
          ⟨scope, definition, .replace handle.generation, dependencies, false⟩) := by
        rw [begun, List.getElem?_append_right (Nat.le_refl _), Nat.sub_self]
        rfl
      obtain ⟨entry, held, generation⟩ := after.replaces found rfl changed
      rw [same, topology] at held
      rw [topology]
      exact ⟨entry, held, current scope handle published entry held generation⟩

/-! ### Generations -/

/-- **A change publishes one entry, or it only loses entries.** -/
theorem Evolves.publishes (evolves : tree.Evolves next) :
    (next.published = tree.published ∧ next.provided = tree.provided ∧
      ∀ (scope : Nat) (id : Id) (entry : CapabilityHandle ν),
        (next.topology.level scope).entries[id]? = some entry →
        (tree.topology.level scope).entries[id]? = some entry) ∨
    ∃ scope expectation handle, next.topology = tree.topology.install scope handle ∧
      Allocates (tree.topology.level scope).entries handle.definition.id expectation
        handle.generation ∧
      next.published = tree.published ++ [(scope, handle)] ∧
      next.provided = tree.provided ++ providedBy scope handle.definition.id expectation := by
  cases evolves with
  | withdrawn scope capability expected entry live found =>
    exact .inl ⟨rfl, rfl, fun _ _ _ held => Topology.entries_remove held⟩
  | retains retains =>
    cases retains with
    | noted pending nextEntryId poisoned kept onward => exact .inl ⟨rfl, rfl, fun _ _ _ held => held⟩
    | began begun live resolved isNew => exact .inl ⟨rfl, rfl, fun _ _ _ held => held⟩
    | grown scope live =>
      refine .inl ⟨rfl, rfl, fun other id entry held => ?_⟩
      by_cases fresh : other = tree.topology.scopes.length
      · subst fresh
        rw [Topology.level_child_self] at held
        simp at held
      · rw [Topology.level_child_ne fresh] at held
        exact held
    | installed begun pending generation value live member kept admitted =>
      exact .inr ⟨begun.scope, begun.expectation, _, rfl, (allocates_of_admitted admitted).2, rfl, rfl⟩
    | emptied scope lifecycle closes below =>
      refine .inl ⟨rfl, rfl, fun other id entry held => ?_⟩
      rcases Topology.level_empty_or scope other lifecycle with same | ⟨_, nothing⟩
      · rw [same] at held
        exact held
      · rw [nothing, ExtTreeMap.getElem?_empty] at held
        cases held
    | released scope live releasable =>
      refine .inl ⟨rfl, rfl, fun other id entry held => ?_⟩
      rw [Topology.level_release] at held
      exact held

/-- The slots of the publications. -/
structure Numbered (tree : ScopeTree ν) : Prop where
  provided : ∀ publication ∈ tree.published,
    (publication.1, publication.2.definition.id) ∈ tree.provided
  first : ∀ slot ∈ tree.provided, ∃ handle, (slot.1, handle) ∈ tree.published ∧
    handle.definition.id = slot.2 ∧ handle.generation = 1

theorem numbered_root : Numbered (root : ScopeTree ν) where
  provided _ member := by cases member
  first _ member := by cases member

theorem Numbered.evolves (sound : Sound tree) (numbered : Numbered tree)
    (evolves : tree.Evolves next) : Numbered next := by
  rcases evolves.publishes with ⟨published, provided, _⟩ |
    ⟨scope, expectation, handle, _, allocates, published, provided⟩
  · refine ⟨?_, ?_⟩
    · rw [published, provided]
      exact numbered.provided
    · rw [published, provided]
      exact numbered.first
  · refine ⟨fun publication member => ?_, fun slot member => ?_⟩
    · rw [published] at member
      rw [provided]
      rcases List.mem_append.mp member with old | new
      · exact List.mem_append_left _ (numbered.provided publication old)
      · cases List.mem_singleton.mp new
        generalize handle.generation = generation at allocates
        cases allocates with
        | first vacant => exact List.mem_append_right _ (List.mem_singleton_self _)
        | next held =>
          obtain ⟨named, known⟩ := sound.recorded scope _ _ held
          rw [← named]
          exact List.mem_append_left _ (numbered.provided _ known)
    · rw [provided] at member
      rw [published]
      rcases List.mem_append.mp member with old | new
      · obtain ⟨other, known, named⟩ := numbered.first slot old
        exact ⟨other, List.mem_append_left _ known, named⟩
      · generalize generation_eq : handle.generation = generation at allocates
        cases allocates with
        | first vacant =>
          cases List.mem_singleton.mp new
          exact ⟨handle, List.mem_append_right _ (List.mem_singleton_self _), rfl, generation_eq⟩
        | next held => cases new

/-- **The generations of the slots that are provided once.** -/
structure Counted (tree : ScopeTree ν) : Prop where
  latest : ∀ publication ∈ tree.published, ∀ entry,
    (tree.topology.level publication.1).entries[publication.2.definition.id]? = some entry →
      publication.2.generation ≤ entry.generation
  unique : ∀ first ∈ tree.published, ∀ second ∈ tree.published, first.1 = second.1 →
    first.2.definition.id = second.2.definition.id → first.2.generation = second.2.generation →
      first.2.entryId = second.2.entryId

theorem counted_root : Counted (root : ScopeTree ν) where
  latest _ member := by cases member
  unique _ member := by cases member

/-- The generation of an installed entry is above those that were published in its slot. -/
theorem Counted.above (numbered : Numbered tree) (counted : Counted tree) {scope : Nat}
    {expectation : PublishExpectation} {id : Id} {generation : Nat}
    (allocates : Allocates (tree.topology.level scope).entries id expectation generation)
    (once : (tree.provided ++ providedBy scope id expectation).Nodup)
    {handle : CapabilityHandle ν} (member : (scope, handle) ∈ tree.published)
    (named : handle.definition.id = id) : handle.generation < generation := by
  subst named
  cases allocates with
  | first vacant =>
    rw [providedBy, List.nodup_append] at once
    exact absurd rfl (once.2.2 _ (numbered.provided _ member) _ (List.mem_singleton_self _))
  | next held => exact Nat.lt_succ_of_le (counted.latest _ member _ held)

theorem Counted.evolves (numbered : Numbered tree) (counted : Counted tree)
    (evolves : tree.Evolves next) (once : next.provided.Nodup) : Counted next := by
  rcases evolves.publishes with ⟨published, provided, fewer⟩ |
    ⟨scope, expectation, handle, topology, allocates, published, provided⟩
  · refine ⟨fun publication member entry held => ?_, ?_⟩
    · rw [published] at member
      exact counted.latest publication member entry (fewer _ _ _ held)
    · rw [published]
      exact counted.unique
  · rw [provided] at once
    have above {other : CapabilityHandle ν} (member : (scope, other) ∈ tree.published)
        (named : other.definition.id = handle.definition.id) :=
      counted.above numbered allocates once member named
    refine ⟨fun publication member entry held => ?_, fun first inside second member here same
      generation => ?_⟩
    · rw [topology] at held
      rw [published] at member
      rcases List.mem_append.mp member with old | new
      · rcases Topology.entries_install held with ⟨here, named, rfl⟩ | before
        · obtain ⟨holder, other⟩ := publication
          cases here
          exact Nat.le_of_lt (above old named)
        · exact counted.latest publication old entry before
      · cases List.mem_singleton.mp new
        exact Nat.le_of_eq (by rw [Topology.entry_install held])
    · rw [published] at inside member
      rcases List.mem_append.mp inside with old | new
      · rcases List.mem_append.mp member with older | newer
        · exact counted.unique first old second older here same generation
        · cases List.mem_singleton.mp newer
          obtain ⟨holder, other⟩ := first
          cases here
          have := above old same
          simp only at generation
          omega
      · cases List.mem_singleton.mp new
        rcases List.mem_append.mp member with older | newer
        · obtain ⟨holder, other⟩ := second
          cases here
          have := above older same.symm
          simp only at generation
          omega
        · cases List.mem_singleton.mp newer
          rfl

/-! ### Runs -/

theorem Evolves.provided_grows (evolves : tree.Evolves next) : tree.provided <+: next.provided := by
  rcases evolves.publishes with ⟨_, same, _⟩ | ⟨_, _, _, _, _, _, more⟩
  · exact same ▸ List.prefix_rfl
  · exact more ▸ List.prefix_append _ _

/-- **What a run knows of its publications.** -/
structure Historical (tree : ScopeTree ν) : Prop where
  sound : Sound tree
  numbered : Numbered tree
  counted : tree.provided.Nodup → Counted tree

theorem historical_root : Historical (root : ScopeTree ν) :=
  ⟨sound_root, numbered_root, fun _ => counted_root⟩

theorem Historical.reaches (historical : Historical tree) (reaches : tree.Reaches next) :
    Historical next := by
  induction reaches with
  | refl => exact historical
  | tail _ evolves ih =>
    exact ⟨ih.sound.evolves evolves, ih.numbered.evolves ih.sound evolves, fun once =>
      (ih.counted (once.sublist evolves.provided_grows.sublist)).evolves ih.numbered evolves once⟩

theorem Historical.step (historical : Historical tree) (call : ScopeCall ν) :
    Historical (tree.step call).2 :=
  historical.reaches (step_reaches historical.sound.grounded historical.sound.loads call)

theorem Historical.run (historical : Historical tree) (calls : List (ScopeCall ν)) :
    Historical (tree.run calls) := by
  induction calls generalizing tree with
  | nil => exact historical
  | cons call rest ih => exact ih (historical.step call)

/-- As long as every slot is provided once, a generation names one entry. -/
theorem Historical.exact (historical : Historical tree) (once : tree.provided.Nodup) :
    Exact tree := by
  refine historical.sound.exact fun scope handle member entry held same => ?_
  obtain ⟨named, known⟩ := historical.sound.recorded scope _ entry held
  exact (historical.counted once).unique (scope, entry) known (scope, handle) member rfl named same

theorem step_provided_grows (historical : Historical tree) (call : ScopeCall ν) :
    tree.provided <+: (tree.step call).2.provided := by
  have reaches := step_reaches historical.sound.grounded historical.sound.loads call
  generalize (tree.step call).2 = next at reaches ⊢
  induction reaches with
  | refl => exact List.prefix_rfl
  | tail _ evolves ih => exact List.IsPrefix.trans ih evolves.provided_grows

theorem run_provided_grows (historical : Historical tree) (calls : List (ScopeCall ν)) :
    tree.provided <+: (tree.run calls).provided := by
  induction calls generalizing tree with
  | nil => exact List.prefix_rfl
  | cons call rest ih =>
    exact List.IsPrefix.trans (step_provided_grows historical call) (ih (historical.step call))

theorem run_append (tree : ScopeTree ν) (first second : List (ScopeCall ν)) :
    tree.run (first ++ second) = (tree.run first).run second :=
  List.foldl_append

/-- A withdrawal that names the generation of the current entry removes it. -/
theorem step_withdraw {scope : Nat} {id : Id} {entry : CapabilityHandle ν}
    (live : tree.topology.live scope) (unpoisoned : tree.poisoned = false)
    (isOpen : (tree.topology.level scope).isOpen)
    (held : (tree.topology.level scope).entries[id]? = some entry) :
    tree.step (.withdraw scope id entry.generation) =
      (.withdrawn entry, { tree with topology := tree.topology.remove scope id }) := by
  have found : tree.topology.withdrawable scope id entry.generation = .ok entry := by
    unfold Topology.withdrawable
    rw [if_neg (not_not.mpr isOpen), held]
    exact if_neg (not_not.mpr rfl)
  simp only [ScopeTree.step, locked, ScopeTree.withdraw, live, unpoisoned, found]
  rfl

/-- A current entry is withdrawn by whoever names its generation. -/
theorem Exact.holds (exact : Exact tree) {scope : Nat} {handle entry : CapabilityHandle ν}
    (published : (scope, handle) ∈ tree.published) (live : tree.topology.live scope)
    (unpoisoned : tree.poisoned = false) (isOpen : (tree.topology.level scope).isOpen)
    (held : (tree.topology.level scope).entries[handle.definition.id]? = some entry)
    (same : entry.generation = handle.generation) : entry.entryId = handle.entryId := by
  have withdrawn := step_withdraw live unpoisoned isOpen held
  rw [same] at withdrawn
  obtain ⟨current, found, equal⟩ := exact scope handle published _ .withdraw fun kept => by
    unfold ScopeTree.run at kept
    rw [List.foldl_cons, List.foldl_nil, withdrawn] at kept
    rw [← kept, Topology.entry_removed] at held
    cases held
  rw [held] at found
  cases found
  exact equal

/-- **A slot that is provided again is at the mercy of its first holder.** -/
theorem Historical.once (historical : Historical tree) (once : tree.provided.Nodup)
    (call : ScopeCall ν) (exact : Exact (tree.step call).2) :
    (tree.step call).2.provided.Nodup := by
  rcases historical.sound.step_published call with
    silent | ⟨publication, begun, value, generation, rfl, installs⟩
  · rw [silent.provided]
    exact once
  · rw [installs.result] at exact ⊢
    have allocates := (allocates_of_admitted installs.admitted).2
    show (tree.provided ++ providedBy begun.scope begun.definition.id begun.expectation).Nodup
    generalize begun.expectation = expectation at allocates exact ⊢
    cases allocates with
    | next held =>
      rw [providedBy, List.append_nil]
      exact once
    | first vacant =>
      refine List.nodup_append.mpr ⟨once, List.nodup_singleton _, fun slot before last new same => ?_⟩
      rw [List.mem_singleton.mp new] at same
      subst same
      obtain ⟨first, known, named, generation⟩ := historical.numbered.first _ before
      -- the new entry has the generation of the first one, and another identity
      have held := tree.topology.entry_installed installs.live
        ⟨begun.definition, value, begun.dependencies, 1, tree.nextEntryId⟩
      have equal := exact.holds (List.mem_append_left _ known)
        ((tree.topology.sameShape_install _ _).live begun.scope ▸ installs.live)
        installs.unpoisoned
        ((tree.topology.isOpen_install _ _ _).trans (isOpen_of_admitted installs.admitted))
        (by rw [named]; exact held) generation.symm
      have bound : first.entryId < tree.nextEntryId := historical.sound.bounded _ known
      have fresh : tree.nextEntryId = first.entryId := equal
      omega

/-- **A run is exact throughout if and only if it provides no slot twice.** -/
theorem exact_iff (calls : List (ScopeCall ν)) :
    (∀ count, Exact ((root : ScopeTree ν).run (calls.take count))) ↔
      ((root : ScopeTree ν).run calls).provided.Nodup := by
  constructor
  · intro exact
    have each : ∀ count, ((root : ScopeTree ν).run (calls.take count)).provided.Nodup := by
      intro count
      induction count with
      | zero => exact List.nodup_nil
      | succ count ih =>
        by_cases inside : count < calls.length
        · have split : calls.take (count + 1) = calls.take count ++ [calls[count]] :=
            List.take_succ_eq_append_getElem inside
          have after := exact (count + 1)
          rw [split, run_append] at after ⊢
          exact (historical_root.run _).once ih _ after
        · rw [List.take_of_length_le (by omega)] at ih ⊢
          exact ih
    have last := each calls.length
    rwa [List.take_length] at last
  · intro once count
    have before := historical_root.run (calls.take count)
    refine before.exact (once.sublist ?_)
    rw [← List.take_append_drop count calls, run_append, List.take_append_drop count calls]
    exact (run_provided_grows before _).sublist

/-- A capability is provided, withdrawn, and provided again. -/
def returned : List (ScopeCall Unit) :=
  [.publish 0 (sampleDefinition sampleA []) .new, .constructed 0 (.ok ()), .withdraw 0 sampleA 1,
    .publish 0 (sampleDefinition sampleA []) .new, .constructed 1 (.ok ())]

/-- The handle of a publication of the sample. -/
def returnedHandle (entryId : Nat) : CapabilityHandle Unit :=
  ⟨sampleDefinition sampleA [], (), [], 1, entryId⟩

/-- **The first publisher can withdraw the second publication.** -/
theorem returned_not_exact : ¬ ∀ calls : List (ScopeCall Unit), Exact ((root : ScopeTree Unit).run calls) := by
  intro all
  have published : (0, returnedHandle 1) ∈ ((root : ScopeTree Unit).run returned).published :=
    List.mem_of_getElem? (show _[0]? = _ from rfl)
  have equal := (all returned).holds published rfl rfl rfl
    (show _ = some (returnedHandle 2) from rfl) rfl
  cases equal

end ScopeTree

end Kernis
