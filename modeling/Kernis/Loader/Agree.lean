/-
**The loader and the composition agree on the module graph.**

The loader orders exact references along the dependencies that the catalog declares; the composition
orders module identities along those that the registrations produce. Where the resolved references have
pairwise distinct identities, the one graph is the other:

* `register_all` — registrations with distinct identities all enter a builder.
* `Loads.needs` — a module needs exactly the identities that its entry declares.
* `resolution_composes` — a resolution composes, and the planned order is one of the references.
-/

import Kernis.Composition.Planned
import Kernis.Loader.Resolve

namespace Kernis

open Std

variable {ν : Type} {catalog : ModuleCatalog ν} {modules : ResolvedModules ν}

/-- **Registrations with distinct identities all enter a builder.** -/
theorem register_all {entries : List (ResolvedEntry ν)} (builder : CompositionBuilder ν)
    (distinct : (entries.map fun entry => entry.registration.definition.id).Nodup)
    (fresh : ∀ entry ∈ entries, entry.registration.definition.id ∉ builder.modules) :
    ∃ built, entries.foldlM (fun (builder : CompositionBuilder ν) entry =>
        builder.register entry.registration) builder = .ok built ∧
      ∀ (moduleId : Id) (registration : ModuleRegistration ν),
        built.modules[moduleId]? = some registration ↔
          builder.modules[moduleId]? = some registration ∨
            ∃ entry ∈ entries, entry.registration = registration ∧
              registration.definition.id = moduleId := by
  induction entries generalizing builder with
  | nil => exact ⟨builder, rfl, by simp⟩
  | cons entry rest ih =>
    obtain ⟨once, distinct⟩ := List.nodup_cons.mp distinct
    obtain ⟨new, fresh⟩ := List.forall_mem_cons.mp fresh
    rw [List.foldlM_cons]
    unfold CompositionBuilder.register
    rw [if_neg new]
    obtain ⟨built, registered, holds⟩ := @ih ⟨builder.modules.insert _ entry.registration, _⟩ distinct
      fun other member inside => by
        rcases (mem_insert_iff _ _ _ _).mp inside with same | before
        · exact once (List.mem_map.mpr ⟨other, member, same⟩)
        · exact fresh other member before
    refine ⟨built, registered, fun moduleId registration => ?_⟩
    rw [holds, lookup_insert]
    by_cases same : entry.registration.definition.id = moduleId
    · subst same
      have absent := lookup_none_of_not_mem new
      rw [if_pos rfl, absent]
      constructor
      · rintro (held | ⟨other, member, held, same⟩)
        · cases held
          exact .inr ⟨entry, List.mem_cons_self, rfl, rfl⟩
        · exact .inr ⟨other, List.mem_cons_of_mem _ member, held, same⟩
      · rintro (held | ⟨other, member, held, same⟩)
        · cases held
        · rcases List.mem_cons.mp member with rfl | inside
          · exact .inl (congrArg some held)
          · exact .inr ⟨other, inside, held, same⟩
    · rw [if_neg same]
      refine or_congr_right ⟨?_, ?_⟩
      · rintro ⟨other, member, held, named⟩
        exact ⟨other, List.mem_cons_of_mem _ member, held, named⟩
      · rintro ⟨other, member, held, named⟩
        rcases List.mem_cons.mp member with rfl | inside
        · exact absurd (held ▸ named) same
        · exact ⟨other, inside, held, named⟩

namespace Loads

/-- The resolved references have one identity each. -/
theorem same_of_id (distinct : (modules.references.map ModuleReference.id).Nodup)
    {reference other : ModuleReference} (member : reference ∈ modules.references)
    (inside : other ∈ modules.references) (same : reference.id = other.id) : reference = other :=
  List.inj_on_of_nodup_map distinct member inside same

/-- **A resolution with distinct identities enters a builder**, every reference under its identity. -/
theorem intoCompositionBuilder (loads : Loads catalog modules)
    (distinct : (modules.references.map ModuleReference.id).Nodup) :
    ∃ builder, modules.intoCompositionBuilder = .ok builder ∧
      ∀ (moduleId : Id) (registration : ModuleRegistration ν),
        builder.modules[moduleId]? = some registration ↔
          ∃ entry ∈ modules.entries, entry.registration = registration ∧
            entry.reference.id = moduleId := by
  have identities : modules.entries.map (fun entry => entry.registration.definition.id) =
      modules.references.map ModuleReference.id := by
    unfold ResolvedModules.references
    rw [List.map_map]
    refine List.map_congr_left fun entry member => ?_
    obtain ⟨_, _, same, _⟩ := loads.answered entry member
    exact same
  obtain ⟨builder, built, holds⟩ := register_all .new (identities ▸ distinct)
    fun _ _ => ExtTreeMap.not_mem_empty
  refine ⟨builder, built, fun moduleId registration => ?_⟩
  rw [holds]
  constructor
  · rintro (held | ⟨entry, member, rfl, named⟩)
    · simp [CompositionBuilder.new] at held
    · obtain ⟨_, _, same, _⟩ := loads.answered entry member
      exact ⟨entry, member, rfl, same.symm.trans named⟩
  · rintro ⟨entry, member, rfl, named⟩
    obtain ⟨_, _, same, _⟩ := loads.answered entry member
    exact .inr ⟨entry, member, rfl, same.trans named⟩

/-- A rank of the references is one of their identities. -/
theorem exists_rank (distinct : (modules.references.map ModuleReference.id).Nodup)
    (rank : ModuleReference → Nat) :
    ∃ ofId : Id → Nat, ∀ reference ∈ modules.references, ofId reference.id = rank reference := by
  refine ⟨fun moduleId => ((modules.references.find? fun reference =>
    reference.id = moduleId).map rank).getD 0, fun reference member => ?_⟩
  cases looked : modules.references.find? fun other => other.id = reference.id with
  | none => exact absurd (decide_eq_true rfl) (List.find?_eq_none.mp looked reference member)
  | some other =>
    have same := List.find?_some looked
    rw [decide_eq_true_iff] at same
    simp only [looked, Option.map_some, Option.getD_some]
    rw [same_of_id distinct (List.mem_of_find?_eq_some looked) member same]

section Builder

variable {builder : CompositionBuilder ν}
  (holds : ∀ (moduleId : Id) (registration : ModuleRegistration ν),
    builder.modules[moduleId]? = some registration ↔
      ∃ entry ∈ modules.entries, entry.registration = registration ∧ entry.reference.id = moduleId)

include holds

theorem mem_modules {moduleId : Id} :
    moduleId ∈ builder.modules ↔ ∃ reference ∈ modules.references, reference.id = moduleId := by
  unfold ResolvedModules.references
  constructor
  · intro member
    obtain ⟨registration, found⟩ := exists_lookup_of_mem member
    obtain ⟨entry, inside, _, named⟩ := (holds _ _).mp found
    exact ⟨_, List.mem_map_of_mem inside, named⟩
  · rintro ⟨reference, member, named⟩
    obtain ⟨entry, inside, rfl⟩ := List.mem_map.mp member
    exact mem_of_lookup ((holds _ _).mpr ⟨entry, inside, rfl, named⟩)

/-- **A module needs exactly the identities that its entry declares.** -/
theorem needs (loads : Loads catalog modules)
    (distinct : (modules.references.map ModuleReference.id).Nodup) {reference : ModuleReference}
    (member : reference ∈ modules.references) {dependency : Id} :
    dependency ∈ Counting.needs (dependencySets builder.modules) reference.id ↔
      ∃ declared, catalog.Declares reference declared ∧ declared.id = dependency := by
  rw [mem_needs]
  obtain ⟨entry, listed, rfl⟩ := List.mem_map.mp member
  constructor
  · rintro ⟨registration, found, inside⟩
    obtain ⟨other, elsewhere, rfl, named⟩ := (holds _ _).mp found
    have same := same_of_id distinct (List.mem_map_of_mem elsewhere) member named
    obtain ⟨held, looked, _, produces⟩ := loads.answered other elsewhere
    obtain ⟨declared, there, id⟩ := List.mem_map.mp ((produces dependency).mp inside)
    exact ⟨declared, ⟨held, same ▸ looked, there⟩, id⟩
  · rintro ⟨declared, ⟨held, looked, there⟩, rfl⟩
    obtain ⟨held', looked', _, produces⟩ := loads.answered entry listed
    rw [looked, Option.some.injEq] at looked'
    subst looked'
    exact ⟨entry.registration, (holds _ _).mpr ⟨entry, listed, rfl, rfl⟩,
      (produces declared.id).mpr (List.mem_map_of_mem there)⟩

theorem dependencies_ok (loads : Loads catalog modules)
    (distinct : (modules.references.map ModuleReference.id).Nodup) :
    validateModuleDependencies builder.modules = .ok () := by
  refine validateModuleDependencies_ok.mpr fun moduleId registration found dependency inside => ?_
  obtain ⟨reference, member, rfl⟩ := (mem_modules holds).mp (mem_of_lookup found)
  obtain ⟨declared, declares, rfl⟩ := (loads.needs holds distinct member).mp
    (mem_needs.mpr ⟨registration, found, inside⟩)
  exact (mem_modules holds).mpr ⟨declared, loads.closed reference member declared declares, rfl⟩

theorem order_ok (loads : Loads catalog modules)
    (distinct : (modules.references.map ModuleReference.id).Nodup) :
    deterministicOrder builder.modules =
      .ok (Counting.order (dependencySets builder.modules)) := by
  obtain ⟨rank, descends⟩ := loads.ranked
  obtain ⟨ofId, ranked⟩ := exists_rank distinct rank
  refine deterministicOrder_of_rank (dependencies_ok holds loads distinct) ofId
    fun moduleId dependency inside => ?_
  have known : moduleId ∈ builder.modules := mem_dependencySets.mp (Counting.mem_of_needs inside)
  obtain ⟨reference, member, rfl⟩ := (mem_modules holds).mp known
  obtain ⟨declared, declares, rfl⟩ := (loads.needs holds distinct member).mp inside
  rw [ranked reference member,
    ranked declared (loads.closed reference member declared declares)]
  exact descends reference member declared declares

end Builder

end Loads

/-! ### The order of the references -/

/-- Every reference comes after those that its entry declares. -/
def ModuleCatalog.Sorted (catalog : ModuleCatalog ν) (order : List ModuleReference) : Prop :=
  ∀ front reference back, order = front ++ reference :: back →
    ∀ dependency, catalog.Declares reference dependency → dependency ∈ front

/-- A list of identities of references is read through references. -/
theorem exists_references (references : List ModuleReference) (ids : List Id)
    (known : ∀ id ∈ ids, ∃ reference ∈ references, reference.id = id) :
    ∃ order : List ModuleReference, ids = order.map ModuleReference.id ∧ ∀ reference ∈ order, reference ∈ references := by
  induction ids with
  | nil => exact ⟨[], rfl, by simp⟩
  | cons id rest ih =>
    obtain ⟨first, others⟩ := List.forall_mem_cons.mp known
    obtain ⟨reference, member, rfl⟩ := first
    obtain ⟨order, rfl, inside⟩ := ih others
    exact ⟨reference :: order, rfl, List.forall_mem_cons.mpr ⟨member, inside⟩⟩

/-- **A resolution composes**: where the resolved identities are pairwise distinct, the registrations
enter a builder, planning never refuses the module graph, and the planned order, read through the
references, is a topological order of the declared dependencies. -/
theorem resolution_composes {roots : List ModuleReference}
    (resolves : catalog.resolve roots = .ok modules)
    (distinct : (modules.references.map ModuleReference.id).Nodup) :
    ∃ builder, modules.intoCompositionBuilder = .ok builder ∧
      (∀ moduleId dependencyId,
        builder.build ≠ .error (.missingModuleDependency moduleId dependencyId)) ∧
      (∀ cycle, builder.build ≠ .error (.moduleDependencyCycle cycle)) ∧
      ∀ plan, builder.build = .ok plan → ∃ order : List ModuleReference,
        plan.order = order.map ModuleReference.id ∧ order.Perm modules.references ∧
          catalog.Sorted order := by
  have loads := loads_of_resolve resolves
  obtain ⟨builder, built, holds⟩ := loads.intoCompositionBuilder distinct
  have closed := Loads.dependencies_ok holds loads distinct
  have ordered := Loads.order_ok holds loads distinct
  refine ⟨builder, built, fun moduleId dependencyId failed => ?_, fun cycle failed => ?_,
    fun plan planned => ?_⟩
  · cases onGraph_of_build closed ordered failed
  · cases onGraph_of_build closed ordered failed
  · obtain ⟨same, length⟩ := deterministicOrder_ok.mp (plans_iff.mp planned).order
    have size : builder.modules.size = (dependencySets builder.modules).size :=
      ExtTreeMap.size_map.symm
    have complete : ∀ moduleId ∈ builder.modules, moduleId ∈ plan.order := by
      rw [same, size] at length
      intro moduleId member
      exact same ▸ Counting.length_order_iff.mp length moduleId (mem_dependencySets.mpr member)
    obtain ⟨order, named, inside⟩ := exists_references modules.references
      plan.order fun moduleId member => (Loads.mem_modules holds).mp
        (mem_dependencySets.mp (Counting.mem_of_order (same ▸ member)))
    have once : (order.map ModuleReference.id).Nodup := named ▸ same ▸ Counting.order_nodup
    refine ⟨order, named, ?_, ?_⟩
    · refine (List.perm_ext_iff_of_nodup once.of_map loads.distinct).mpr fun reference =>
        ⟨inside reference, fun member => ?_⟩
      have listed := complete reference.id ((Loads.mem_modules holds).mpr ⟨reference, member, rfl⟩)
      rw [named] at listed
      obtain ⟨other, there, id⟩ := List.mem_map.mp listed
      exact Loads.same_of_id distinct (inside other there) member id ▸ there
    · intro front reference back split dependency declares
      have member := inside reference (split ▸ List.mem_append_right _ List.mem_cons_self)
      have needed : dependency.id ∈ Counting.needs (dependencySets builder.modules) reference.id :=
        (loads.needs holds distinct member).mpr ⟨dependency, declares, rfl⟩
      have mapped : Counting.order (dependencySets builder.modules) =
          front.map ModuleReference.id ++ reference.id :: back.map ModuleReference.id := by
        rw [← same, named, split, List.map_append, List.map_cons]
      have early := Counting.order_ordered _ _ _ mapped dependency.id needed
      obtain ⟨other, there, id⟩ := List.mem_map.mp early
      have known := inside other (split ▸ List.mem_append_left _ there)
      exact Loads.same_of_id distinct known
        (loads.closed reference member dependency declares) id ▸ there

/-! ### Two modules, one above the other -/

/-- A reference at the first version. -/
def sampleReference (name : NonBlank) : ModuleReference :=
  ⟨⟨name⟩, ⟨"1".toList, by decide, by decide⟩⟩

/-- A library module. -/
def sampleLibrary : ModuleReference := sampleReference ⟨"library".toList, by decide⟩

/-- A module that depends on it. -/
def sampleApp : ModuleReference := sampleReference ⟨"app".toList, by decide⟩

/-- A module with nothing but dependencies. -/
def bareModule (id : Id) (dependencies : List Id) : ModuleRegistration Unit :=
  ⟨⟨id, dependencies, [], [], []⟩, [], [], false, false⟩

/-- The two modules in a catalog. -/
def sampleCatalog : Except LoaderError (ModuleCatalog Unit) := do
  let catalog ← ModuleCatalog.new.register
    ⟨sampleLibrary, [], .ok (bareModule sampleLibrary.id [])⟩
  catalog.register ⟨sampleApp, [sampleLibrary], .ok (bareModule sampleApp.id [sampleLibrary.id])⟩

/-- The module above is planned after the module below. -/
theorem resolution_composes_library : ∃ catalog modules builder,
    sampleCatalog = .ok catalog ∧ catalog.resolve [sampleApp] = .ok modules ∧
      modules.intoCompositionBuilder = .ok builder ∧
      ∀ plan, builder.build = .ok plan → ∃ order : List ModuleReference,
        plan.order = order.map ModuleReference.id ∧ order.Perm modules.references ∧
          catalog.Sorted order := by
  have evaluated : sampleCatalog.toOption.any (fun catalog =>
      (catalog.resolve [sampleApp]).toOption.any fun modules =>
        decide (modules.references.map ModuleReference.id).Nodup) = true := by
    decide +kernel
  obtain ⟨catalog, made, resolved⟩ := exists_ok_of_any evaluated
  obtain ⟨modules, resolves, distinct⟩ := exists_ok_of_any resolved
  obtain ⟨builder, built, _, _, sorted⟩ := resolution_composes resolves (of_decide_eq_true distinct)
  exact ⟨catalog, modules, builder, made, resolves, built, sorted⟩

end Kernis
