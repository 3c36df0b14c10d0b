/-
**What planning establishes about slots.**

* `claimBy_claims` — claimed keys are distinct, and every claim is that of a contribution.
* `Plans.declared_iff` — the merged definition declares the declaratively owned slots.
* `Plans.validates` — it is valid and materializes nothing, and every declaration has a factory.
* `Plans.plugin_slots` — the plugins are distinct, and each publishes into a reactively owned slot of its
  own.
-/

import Kernis.Composition.Planned
import Kernis.Runtime.Validated

namespace Kernis

open Std

variable {ν : Type} {modules : BTreeMap Id (ModuleRegistration ν)}

/-! ### Claims -/

/-- **What was claimed**: keys that are new and distinct, each with its claim. -/
structure Claims {γ δ : Type} (key : γ → Id) (claim : Id → γ → δ) (claims : BTreeMap Id δ)
    (contributions : List (Id × γ)) (result : BTreeMap Id δ) : Prop where
  distinct : (contributions.map fun entry => key entry.2).Nodup
  fresh : ∀ entry ∈ contributions, key entry.2 ∉ claims
  lookup : ∀ (id : Id) (value : δ), result[id]? = some value ↔ claims[id]? = some value ∨
    ∃ entry ∈ contributions, key entry.2 = id ∧ claim entry.1 entry.2 = value

theorem claimBy_claims {γ δ : Type} {key : γ → Id} {claim : Id → γ → δ}
    {refused : Id → γ → δ → CompositionError} {claims result : BTreeMap Id δ}
    {contributions : List (Id × γ)}
    (claimed : claimBy key claim refused claims contributions = .ok result) :
    Claims key claim claims contributions result := by
  induction contributions generalizing claims with
  | nil =>
    cases claimed
    exact ⟨List.nodup_nil, fun _ member => absurd member List.not_mem_nil, by simp⟩
  | cons entry rest ih =>
    obtain ⟨moduleId, contribution⟩ := entry
    unfold claimBy at claimed
    split at claimed
    · cases claimed
    · rename_i absent
      obtain ⟨distinct, fresh, lookup⟩ := ih claimed
      refine ⟨?_, ?_, fun id value => ?_⟩
      · rw [List.map_cons, List.nodup_cons]
        refine ⟨fun again => ?_, distinct⟩
        obtain ⟨other, member, same⟩ := List.mem_map.mp again
        exact fresh other member ((mem_insert_iff _ _ _ _).mpr (.inl same))
      · rw [List.forall_mem_cons]
        exact ⟨not_mem_of_lookup_none absent, fun other member known =>
          fresh other member ((mem_insert_iff _ _ _ _).mpr (.inr known))⟩
      · rw [lookup, lookup_insert]
        by_cases same : key contribution = id
        · rw [if_pos same, ← same, absent]
          constructor
          · rintro (now | later)
            · exact .inr ⟨_, List.mem_cons_self, rfl, Option.some.inj now⟩
            · obtain ⟨other, member, holds⟩ := later
              exact .inr ⟨other, List.mem_cons_of_mem _ member, holds⟩
          · rintro (none_ | ⟨other, member, named, holds⟩)
            · cases none_
            · rcases List.mem_cons.mp member with rfl | later
              · exact .inl (congrArg some holds)
              · exact .inr ⟨other, later, named, holds⟩
        · rw [if_neg same]
          refine or_congr_right ⟨?_, ?_⟩
          · rintro ⟨other, member, holds⟩
            exact ⟨other, List.mem_cons_of_mem _ member, holds⟩
          · rintro ⟨other, member, named, holds⟩
            rcases List.mem_cons.mp member with rfl | later
            · exact absurd named same
            · exact ⟨other, later, named, holds⟩

/-! ### Slots -/

variable {plan : CompositionPlan ν}

/-- The contributions to slots of a composition. -/
abbrev slotContributions (modules : BTreeMap Id (ModuleRegistration ν)) :
    List (Id × CapabilityContribution) :=
  contributed modules fun registration => registration.definition.capabilities

namespace Plans

/-- **A slot is that of the one contribution to it.** -/
theorem claims (plans : Plans modules plan) : Claims CapabilityContribution.capabilityId
    (fun moduleId contribution => (⟨moduleId, contribution.ownership,
      contribution.definitionIdentity, contribution.kind⟩ : CapabilitySlot))
    ∅ (slotContributions modules) plan.slots :=
  claimBy_claims plans.slots

theorem slot_iff (plans : Plans modules plan) {id : Id} {slot : CapabilitySlot} :
    plan.slots[id]? = some slot ↔ ∃ entry ∈ slotContributions modules,
      entry.2.capabilityId = id ∧ (⟨entry.1, entry.2.ownership, entry.2.definitionIdentity,
        entry.2.kind⟩ : CapabilitySlot) = slot := by
  rw [plans.claims.lookup, ExtTreeMap.getElem?_empty]
  exact ⟨fun found => found.resolve_left nofun, .inr⟩

/-- Two contributions to one slot are the same. -/
theorem contribution_eq (plans : Plans modules plan) {one other : Id × CapabilityContribution}
    (first : one ∈ slotContributions modules) (second : other ∈ slotContributions modules)
    (same : one.2.capabilityId = other.2.capabilityId) : one = other :=
  List.inj_on_of_nodup_map plans.claims.distinct first second same

/-! ### The merged definition -/

/-- The definition of a plan is the merged one, and it is valid. -/
theorem merged (plans : Plans modules plan) :
    plan.definition = mergedDefinition modules plan.order plan.slots ∧
      ∃ validated, plan.definition.validated = .ok validated := by
  have merges := plans.definition
  unfold mergeDefinition at merges
  split at merges
  · cases merges
  · rename_i validated valid
    have same := Except.ok.inj merges
    exact ⟨same.symm, validated, same ▸ valid⟩

/-- **The merged definition declares exactly the declarative contributions.** -/
theorem declared_iff (plans : Plans modules plan) {declaration : CapabilityDeclaration} :
    declaration ∈ plan.definition.capabilities ↔
      ∃ moduleId, (moduleId, .declarative declaration) ∈ slotContributions modules := by
  rw [plans.merged.1]
  unfold mergedDefinition
  simp only [List.mem_filterMap]
  have listed : ∀ entry : Id × CapabilityDeclaration,
      entry ∈ (contributed modules fun registration =>
        registration.definition.capabilities.filterMap CapabilityContribution.declaration?) ↔
          (entry.1, .declarative entry.2) ∈ slotContributions modules := by
    rintro ⟨moduleId, other⟩
    rw [mem_contributed, mem_contributed]
    refine exists_congr fun registration => and_congr_right fun _ => ?_
    rw [List.mem_filterMap]
    constructor
    · rintro ⟨contribution, member, given⟩
      cases contribution with
      | declarative held =>
        cases given
        exact member
      | reactive held => cases given
    · exact fun member => ⟨_, member, rfl⟩
  constructor
  · rintro ⟨id, _, found⟩
    obtain ⟨entry, member, _, rfl⟩ := exists_of_foldl_insert found
    exact ⟨entry.1, (listed entry).mp member⟩
  · rintro ⟨moduleId, member⟩
    have slot := plans.slot_iff.mpr ⟨_, member, rfl, rfl⟩
    refine ⟨declaration.id, ExtTreeMap.mem_keys.mpr (mem_of_lookup slot), ?_⟩
    have known : ∃ found, ((contributed modules fun registration =>
        registration.definition.capabilities.filterMap CapabilityContribution.declaration?).foldl
          (fun (declarations : BTreeMap Id CapabilityDeclaration) entry =>
            declarations.insert entry.2.id entry.2) ∅)[declaration.id]? = some found := by
      have inserted : ∀ (entries : List (Id × CapabilityDeclaration))
          (start : BTreeMap Id CapabilityDeclaration), (moduleId, declaration) ∈ entries ∨
            declaration.id ∈ start → declaration.id ∈ entries.foldl
              (fun (declarations : BTreeMap Id CapabilityDeclaration) entry =>
                declarations.insert entry.2.id entry.2) start := by
        intro entries
        induction entries with
        | nil => exact fun start known => known.resolve_left List.not_mem_nil
        | cons entry rest ih =>
          intro start known
          refine ih _ ?_
          rcases known with member | before
          · rcases List.mem_cons.mp member with rfl | later
            · exact .inr ((mem_insert_iff _ _ _ _).mpr (.inl rfl))
            · exact .inl later
          · exact .inr ((mem_insert_iff _ _ _ _).mpr (.inr before))
      exact exists_lookup_of_mem (inserted _ _ (.inl ((listed (moduleId, declaration)).mpr member)))
    obtain ⟨found, held⟩ := known
    obtain ⟨entry, inside, named, rfl⟩ := exists_of_foldl_insert held
    rw [held]
    have same := plans.contribution_eq ((listed entry).mp inside) member named
    rw [Prod.mk.injEq, CapabilityContribution.declarative.injEq] at same
    rw [same.2]

/-- A declaratively owned slot is declared, under its identity. -/
theorem declared_of_slot (plans : Plans modules plan) {id : Id} {slot : CapabilitySlot}
    (found : plan.slots[id]? = some slot) (owned : slot.ownership = .declarative) :
    ∃ declaration ∈ plan.definition.capabilities, declaration.id = id ∧
      declaration.definitionIdentity = slot.definitionIdentity := by
  obtain ⟨⟨moduleId, contribution⟩, member, named, same⟩ := plans.slot_iff.mp found
  cases contribution with
  | declarative declaration =>
    exact ⟨declaration, plans.declared_iff.mpr ⟨moduleId, member⟩, named,
      congrArg CapabilitySlot.definitionIdentity same⟩
  | reactive declaration =>
    have reactive : CapabilityOwnership.reactive = slot.ownership :=
      congrArg CapabilitySlot.ownership same
    rw [owned] at reactive
    cases reactive

/-- The slot of a declaration is declaratively owned, under its identity. -/
theorem slot_of_declared (plans : Plans modules plan) {declaration : CapabilityDeclaration}
    (declared : declaration ∈ plan.definition.capabilities) :
    ∃ slot, plan.slots[declaration.id]? = some slot ∧ slot.ownership = .declarative ∧
      slot.definitionIdentity = declaration.definitionIdentity := by
  obtain ⟨moduleId, member⟩ := plans.declared_iff.mp declared
  exact ⟨_, plans.slot_iff.mpr ⟨_, member, rfl, rfl⟩, rfl, rfl⟩

/-! ### Requirements -/

/-- **A requirement of a module is on a declaration.** -/
theorem required (plans : Plans modules plan) {moduleId : Id} {registration : ModuleRegistration ν}
    (found : modules[moduleId]? = some registration) {requirement : CapabilityRequirement}
    (member : requirement ∈ registration.definition.requirements) :
    ∃ declaration ∈ plan.definition.capabilities, declaration.id = requirement.capabilityId := by
  have checked := forM_ok.mp plans.requirements (moduleId, requirement)
    (mem_contributed.mpr ⟨registration, found, member⟩)
  unfold validateRequirement at checked
  split at checked
  · cases checked
  · rename_i slot held
    split at checked
    · cases checked
    · rename_i owned
      have declarative : slot.ownership = .declarative := by
        cases ownership : slot.ownership with
        | declarative => rfl
        | reactive => exact absurd ownership owned
      obtain ⟨declaration, declared, named, _⟩ := plans.declared_of_slot held declarative
      exact ⟨declaration, declared, named⟩

/-- Every requirement of the merged definition is on a declaration. -/
theorem requirements_declared (plans : Plans modules plan)
    {declared : BTreeMap Id CapabilityDeclaration} {validated : ValidatedRunDefinition}
    (checks : Validates plan.definition declared validated) {requirement : CapabilityRequirement}
    (member : requirement ∈ requirementsOf validated.tasks declared) :
    requirement.capabilityId ∈ declared := by
  have known {declaration : CapabilityDeclaration}
      (inside : declaration ∈ plan.definition.capabilities) : declaration.id ∈ declared :=
    mem_of_lookup ((checks.explicit.agrees _ _).mpr ⟨inside, rfl⟩)
  rcases List.mem_append.mp member with ofTask | ofDeclaration
  · obtain ⟨task, inside, requires⟩ := List.mem_flatMap.mp ofTask
    obtain ⟨taskId, found⟩ := mem_valuesOf.mp inside
    have listed := ((checks.tasks.agrees _ _).mp found).1
    rw [plans.merged.1] at listed
    obtain ⟨moduleId, _, held⟩ := List.mem_flatMap.mp listed
    cases registered : modules[moduleId]? with
    | none =>
      rw [registered] at held
      cases held
    | some registration =>
      rw [registered] at held
      obtain ⟨declaration, inside, named⟩ := plans.required registered
        (List.mem_append_left _ (List.mem_flatMap.mpr ⟨task, held, requires⟩))
      exact named ▸ known inside
  · obtain ⟨declaration, inside, requires⟩ := List.mem_flatMap.mp ofDeclaration
    obtain ⟨id, found⟩ := mem_valuesOf.mp inside
    obtain ⟨moduleId, contributes⟩ :=
      plans.declared_iff.mp ((checks.explicit.agrees _ _).mp found).1
    obtain ⟨registration, registered, contribution⟩ := mem_contributed.mp contributes
    obtain ⟨other, inside, named⟩ := plans.required registered
      (List.mem_append_right _ (List.mem_flatMap.mpr ⟨_, contribution, requires⟩))
    exact named ▸ known inside

/-- **The merged definition is valid and materializes nothing.** -/
theorem validates (plans : Plans modules plan) : ∃ validated,
    plan.definition.validated = .ok validated ∧
      Indexes CapabilityDeclaration.id plan.definition.capabilities validated.capabilities := by
  obtain ⟨_, validated, valid⟩ := plans.merged
  obtain ⟨declared, checks⟩ := validated_iff.mp valid
  refine ⟨validated, valid, ?_⟩
  have same : validated.capabilities = declared := by
    refine ExtTreeMap.ext_getElem? fun id => ?_
    rw [materialize_ok checks.materialized]
    unfold declarationOf
    cases held : declared[id]? with
    | some declaration => rfl
    | none =>
      rw [Option.none_or]
      have none_ : (requirementsOf validated.tasks declared).find? (fun requirement =>
          requirement.capabilityId = id) = none := by
        rw [List.find?_eq_none]
        intro requirement member named
        have inside := plans.requirements_declared checks member
        rw [of_decide_eq_true named, ExtTreeMap.mem_iff_isSome_getElem?, held] at inside
        cases inside
      rw [none_]
      rfl
  rw [same]
  exact checks.explicit

/-! ### Factories -/

/-- **Every declaration has a factory.** -/
theorem served (plans : Plans modules plan) {declaration : CapabilityDeclaration}
    (declared : declaration ∈ plan.definition.capabilities) :
    plan.factories.contains declaration.id declaration.definitionIdentity = true := by
  obtain ⟨slot, found, owned, identity⟩ := plans.slot_of_declared declared
  have checked := plans.factories
  unfold validateFactories at checked
  obtain ⟨factories, _, checked⟩ := except_bind_ok.mp checked
  obtain ⟨covered, same⟩ := except_then_ok.mp checked
  cases Except.ok.inj same
  have each := forM_ok.mp covered (declaration.id, slot)
    (ExtTreeMap.mem_toList_iff_getElem?_eq_some.mpr found)
  simp only at each
  split at each
  · cases each
  · rename_i covers
    rw [← identity]
    by_contra missing
    exact covers ⟨owned, Bool.eq_false_iff.mpr missing⟩

/-- The merged factories cover the merged definition. -/
theorem covers (plans : Plans modules plan) {validated : ValidatedRunDefinition}
    (indexes : Indexes CapabilityDeclaration.id plan.definition.capabilities validated.capabilities) :
    plan.factories.validate validated = .ok () := by
  refine forM_ok.mpr fun declaration member => if_pos ?_
  obtain ⟨id, found⟩ := mem_valuesOf.mp member
  have known := plans.served ((indexes.agrees _ _).mp found).1
  exact ExtTreeMap.contains_iff_mem.mp known

/-! ### Plugins -/

/-- **The plugins of a plan**: their identities are distinct, and each publishes into a reactively owned
slot that is its own. -/
structure PluginSlots (slots : BTreeMap Id CapabilitySlot) (claims : PluginClaims)
    (contributions : List (Id × PluginContribution)) : Prop where
  distinct : (contributions.map fun entry => entry.2.plugin.id).Nodup
  fresh : ∀ entry ∈ contributions, entry.2.plugin.id ∉ claims.owners
  single : (contributions.map fun entry => entry.2.plugin.capability.id).Nodup
  unclaimed : ∀ entry ∈ contributions, entry.2.plugin.capability.id ∉ claims.reactive
  reactive : ∀ entry ∈ contributions, ∃ slot, slots[entry.2.plugin.capability.id]? = some slot ∧
    slot.ownership = .reactive

/-- What one claim establishes. -/
theorem claimPlugin_ok {slots : BTreeMap Id CapabilitySlot} {claims next : PluginClaims}
    {moduleId : Id} {plugin : PluginDefinition}
    (claimed : claimPlugin modules slots claims moduleId plugin = .ok next) :
    plugin.id ∉ claims.owners ∧ plugin.capability.id ∉ claims.reactive ∧
      (∃ slot, slots[plugin.capability.id]? = some slot ∧ slot.ownership = .reactive) ∧
      next = ⟨claims.owners.insert plugin.id,
        claims.reactive.insert plugin.capability.id moduleId⟩ := by
  unfold claimPlugin at claimed
  split at claimed
  · cases claimed
  · rename_i absent
    split at claimed
    · cases claimed
    · unfold claimSlot at claimed
      simp only at claimed
      split at claimed
      · cases claimed
      · rename_i slot found
        split at claimed
        · cases claimed
        · rename_i owned
          have reactive : slot.ownership = .reactive := by
            cases ownership : slot.ownership with
            | declarative => exact absurd ownership owned
            | reactive => rfl
          split at claimed
          · cases claimed
          · rename_i unclaimed
            split at claimed
            · cases claimed
            · split at claimed
              · cases claimed
              · exact ⟨absent, not_mem_of_lookup_none unclaimed, ⟨slot, found, reactive⟩,
                  (Except.ok.inj claimed).symm⟩

theorem claimPlugins_ok {slots : BTreeMap Id CapabilitySlot} {claims result : PluginClaims}
    {contributions : List (Id × PluginContribution)}
    (claimed : claimPlugins modules slots claims contributions = .ok result) :
    PluginSlots slots claims contributions := by
  induction contributions generalizing claims with
  | nil =>
    exact ⟨List.nodup_nil, fun _ member => absurd member List.not_mem_nil, List.nodup_nil,
      fun _ member => absurd member List.not_mem_nil, fun _ member => absurd member List.not_mem_nil⟩
  | cons entry rest ih =>
    obtain ⟨moduleId, contribution⟩ := entry
    unfold claimPlugins at claimed
    split at claimed
    · cases claimed
    · rename_i next one
      obtain ⟨absent, unclaimed, slot, rfl⟩ := claimPlugin_ok one
      obtain ⟨distinct, fresh, single, later, reactive⟩ := ih claimed
      refine ⟨List.nodup_cons.mpr ⟨fun again => ?_, distinct⟩, List.forall_mem_cons.mpr ⟨absent, ?_⟩,
        List.nodup_cons.mpr ⟨fun again => ?_, single⟩, List.forall_mem_cons.mpr ⟨unclaimed, ?_⟩,
        List.forall_mem_cons.mpr ⟨slot, reactive⟩⟩
      · obtain ⟨other, member, same⟩ := List.mem_map.mp again
        exact fresh other member (ExtTreeSet.mem_insert.mpr (.inl (Std.compare_eq_iff_eq.mpr same.symm)))
      · exact fun other member known => fresh other member (ExtTreeSet.mem_insert.mpr (.inr known))
      · obtain ⟨other, member, same⟩ := List.mem_map.mp again
        exact later other member ((mem_insert_iff _ _ _ _).mpr (.inl same))
      · exact fun other member known => later other member ((mem_insert_iff _ _ _ _).mpr (.inr known))

/-- **The plugins of a plan are distinct, each with a reactively owned slot of its own.** -/
theorem plugin_slots (plans : Plans modules plan) :
    PluginSlots plan.slots ⟨∅, ∅⟩ (contributed modules ModuleRegistration.plugins) := by
  obtain ⟨claims, claimed, _⟩ := except_bind_ok.mp plans.plugins
  exact claimPlugins_ok claimed

/-- No plugin publishes into a declared slot. -/
theorem undeclared (plans : Plans modules plan) {entry : Id × PluginContribution}
    (member : entry ∈ contributed modules ModuleRegistration.plugins)
    {declaration : CapabilityDeclaration} (declared : declaration ∈ plan.definition.capabilities) :
    declaration.id ≠ entry.2.plugin.capability.id := by
  intro same
  obtain ⟨slot, found, reactive⟩ := plans.plugin_slots.reactive entry member
  obtain ⟨other, held, declarative, _⟩ := plans.slot_of_declared declared
  rw [same, found, Option.some.injEq] at held
  rw [← held, reactive] at declarative
  cases declarative

end Plans

end Kernis
