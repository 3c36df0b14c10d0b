/-
**The identity of a definition is its normal form.**

* `normalForm` — a validated definition up to labels and the order of its lists, as a map of tasks and
  a map of capabilities.
* `Validates.identity_iff` — two validated definitions have the same identity exactly when they have
  the same normal form.
-/

import Mathlib.Data.Set.Defs
import Kernis.Runtime.Validated

namespace Kernis

open Std Fallible

/-! ### Normal forms -/

/-- A task up to its label and the order of its lists. -/
structure TaskForm where
  dependencies : Set Id
  requiredCapabilities : Set CapabilityRequirement
  effect : Option EffectSpec

/-- A capability up to the order of its dependencies. -/
structure CapabilityForm where
  kind : Text
  definitionIdentity : DefinitionIdentity
  dependencies : Set CapabilityRequirement

/-- The form of a task. -/
def TaskDefinition.form (task : TaskDefinition) : TaskForm :=
  ⟨{dependency | dependency ∈ task.dependencies},
    {requirement | requirement ∈ task.requiredCapabilities}, task.effect⟩

/-- The form of a capability. -/
def CapabilityDeclaration.form (capability : CapabilityDeclaration) : CapabilityForm :=
  ⟨capability.kind, capability.definitionIdentity,
    {requirement | requirement ∈ capability.dependencies}⟩

/-- The tasks and the capabilities of a definition by their identities. -/
structure NormalForm where
  tasks : Id → Option TaskForm
  capabilities : Id → Option CapabilityForm

/-- **The normal form of a validated definition**, with its implicit capabilities. -/
def ValidatedRunDefinition.normalForm (validated : ValidatedRunDefinition) : NormalForm :=
  ⟨fun taskId => (validated.tasks[taskId]?).map TaskDefinition.form,
    fun capabilityId => (validated.capabilities[capabilityId]?).map CapabilityDeclaration.form⟩

theorem TaskDefinition.canonical_eq_iff {tasks others : BTreeMap Id TaskDefinition}
    {task other : TaskDefinition} (valid : ValidTask tasks task) (validOther : ValidTask others other)
    (same : task.id = other.id) : task.canonical = other.canonical ↔ task.form = other.form := by
  have ids : ∀ {values : List Id}, values.Nodup → (values.map fun value => value).Nodup :=
    fun distinct => by rwa [List.map_id']
  have dependencies := sortedBy_eq_iff (ids valid.distinct) (ids validOther.distinct)
  have requirements := sortedBy_eq_iff valid.slots validOther.slots
  simp only [canonical, form, CanonicalTask.mk.injEq, TaskForm.mk.injEq, same, true_and,
    dependencies, requirements, Set.ext_iff, Set.mem_ofPred_eq]

theorem CapabilityDeclaration.canonical_eq_iff {capability other : CapabilityDeclaration}
    (valid : ValidCapability capability) (validOther : ValidCapability other)
    (same : capability.id = other.id) :
    capability.canonical = other.canonical ↔ capability.form = other.form := by
  have dependencies := sortedBy_eq_iff valid.slots validOther.slots
  simp only [canonical, form, CapabilityDeclaration.mk.injEq, CapabilityForm.mk.injEq, same,
    true_and, dependencies, Set.ext_iff, Set.mem_ofPred_eq]

/-- Equal values of a projection, in step. -/
theorem forall₂_of_map_eq {α β γ : Type} {first : List α} {second : List β} {project : α → γ}
    {projectOther : β → γ} (same : first.map project = second.map projectOther) :
    List.Forall₂ (fun value other => project value = projectOther other) first second := by
  rw [← List.forall₂_map_right_iff, ← List.forall₂_map_left_iff, List.forall₂_eq_eq_eq]
  exact same

theorem map_eq_of_forall₂ {α β γ : Type} {first : List α} {second : List β} {project : α → γ}
    {projectOther : β → γ}
    (same : List.Forall₂ (fun value other => project value = projectOther other) first second) :
    first.map project = second.map projectOther := by
  rw [← List.forall₂_map_right_iff, ← List.forall₂_map_left_iff, List.forall₂_eq_eq_eq] at same
  exact same

/-- Equal forms are related values, when they are so for the values that are there. -/
theorem map_eq_iff_rel {α β γ : Type} {Related : α → β → Prop} {project : α → γ}
    {projectOther : β → γ} {first : Option α} {second : Option β}
    (same : ∀ value, first = some value → ∀ other, second = some other →
      (Related value other ↔ project value = projectOther other)) :
    first.map project = second.map projectOther ↔ Option.Rel Related first second := by
  rcases first with _ | value
  · rcases second with _ | other
    · exact ⟨fun _ => .none, fun _ => rfl⟩
    · exact ⟨fun same => (by cases same), fun related => (by cases related)⟩
  · rcases second with _ | other
    · exact ⟨fun same => (by cases same), fun related => (by cases related)⟩
    · have one := same value rfl other rfl
      refine ⟨fun equal => .some (one.mpr (Option.some.inj equal)), fun related => ?_⟩
      cases related with
      | some held => exact congrArg some (one.mp held)

section Validated

variable {definition other : RunDefinition} {declared declaredOther : BTreeMap Id CapabilityDeclaration}
  {validated validatedOther : ValidatedRunDefinition}

/-- A capability is declared under its own identifier. -/
theorem Validates.own (checks : Validates definition declared validated) (capabilityId : Id)
    (capability : CapabilityDeclaration)
    (found : validated.capabilities[capabilityId]? = some capability) :
    capability.id = capabilityId := by
  rw [materialize_ok checks.materialized, declarationOf, Option.or_eq_some_iff] at found
  rcases found with explicit | ⟨_, implicit⟩
  · exact checks.explicit.key_of_lookup explicit
  · obtain ⟨requirement, first, rfl⟩ := Option.map_eq_some_iff.mp implicit
    have same := List.find?_some first
    exact of_decide_eq_true same

/-- Equal normal forms are equal declarations, up to order and labels. -/
theorem Validates.normalForm_iff (checks : Validates definition declared validated)
    (checksOther : Validates other declaredOther validatedOther) :
    validated.normalForm = validatedOther.normalForm ↔
      Alike (fun task other : TaskDefinition => task.canonical = other.canonical) validated.tasks
          validatedOther.tasks ∧
        Alike (fun capability other : CapabilityDeclaration =>
          capability.canonical = other.canonical) validated.capabilities
          validatedOther.capabilities := by
  unfold ValidatedRunDefinition.normalForm Alike
  rw [NormalForm.mk.injEq, funext_iff, funext_iff]
  refine and_congr (forall_congr' fun taskId => map_eq_iff_rel ?_)
    (forall_congr' fun capabilityId => map_eq_iff_rel ?_)
  · intro task found held there
    have valid := checks.validTasks task (mem_valuesOf.mpr ⟨taskId, found⟩)
    have validOther := checksOther.validTasks held (mem_valuesOf.mpr ⟨taskId, there⟩)
    refine TaskDefinition.canonical_eq_iff valid validOther ?_
    rw [checks.tasks.key_of_lookup found, checksOther.tasks.key_of_lookup there]
  · intro capability found held there
    have valid := checks.validCapabilities capability (mem_valuesOf.mpr ⟨capabilityId, found⟩)
    have validOther := checksOther.validCapabilities held (mem_valuesOf.mpr ⟨capabilityId, there⟩)
    refine CapabilityDeclaration.canonical_eq_iff valid validOther ?_
    rw [checks.own capabilityId capability found, checksOther.own capabilityId held there]

/-- **The identity is the normal form.** -/
theorem Validates.identity_iff (checks : Validates definition declared validated)
    (checksOther : Validates other declaredOther validatedOther) :
    validated.identity = validatedOther.identity ↔
      validated.normalForm = validatedOther.normalForm := by
  rw [checks.normalForm_iff checksOther]
  have texts : validated.identity = validatedOther.identity ↔
      canonicalText validated.tasks validated.capabilities =
        canonicalText validatedOther.tasks validatedOther.capabilities := by
    rw [← checks.identity, ← checksOther.identity]
    refine ⟨fun same => by rw [same], fun same => ?_⟩
    exact (WorkflowReplayIdentity.mk.injEq _ _).mpr (Subtype.ext same)
  rw [texts]
  constructor
  · intro same
    obtain ⟨capabilities, tasks⟩ := canonicalText_injective same
    refine ⟨.of_indexes (.of_values fun _ _ => checks.tasks.key_of_lookup)
        (.of_values fun _ _ => checksOther.tasks.key_of_lookup) (fun _ _ => ?_)
        (forall₂_of_map_eq tasks),
      .of_indexes (.of_values checks.own) (.of_values checksOther.own) (fun _ _ => ?_)
        (forall₂_of_map_eq capabilities)⟩
    · exact congrArg CanonicalTask.id
    · exact congrArg CapabilityDeclaration.id
  · rintro ⟨tasks, capabilities⟩
    rw [canonicalText_eq, canonicalText_eq, map_eq_of_forall₂ tasks.values,
      map_eq_of_forall₂ capabilities.values]

end Validated

end Kernis
