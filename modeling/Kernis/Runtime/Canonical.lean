/-
**The canonical text of a definition, read as an encoding.**

* `groupCode` — a tagged, counted and closed list; `valueCode` — a measured data token.
* `taskCode`, `capabilityCode` — one declaration with its lists in order; a task without its label.
* `canonicalText_eq` — the text is the format tag, the group of capabilities and the group of tasks.
* `canonicalText_injective` — the text determines both groups.
-/

import Kernis.Lib.Delimited
import Kernis.Runtime.Definition

namespace Kernis

open Std

/-! ### Tokens and groups -/

/-- A structural tag. -/
def tagCode (tag : String) : Text := '#' :: tag.toList

/-- An element count in brackets. -/
def countCode (count : Nat) : Text := ['['] ++ (digits count ++ [']'])

/-- A data token after its length in bytes. -/
def valueCode (value : Text) : Text := ['%'] ++ (digits (utf8Length value) ++ ':' :: value)

/-- A tagged and counted list, closed by an end tag. -/
def groupCode {α : Type} (tag : String) (encode : α → Text) (values : List α) : Text :=
  tagCode tag ++ (countCode values.length ++ values.flatMap encode) ++ tagCode "end"

theorem delimited_count : Delimited countCode := (delimited_digits (by decide)).after _

theorem delimited_value : Delimited valueCode := (delimited_measured (by decide)).after _

theorem delimited_group {α : Type} (tag : String) {encode : α → Text}
    (delimited : Delimited encode) : Delimited (groupCode tag encode) :=
  ((delimited.counted delimited_count).after _).before _

theorem pushTag_eq (canonical : Text) (tag : String) :
    pushTag canonical tag = canonical ++ tagCode tag := rfl

theorem pushCount_eq (canonical : Text) (count : Nat) :
    pushCount canonical count = canonical ++ countCode count := by
  simp [pushCount, countCode]

theorem pushValue_eq (canonical value : Text) :
    pushValue canonical value = canonical ++ valueCode value := by
  simp [pushValue, valueCode]

theorem foldl_push {α : Type} {push : Text → α → Text} {encode : α → Text}
    (pushes : ∀ canonical value, push canonical value = canonical ++ encode value)
    (values : List α) (canonical : Text) :
    values.foldl push canonical = canonical ++ values.flatMap encode := by
  induction values generalizing canonical with
  | nil => simp
  | cons value rest ih => rw [List.foldl_cons, ih, pushes, List.flatMap_cons, List.append_assoc]

/-- Pushing a group: its tag, its count, its elements, its end. -/
theorem pushGroup_eq {α : Type} {push : Text → α → Text} {encode : α → Text}
    (pushes : ∀ canonical value, push canonical value = canonical ++ encode value) (tag : String)
    (values : List α) (canonical : Text) :
    pushTag (values.foldl push (pushCount (pushTag canonical tag) values.length)) "end" =
      canonical ++ groupCode tag encode values := by
  rw [foldl_push pushes, pushTag_eq, pushCount_eq, pushTag_eq]
  simp only [groupCode, List.append_assoc]

/-! ### Declarations -/

/-- One requirement: its slot and its identity. -/
def requirementCode (requirement : CapabilityRequirement) : Text :=
  valueCode requirement.capabilityId.asStr ++ valueCode requirement.definitionIdentity.text

/-- A capability with its dependencies in order. -/
def CapabilityDeclaration.canonical (capability : CapabilityDeclaration) : CapabilityDeclaration :=
  ⟨capability.id, capability.kind, capability.definitionIdentity,
    sortedBy CapabilityRequirement.capabilityId capability.dependencies⟩

/-- One capability declaration. -/
def capabilityCode (capability : CapabilityDeclaration) : Text :=
  tagCode "capability" ++ (valueCode capability.id.asStr ++ (valueCode capability.kind ++
    (valueCode capability.definitionIdentity.text ++
      groupCode "requires" requirementCode capability.dependencies)))

/-- A task as its identity sees it: no label, and every list in order. -/
structure CanonicalTask where
  id : Id
  dependencies : List Id
  requiredCapabilities : List CapabilityRequirement
  effect : Option EffectSpec
deriving DecidableEq

/-- A task without its label, with its lists in order. -/
def TaskDefinition.canonical (task : TaskDefinition) : CanonicalTask :=
  ⟨task.id, sortedBy (fun dependency => dependency) task.dependencies,
    sortedBy CapabilityRequirement.capabilityId task.requiredCapabilities, task.effect⟩

/-- The tag of an effect's semantics. -/
def semanticsCode : EffectSemantics → Text
  | .idempotent => tagCode "idempotent"
  | .nonIdempotent => tagCode "non_idempotent"

/-- A present or absent effect. -/
def effectCode (effect : Option EffectSpec) : Text :=
  tagCode "effect" ++ effect.elim (tagCode "absent") fun effect =>
    tagCode "present" ++ (valueCode effect.operationId.id.asStr ++ semanticsCode effect.semantics)

/-- One task declaration. -/
def taskCode (task : CanonicalTask) : Text :=
  tagCode "task" ++ (valueCode task.id.asStr ++
    (groupCode "depends" (fun dependency => valueCode dependency.asStr) task.dependencies ++
      (groupCode "requires" requirementCode task.requiredCapabilities ++ effectCode task.effect)))

theorem Id.asStr_injective : Function.Injective Id.asStr := by
  rintro ⟨⟨first, _⟩⟩ ⟨⟨second, _⟩⟩ same
  cases same
  rfl

theorem delimited_id : Delimited fun taskId : Id => valueCode taskId.asStr :=
  delimited_value.through Id.asStr_injective

theorem delimited_requirement : Delimited requirementCode := by
  have injective : Function.Injective fun requirement : CapabilityRequirement =>
      (requirement.capabilityId, requirement.definitionIdentity.text) := by
    rintro ⟨first, ⟨identity⟩⟩ ⟨second, ⟨other⟩⟩ same
    cases same
    rfl
  exact (delimited_id.both delimited_value).through injective

theorem delimited_capability : Delimited capabilityCode := by
  have injective : Function.Injective fun capability : CapabilityDeclaration =>
      (capability.id, capability.kind, capability.definitionIdentity.text,
        capability.dependencies) := by
    rintro ⟨_, _, ⟨_⟩, _⟩ ⟨_, _, ⟨_⟩, _⟩ same
    cases same
    rfl
  exact ((delimited_id.both (delimited_value.both (delimited_value.both
    (delimited_group "requires" delimited_requirement)))).through injective).after _

theorem delimited_semantics : Delimited semanticsCode := by
  have apart : ∀ rest other, tagCode "idempotent" ++ rest ≠ tagCode "non_idempotent" ++ other :=
    append_ne_of_take 2 (by decide) (by decide) (by decide)
  rintro (_ | _) (_ | _) rest other same
  · exact ⟨rfl, List.append_cancel_left same⟩
  · exact absurd same (apart _ _)
  · exact absurd same.symm (apart _ _)
  · exact ⟨rfl, List.append_cancel_left same⟩

theorem delimited_effect : Delimited effectCode := by
  have apart : ∀ rest other, tagCode "present" ++ rest ≠ tagCode "absent" ++ other :=
    append_ne_of_take 2 (by decide) (by decide) (by decide)
  have injective : Function.Injective fun effect : EffectSpec =>
      (effect.operationId.id, effect.semantics) := by
    rintro ⟨⟨_⟩, _⟩ ⟨⟨_⟩, _⟩ same
    cases same
    rfl
  exact (((delimited_id.both delimited_semantics).through injective).optional apart).after _

theorem delimited_task : Delimited taskCode := by
  have injective : Function.Injective fun task : CanonicalTask =>
      (task.id, task.dependencies, task.requiredCapabilities, task.effect) := by
    rintro ⟨_, _, _, _⟩ ⟨_, _, _, _⟩ same
    cases same
    rfl
  exact ((delimited_id.both ((delimited_group "depends" delimited_id).both
    ((delimited_group "requires" delimited_requirement).both delimited_effect))).through
      injective).after _

theorem pushRequirements_eq (canonical : Text) (requirements : List CapabilityRequirement) :
    pushRequirements canonical requirements = canonical ++ groupCode "requires" requirementCode
      (sortedBy CapabilityRequirement.capabilityId requirements) := by
  refine pushGroup_eq (fun canonical requirement => ?_) "requires" _ canonical
  rw [pushValue_eq, pushValue_eq, List.append_assoc]
  rfl

theorem pushCapability_eq (canonical : Text) (capability : CapabilityDeclaration) :
    pushCapability canonical capability = canonical ++ capabilityCode capability.canonical := by
  rw [pushCapability, pushRequirements_eq, pushValue_eq, pushValue_eq, pushValue_eq, pushTag_eq]
  simp only [List.append_assoc]
  rfl

theorem pushEffect_eq (canonical : Text) (effect : Option EffectSpec) :
    pushEffect canonical effect = canonical ++ effectCode effect := by
  cases effect with
  | none =>
    rw [pushEffect, pushTag_eq, pushTag_eq, List.append_assoc]
    rfl
  | some effect =>
    obtain ⟨operationId, semantics⟩ := effect
    cases semantics with
    | idempotent =>
      simp only [pushEffect, pushTag_eq, pushValue_eq, List.append_assoc]
      rfl
    | nonIdempotent =>
      simp only [pushEffect, pushTag_eq, pushValue_eq, List.append_assoc]
      rfl

theorem pushTask_eq (canonical : Text) (task : TaskDefinition) :
    pushTask canonical task = canonical ++ taskCode task.canonical := by
  rw [pushTask, pushEffect_eq, pushRequirements_eq,
    pushGroup_eq (fun canonical dependency => pushValue_eq canonical dependency.asStr), pushValue_eq,
    pushTag_eq]
  simp only [List.append_assoc]
  rfl

/-! ### The whole text -/

/-- **The canonical text**: the format, the capabilities, the tasks. -/
theorem canonicalText_eq (tasks : BTreeMap Id TaskDefinition)
    (capabilities : BTreeMap Id CapabilityDeclaration) :
    canonicalText tasks capabilities = runDefinitionFormat ++
      (groupCode "capabilities" capabilityCode
          ((valuesOf capabilities).map CapabilityDeclaration.canonical) ++
        groupCode "tasks" taskCode ((valuesOf tasks).map TaskDefinition.canonical)) := by
  have size : ∀ {β : Type} (map : BTreeMap Id β), map.size = (valuesOf map).length := fun map => by
    rw [valuesOf, List.length_map, ExtTreeMap.length_toList]
  have mapped : ∀ {α β : Type} (tag : String) (encode : β → Text) (project : α → β)
      (values : List α), groupCode tag encode (values.map project) =
        groupCode tag (fun value => encode (project value)) values := fun tag encode project values => by
    rw [groupCode, List.length_map, List.flatMap_map]
    rfl
  rw [canonicalText, size, size, pushGroup_eq pushCapability_eq, pushGroup_eq pushTask_eq, mapped,
    mapped, List.append_assoc]

/-- **The text determines the declarations.** -/
theorem canonicalText_injective {tasks otherTasks : BTreeMap Id TaskDefinition}
    {capabilities others : BTreeMap Id CapabilityDeclaration}
    (same : canonicalText tasks capabilities = canonicalText otherTasks others) :
    (valuesOf capabilities).map CapabilityDeclaration.canonical =
        (valuesOf others).map CapabilityDeclaration.canonical ∧
      (valuesOf tasks).map TaskDefinition.canonical =
        (valuesOf otherTasks).map TaskDefinition.canonical := by
  rw [canonicalText_eq, canonicalText_eq] at same
  obtain ⟨declared, listed⟩ := delimited_group "capabilities" delimited_capability _ _ _ _
    (List.append_cancel_left same)
  exact ⟨declared, (delimited_group "tasks" delimited_task).injective listed⟩

end Kernis
