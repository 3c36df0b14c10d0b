/-
**What holds of a plan that was built.**

* `Plans` — the checks that a plan passed; `plans_iff`: exactly these plans are built.
* `deterministicOrder_of_rank` — a module graph along which a rank descends is ordered.
* `onGraph_of_build` — where the module graph passes its two checks, planning fails for another
  reason.
-/

import Kernis.Composition.Plan
import Kernis.Lib.Fallible

namespace Kernis

open Std

variable {ν : Type} {modules : BTreeMap Id (ModuleRegistration ν)}

theorem mem_contributed {γ : Type} {of : ModuleRegistration ν → List γ} {moduleId : Id}
    {contribution : γ} : (moduleId, contribution) ∈ contributed modules of ↔
      ∃ registration, modules[moduleId]? = some registration ∧ contribution ∈ of registration := by
  unfold contributed
  rw [List.mem_flatMap]
  constructor
  · rintro ⟨⟨otherId, registration⟩, listed, inside⟩
    obtain ⟨other, member, same⟩ := List.mem_map.mp inside
    cases same
    exact ⟨registration, ExtTreeMap.mem_toList_iff_getElem?_eq_some.mp listed, member⟩
  · rintro ⟨registration, found, member⟩
    exact ⟨(moduleId, registration), ExtTreeMap.mem_toList_iff_getElem?_eq_some.mpr found,
      List.mem_map.mpr ⟨contribution, member, rfl⟩⟩

/-! ### The module graph -/

theorem validateModuleDependencies_ok : validateModuleDependencies modules = .ok () ↔
    ∀ (moduleId : Id) (registration : ModuleRegistration ν),
      modules[moduleId]? = some registration →
        ∀ dependency ∈ registration.definition.dependencies, dependency ∈ modules := by
  unfold validateModuleDependencies
  rw [forM_ok]
  have checked : ∀ entry : Id × Id, (if entry.2 ∈ modules then Except.ok ()
      else Except.error (CompositionError.missingModuleDependency entry.1 entry.2)) = .ok () ↔
        entry.2 ∈ modules := by
    intro entry
    split
    · simpa using ‹_›
    · simpa using ‹_›
  simp only [checked]
  constructor
  · intro all moduleId registration found dependency member
    exact all (moduleId, dependency) (mem_contributed.mpr ⟨registration, found, member⟩)
  · rintro all ⟨moduleId, dependency⟩ member
    obtain ⟨registration, found, inside⟩ := mem_contributed.mp member
    exact all moduleId registration found dependency inside

theorem mem_dependencySets {moduleId : Id} : moduleId ∈ dependencySets modules ↔ moduleId ∈ modules :=
  ExtTreeMap.mem_map

/-- A module needs its declared dependencies. -/
theorem mem_needs {moduleId dependency : Id} :
    dependency ∈ Counting.needs (dependencySets modules) moduleId ↔
      ∃ registration, modules[moduleId]? = some registration ∧
        dependency ∈ registration.definition.dependencies := by
  unfold Counting.needs dependencySets
  rw [ExtTreeMap.getElem?_map]
  cases modules[moduleId]? with
  | none => simp
  | some registration =>
    simp only [Option.map_some, ExtTreeSet.mem_toList, ExtTreeSet.mem_ofList,
      List.contains_iff_mem, Option.some.injEq, exists_eq_left']

/-- The order is that of the counting, and it is complete. -/
theorem deterministicOrder_ok {order : List Id} : deterministicOrder modules = .ok order ↔
    order = Counting.order (dependencySets modules) ∧ order.length = modules.size := by
  unfold deterministicOrder
  simp only
  split
  · rename_i length
    constructor
    · rintro ⟨⟩
      exact ⟨rfl, length⟩
    · rintro ⟨rfl, _⟩
      rfl
  · rename_i length
    constructor
    · intro failed
      cases failed
    · rintro ⟨rfl, same⟩
      exact absurd same length

/-- **A module graph along which a rank descends is ordered.** -/
theorem deterministicOrder_of_rank (closed : validateModuleDependencies modules = .ok ())
    (rank : Id → Nat)
    (descends : ∀ moduleId dependency,
      dependency ∈ Counting.needs (dependencySets modules) moduleId →
        rank dependency < rank moduleId) :
    deterministicOrder modules = .ok (Counting.order (dependencySets modules)) := by
  refine deterministicOrder_ok.mpr ⟨rfl, ?_⟩
  have size : modules.size = (dependencySets modules).size := ExtTreeMap.size_map.symm
  rw [size, Counting.length_order_iff]
  intro moduleId member
  refine Counting.mem_order (fun node needed inside => ?_) ?_ member
  · obtain ⟨registration, found, dependency⟩ := mem_needs.mp inside
    exact mem_dependencySets.mpr
      (validateModuleDependencies_ok.mp closed node registration found needed dependency)
  · exact Subrelation.wf (fun {needed node} inside => descends node needed inside)
      (measure rank).wf

/-! ### The checks of a plan -/

/-- **The checks that a plan passed.** -/
structure Plans (modules : BTreeMap Id (ModuleRegistration ν)) (plan : CompositionPlan ν) : Prop where
  registered : plan.modules = modules
  dependencies : validateModuleDependencies modules = .ok ()
  order : deterministicOrder modules = .ok plan.order
  slots : validateCapabilitySlots modules = .ok plan.slots
  tasks : validateTaskContributions modules = .ok ()
  requirements : validateModuleRequirements modules plan.slots = .ok ()
  factories : validateFactories modules plan.slots = .ok plan.factories
  plugins : validatePlugins modules plan.slots = .ok ()
  configuration : validateConfiguration modules = .ok ()
  definition : mergeDefinition modules plan.order plan.slots = .ok plan.definition

/-- **Exactly the plans that pass the checks are built.** -/
theorem plans_iff {builder : CompositionBuilder ν} {plan : CompositionPlan ν} :
    builder.build = .ok plan ↔ Plans builder.modules plan := by
  unfold CompositionBuilder.build
  simp only [except_bind_ok]
  constructor
  · rintro ⟨_, dependencies, order, ordered, slots, owned, _, tasks, _, requirements, factories,
      merged, _, plugins, _, configuration, definition, valid, same⟩
    cases same
    exact ⟨rfl, dependencies, ordered, owned, tasks, requirements, merged, plugins, configuration,
      valid⟩
  · rintro ⟨registered, dependencies, order, slots, tasks, requirements, factories, plugins,
      configuration, definition⟩
    refine ⟨_, dependencies, _, order, _, slots, _, tasks, _, requirements, _, factories, _, plugins,
      _, configuration, _, definition, ?_⟩
    rw [← registered]

/-! ### What else can fail -/

/-- Whether an error is about the module graph. -/
def CompositionError.onGraph : CompositionError → Bool
  | .missingModuleDependency _ _ | .moduleDependencyCycle _ => true
  | _ => false

theorem onGraph_of_claimBy {γ δ : Type} {key : γ → Id} {claim : Id → γ → δ}
    {refused : Id → γ → δ → CompositionError}
    (other : ∀ moduleId contribution previous,
      (refused moduleId contribution previous).onGraph = false)
    {claims : BTreeMap Id δ} {contributions : List (Id × γ)} {error : CompositionError}
    (failed : claimBy key claim refused claims contributions = .error error) :
    error.onGraph = false := by
  induction contributions generalizing claims with
  | nil => cases failed
  | cons contribution rest ih =>
    obtain ⟨moduleId, contribution⟩ := contribution
    unfold claimBy at failed
    split at failed
    · cases failed
      exact other _ _ _
    · exact ih failed

theorem onGraph_of_validateRequirement {slots : BTreeMap Id CapabilitySlot}
    {requirement : CapabilityRequirement} {error : CompositionError}
    (failed : validateRequirement slots requirement = .error error) : error.onGraph = false := by
  unfold validateRequirement at failed
  split at failed
  · cases failed
    rfl
  · split at failed
    · cases failed
      rfl
    · split at failed
      · cases failed
        rfl
      · cases failed

theorem onGraph_of_mergeFactories {slots : BTreeMap Id CapabilitySlot}
    {factories : FactoryRegistry ν} {contributions : List (Id × FactoryContribution ν)}
    {error : CompositionError}
    (failed : mergeFactories modules slots factories contributions = .error error) :
    error.onGraph = false := by
  induction contributions generalizing factories with
  | nil => cases failed
  | cons contribution rest ih =>
    obtain ⟨moduleId, contribution⟩ := contribution
    unfold mergeFactories at failed
    split at failed
    · rename_i refused
      cases failed
      unfold mergeFactory at refused
      simp only at refused
      split at refused
      · cases refused
        rfl
      · split at refused
        · cases refused
          rfl
        · split at refused
          · cases refused
            rfl
          · split at refused
            · cases refused
              rfl
            · split at refused
              · cases refused
                rfl
              · cases refused
    · exact ih failed

theorem onGraph_of_claimPlugins {slots : BTreeMap Id CapabilitySlot} {claims : PluginClaims}
    {contributions : List (Id × PluginContribution)} {error : CompositionError}
    (failed : claimPlugins modules slots claims contributions = .error error) :
    error.onGraph = false := by
  induction contributions generalizing claims with
  | nil => cases failed
  | cons contribution rest ih =>
    obtain ⟨moduleId, contribution⟩ := contribution
    unfold claimPlugins at failed
    split at failed
    · rename_i refused
      cases failed
      unfold claimPlugin at refused
      split at refused
      · cases refused
        rfl
      · split at refused
        · cases refused
          rfl
        · unfold claimSlot at refused
          simp only at refused
          split at refused
          · cases refused
            rfl
          · split at refused
            · cases refused
              rfl
            · split at refused
              · cases refused
                rfl
              · split at refused
                · cases refused
                  rfl
                · split at refused
                  · cases refused
                    rfl
                  · cases refused
    · exact ih failed

theorem onGraph_of_validateRequirementKeys {requirements : BTreeMap Id (Id × Bool)}
    {contributions : List (Id × ConfigRequirement)} {error : CompositionError}
    (failed : validateRequirementKeys requirements contributions = .error error) :
    error.onGraph = false := by
  induction contributions generalizing requirements with
  | nil => cases failed
  | cons contribution rest ih =>
    obtain ⟨moduleId, contribution⟩ := contribution
    unfold validateRequirementKeys at failed
    split at failed
    · split at failed
      · cases failed
        rfl
      · exact ih failed
    · exact ih failed

/-- **Planning fails for another reason, where the module graph passes its checks.** -/
theorem onGraph_of_build {builder : CompositionBuilder ν} {order : List Id}
    (dependencies : validateModuleDependencies builder.modules = .ok ())
    (ordered : deterministicOrder builder.modules = .ok order) {error : CompositionError}
    (failed : builder.build = .error error) : error.onGraph = false := by
  unfold CompositionBuilder.build at failed
  rcases except_bind_error.mp failed with refused | ⟨_, _, failed⟩
  · rw [dependencies] at refused
    cases refused
  rcases except_bind_error.mp failed with refused | ⟨_, _, failed⟩
  · rw [ordered] at refused
    cases refused
  rcases except_bind_error.mp failed with slots | ⟨slots, _, failed⟩
  · exact onGraph_of_claimBy (fun _ _ _ => rfl) slots
  rcases except_bind_error.mp failed with tasks | ⟨_, _, failed⟩
  · unfold validateTaskContributions at tasks
    cases claimed : claimBy TaskDefinition.id (fun moduleId _ => moduleId)
        (fun moduleId task previous => .duplicateTaskContribution task.id moduleId previous)
        ∅ (contributed builder.modules fun registration => registration.definition.tasks) with
    | error refused =>
      rw [claimed] at tasks
      cases tasks
      exact onGraph_of_claimBy (fun _ _ _ => rfl) claimed
    | ok claims =>
      rw [claimed] at tasks
      cases tasks
  rcases except_bind_error.mp failed with requirements | ⟨_, _, failed⟩
  · obtain ⟨_, _, refused⟩ := exists_error_of_forM requirements
    exact onGraph_of_validateRequirement refused
  rcases except_bind_error.mp failed with factories | ⟨factories, _, failed⟩
  · rcases except_bind_error.mp factories with merged | ⟨_, _, covered⟩
    · exact onGraph_of_mergeFactories merged
    · rcases except_bind_error.mp covered with missing | ⟨_, _, returned⟩
      · obtain ⟨_, _, refused⟩ := exists_error_of_forM missing
        split at refused
        · cases refused
          rfl
        · cases refused
      · cases returned
  rcases except_bind_error.mp failed with plugins | ⟨_, _, failed⟩
  · rcases except_bind_error.mp plugins with claimed | ⟨_, _, covered⟩
    · exact onGraph_of_claimPlugins claimed
    · obtain ⟨_, _, refused⟩ := exists_error_of_forM covered
      split at refused
      · cases refused
        rfl
      · cases refused
  rcases except_bind_error.mp failed with configuration | ⟨_, _, failed⟩
  · exact onGraph_of_validateRequirementKeys configuration
  rcases except_bind_error.mp failed with definition | ⟨_, _, returned⟩
  · unfold mergeDefinition at definition
    split at definition
    · cases definition
      rfl
    · cases definition
  · cases returned

end Kernis
