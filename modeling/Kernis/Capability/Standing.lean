/-
**Definitions that stand on their own.**

* `Standing` — every definition is held under its name, its dependencies are there, and none needs itself.
* `Standing.insert` — a new definition whose dependencies are there may join.
* `Standing.providable` — and a root scope of these definitions admits it.
-/

import Kernis.Capability.Scope

namespace Kernis

open Std

/-- **Definitions that stand on their own.** -/
structure Standing (definitions : BTreeMap Id CapabilityDefinition) : Prop where
  keyed : CapabilityGraph.Keyed definitions
  closed : ∀ (id : Id) (definition : CapabilityDefinition), definitions[id]? = some definition →
    ∀ dependency ∈ definition.dependencies, dependency ∈ definitions
  acyclic : ∀ id : Id, ¬ Relation.TransGen (CapabilityGraph.Requires ⟨definitions⟩) id id

namespace Standing

variable {definitions : BTreeMap Id CapabilityDefinition} {definition : CapabilityDefinition}

theorem valid (standing : Standing definitions) : CapabilityGraph.Valid ⟨definitions⟩ where
  closed := by
    rintro capability dependency ⟨held, found, requires⟩
    exact standing.closed capability held found dependency requires
  acyclic := standing.acyclic

theorem empty : Standing ∅ where
  keyed := by simp [CapabilityGraph.Keyed]
  closed := by simp
  acyclic := by
    intro id cycle
    obtain ⟨_, ⟨held, found, _⟩, _⟩ := Relation.TransGen.head'_iff.mp cycle
    simp at found

/-- **A new definition joins**, when its dependencies are there. -/
theorem insert (standing : Standing definitions) (fresh : definition.id ∉ definitions)
    (known : ∀ dependency ∈ definition.dependencies, dependency ∈ definitions) :
    Standing (definitions.insert definition.id definition) where
  keyed := standing.keyed.insert definition
  closed := by
    intro id other found dependency member
    rw [mem_insert_iff]
    rw [lookup_insert] at found
    split at found
    · cases found
      exact .inr (known dependency member)
    · exact .inr (standing.closed id other found dependency member)
  acyclic := by
    -- Nothing requires the new definition, so no cycle goes through it.
    have old {id dependency : Id} (requires : CapabilityGraph.Requires
        ⟨definitions.insert definition.id definition⟩ id dependency) :
        dependency ∈ definitions ∧ (id ≠ definition.id →
          CapabilityGraph.Requires ⟨definitions⟩ id dependency) := by
      obtain ⟨held, found, member⟩ := requires
      change (definitions.insert definition.id definition)[id]? = some held at found
      rw [lookup_insert] at found
      split at found
      · rename_i same
        cases found
        exact ⟨known dependency member, fun other => absurd same.symm other⟩
      · exact ⟨standing.closed id held found dependency member, fun _ => ⟨held, found, member⟩⟩
    have apart {id : Id} (member : id ∈ definitions) : id ≠ definition.id := by
      rintro rfl
      exact fresh member
    have path {start last : Id} (steps : Relation.TransGen (CapabilityGraph.Requires
        ⟨definitions.insert definition.id definition⟩) start last) (inside : start ≠ definition.id) :
        last ∈ definitions ∧
          Relation.TransGen (CapabilityGraph.Requires ⟨definitions⟩) start last := by
      induction steps with
      | single requires => exact ⟨(old requires).1, .single ((old requires).2 inside)⟩
      | tail _ requires ih =>
        exact ⟨(old requires).1, ih.2.tail ((old requires).2 (apart ih.1))⟩
    intro id cycle
    obtain ⟨_, _, last⟩ := Relation.TransGen.tail'_iff.mp cycle
    exact standing.acyclic id (path cycle (apart (old last).1)).2

/-- **A root scope admits a new definition** whose dependencies it publishes. -/
theorem providable (standing : Standing definitions) (fresh : definition.id ∉ definitions)
    (known : ∀ dependency ∈ definition.dependencies, dependency ∈ definitions) :
    Scope.Providable definitions definition where
  fresh := fresh
  admitted := by
    refine (CapabilityGraph.resolve_iff _).mpr ?_
    have same : (CapabilityGraph.fromDefinitions (valuesOf definitions)).insert definition =
        ⟨definitions.insert definition.id definition⟩ := by
      unfold CapabilityGraph.insert
      rw [CapabilityGraph.fromDefinitions_valuesOf standing.keyed]
    rw [same]
    exact (standing.insert fresh known).valid
  resolved := fun dependency member => known dependency (ExtTreeSet.mem_toList.mp member)

end Standing

end Kernis
