/-
**The order of the modules.**

* `deterministicOrderWithin` — the counting and the walk to a cycle as they are written, within a bound:
  they may also stop at a counter that runs below zero, or at one of the four `expect`s.
* `deterministicOrderWithin_eq` — a bound above the number of modules suffices, and none of that
  happens.
* `deterministic_order_exact` — an order exists exactly when no module depends on itself; it is the
  least of all that follow the dependencies; otherwise a cycle of dependencies is reported.
-/

import Kernis.Lib.LeastOrder
import Kernis.Composition.Planned

namespace Kernis

open Std

variable {ν : Type} {modules : BTreeMap Id (ModuleRegistration ν)}

/-- Where the ordering stops without an order: at an error, or where something does not hold. -/
inductive OrderHalt
  | error (error : CompositionError)
  | fault (fault : Counting.Fault)

/-- The walk to a cycle among the modules that are not ordered. -/
def cycleWithin (modules : BTreeMap Id (ModuleRegistration ν)) (bound : Nat) (order : List Id) :
    Option (Except OrderHalt (List Id)) :=
  let remaining := modules.keys.filter (· ∉ order)
  match remaining with
  | [] => some (.error (.fault .emptyCycleSet))
  | first :: _ =>
    match Counting.chaseSafely (dependencySets modules) remaining bound [] first with
    | none => none
    | some (.error fault) => some (.error (.fault fault))
    | some (.ok cycle) => some (.error (.error (.moduleDependencyCycle cycle)))

/-- The topological order within a bound of the rounds and of the walk. -/
def deterministicOrderWithin (modules : BTreeMap Id (ModuleRegistration ν)) (bound : Nat) :
    Option (Except OrderHalt (List Id)) :=
  match Counting.runSafely (dependencySets modules) bound (Counting.start (dependencySets modules)) with
  | none => none
  | some (.error fault) => some (.error (.fault fault))
  | some (.ok counting) =>
    if counting.placed.length = modules.size then some (.ok counting.placed)
    else cycleWithin modules bound counting.placed

/-- A module declares a dependency. -/
def Depends (modules : BTreeMap Id (ModuleRegistration ν)) (moduleId dependency : Id) : Prop :=
  ∃ registration, modules[moduleId]? = some registration ∧
    dependency ∈ registration.definition.dependencies

/-- **All modules, each after its dependencies.** -/
structure ModuleOrder (modules : BTreeMap Id (ModuleRegistration ν)) (order : List Id) : Prop where
  all : order.Perm modules.keys
  follows : ∀ front moduleId back, order = front ++ moduleId :: back →
    ∀ dependency, Depends modules moduleId dependency → dependency ∈ front

theorem needs_eq_depends : Counting.Needs (dependencySets modules) = Depends modules := by
  funext moduleId dependency
  exact propext mem_needs

theorem keys_dependencySets : (dependencySets modules).keys = modules.keys := ExtTreeMap.keys_map

theorem size_dependencySets : (dependencySets modules).size = modules.size := ExtTreeMap.size_map

/-- The module orders are the topological ones. -/
theorem moduleOrder_iff {order : List Id} :
    ModuleOrder modules order ↔ Counting.Topological (dependencySets modules) order := by
  constructor
  · rintro ⟨all, follows⟩
    refine ⟨keys_dependencySets ▸ all, fun front moduleId back split dependency member => ?_⟩
    exact follows front moduleId back split dependency (mem_needs.mp member)
  · rintro ⟨all, ordered⟩
    refine ⟨keys_dependencySets ▸ all, fun front moduleId back split dependency depends => ?_⟩
    exact ordered front moduleId back split dependency (mem_needs.mpr depends)

section Closed

variable (closed : ∀ moduleId dependency, Depends modules moduleId dependency → dependency ∈ modules)
include closed

theorem needs_closed : ∀ node, ∀ needed ∈ Counting.needs (dependencySets modules) node,
    needed ∈ dependencySets modules := fun node needed member =>
  mem_dependencySets.mpr (closed node needed (mem_needs.mp member))

/-- The order is complete exactly when no module depends on itself. -/
theorem order_length_iff : (Counting.order (dependencySets modules)).length = modules.size ↔
    ∀ moduleId, ¬ Relation.TransGen (Depends modules) moduleId moduleId := by
  rw [← size_dependencySets, Counting.length_order_iff, Counting.mem_order_iff (needs_closed closed),
    needs_eq_depends]

/-- **A cycle that is reported is one**, from a module back to it along dependencies. -/
theorem cycle_of_deterministicOrder {error : CompositionError}
    (failed : deterministicOrder modules = .error error) :
    ∃ path, error = .moduleDependencyCycle path ∧ ClosedWalk (Depends modules) path := by
  unfold deterministicOrder at failed
  simp only at failed
  split at failed
  · cases failed
  · rename_i short
    cases failed
    rw [← size_dependencySets, Counting.length_order_iff] at short
    push Not at short
    obtain ⟨node, member, unplaced⟩ := short
    obtain ⟨first, middle, same, chained⟩ :=
      Counting.cycle_closed (needs_closed closed) member unplaced
    refine ⟨_, rfl, ?_, first, middle, same⟩
    rw [same, ← needs_eq_depends]
    exact chained

/-- **The ordering ends**: no counter runs below zero, and no `expect` is reached. -/
theorem deterministicOrderWithin_eq {bound : Nat} (enough : modules.size < bound) :
    deterministicOrderWithin modules bound = some ((deterministicOrder modules).mapError .error) := by
  have counted : Counting.runSafely (dependencySets modules) bound
      (Counting.start (dependencySets modules)) =
        some (.ok (Counting.run (dependencySets modules) (dependencySets modules).size
          (Counting.start (dependencySets modules)))) := by
    refine Counting.runSafely_eq Counting.counts_start ?_ (Nat.le_add_left _ _)
    rw [size_dependencySets]
    exact Nat.lt_of_lt_of_le enough (Nat.le_add_left _ _)
  unfold deterministicOrderWithin
  rw [counted]
  change (if (Counting.order (dependencySets modules)).length = modules.size then
    some (.ok (Counting.order (dependencySets modules)))
    else cycleWithin modules bound (Counting.order (dependencySets modules))) = _
  unfold deterministicOrder
  by_cases whole : (Counting.order (dependencySets modules)).length = modules.size
  · simp only [if_pos whole]
    rfl
  · simp only [if_neg whole]
    have remains : ∀ one, one ∈ modules.keys.filter (· ∉ Counting.order (dependencySets modules)) ↔
        one ∈ dependencySets modules ∧ one ∉ Counting.order (dependencySets modules) := by
      intro one
      rw [List.mem_filter, ← keys_dependencySets, ExtTreeMap.mem_keys, decide_eq_true_iff]
    have waits : ∀ one ∈ modules.keys.filter (· ∉ Counting.order (dependencySets modules)),
        ∃ needed ∈ Counting.needs (dependencySets modules) one,
          needed ∈ modules.keys.filter (· ∉ Counting.order (dependencySets modules)) := by
      intro one inside
      obtain ⟨known, waiting⟩ := (remains one).mp inside
      obtain ⟨needed, edge, missing⟩ := Counting.stuck known waiting
      exact ⟨needed, edge, (remains needed).mpr ⟨needs_closed closed one needed edge, missing⟩⟩
    have few : (modules.keys.filter (· ∉ Counting.order (dependencySets modules))).length < bound := by
      refine Nat.lt_of_le_of_lt (List.length_filter_le _ _) ?_
      rwa [ExtTreeMap.length_keys]
    unfold cycleWithin Counting.cycle
    rw [keys_dependencySets]
    cases listed : modules.keys.filter (· ∉ Counting.order (dependencySets modules)) with
    | nil =>
      rw [← size_dependencySets, Counting.length_order_iff] at whole
      push Not at whole
      obtain ⟨node, member, unplaced⟩ := whole
      have inside := (remains node).mpr ⟨member, unplaced⟩
      rw [listed] at inside
      cases inside
    | cons first rest =>
      rw [listed] at waits few
      have walked : Counting.chaseSafely (dependencySets modules) (first :: rest) bound [] first =
          some (.ok (Counting.chase (dependencySets modules) (first :: rest)
            ((first :: rest).length + 1) [] first)) := by
        refine Counting.chaseSafely_eq waits List.nodup_nil (List.nil_subset _) List.mem_cons_self
          ?_ ?_
        · rw [List.length_nil]
          omega
        · rw [List.length_nil]
          omega
      simp only [walked]
      rfl

end Closed

/-- Modules with the same dependencies are ordered the same, however often they list them. -/
theorem dependencySets_congr {other : BTreeMap Id (ModuleRegistration ν)}
    (same : ∀ moduleId : Id, moduleId ∈ other ↔ moduleId ∈ modules)
    (alike : ∀ moduleId dependency,
      Depends other moduleId dependency ↔ Depends modules moduleId dependency) :
    dependencySets other = dependencySets modules := by
  refine ExtTreeMap.ext_getElem? fun moduleId => ?_
  have mine := alike moduleId
  unfold dependencySets
  rw [ExtTreeMap.getElem?_map, ExtTreeMap.getElem?_map]
  cases found : modules[moduleId]? with
  | none =>
    have absent : moduleId ∉ other := fun member =>
      not_mem_of_lookup_none found ((same moduleId).mp member)
    rw [lookup_none_of_not_mem absent]
  | some registration =>
    obtain ⟨twin, foundTwin⟩ := exists_lookup_of_mem ((same moduleId).mpr (mem_of_lookup found))
    rw [foundTwin]
    refine congrArg some (ExtTreeSet.ext_mem fun dependency => ?_)
    have one := mine dependency
    unfold Depends at one
    rw [found, foundTwin] at one
    simp only [Option.some.injEq, exists_eq_left'] at one
    rw [ExtTreeSet.mem_ofList, ExtTreeSet.mem_ofList, List.contains_iff_mem, List.contains_iff_mem]
    exact one

theorem deterministicOrder_congr {other : BTreeMap Id (ModuleRegistration ν)}
    (same : ∀ moduleId : Id, moduleId ∈ other ↔ moduleId ∈ modules)
    (alike : ∀ moduleId dependency,
      Depends other moduleId dependency ↔ Depends modules moduleId dependency) :
    deterministicOrder other = deterministicOrder modules := by
  unfold deterministicOrder
  rw [← size_dependencySets, ← size_dependencySets, dependencySets_congr same alike]

/-- **What the ordering promises.** -/
structure OrderExact (modules : BTreeMap Id (ModuleRegistration ν)) : Prop where
  ordered : (∃ order, deterministicOrder modules = .ok order) ↔
    ∀ moduleId, ¬ Relation.TransGen (Depends modules) moduleId moduleId
  least : ∀ order, deterministicOrder modules = .ok order → ModuleOrder modules order ∧
    ∀ other, ModuleOrder modules other →
      order = other ∨ List.Lex (fun one another => compare one another = .lt) order other
  cycle : ∀ error, deterministicOrder modules = .error error →
    ∃ path, error = .moduleDependencyCycle path ∧ ClosedWalk (Depends modules) path
  duplicates : ∀ other : BTreeMap Id (ModuleRegistration ν),
    (∀ moduleId : Id, moduleId ∈ other ↔ moduleId ∈ modules) →
    (∀ moduleId dependency, Depends other moduleId dependency ↔ Depends modules moduleId dependency) →
    deterministicOrder other = deterministicOrder modules
  returns : ∀ bound, modules.size < bound →
    deterministicOrderWithin modules bound = some ((deterministicOrder modules).mapError .error)

/-- **The module order is the least topological order**, where all dependencies are modules. -/
theorem deterministic_order_exact (modules : BTreeMap Id (ModuleRegistration ν))
    (closed : ∀ moduleId dependency, Depends modules moduleId dependency → dependency ∈ modules) :
    OrderExact modules where
  ordered := by
    rw [← order_length_iff closed]
    constructor
    · rintro ⟨order, ordered⟩
      obtain ⟨rfl, whole⟩ := deterministicOrder_ok.mp ordered
      exact whole
    · exact fun whole => ⟨_, deterministicOrder_ok.mpr ⟨rfl, whole⟩⟩
  least order ordered := by
    obtain ⟨rfl, whole⟩ := deterministicOrder_ok.mp ordered
    rw [← size_dependencySets] at whole
    refine ⟨moduleOrder_iff.mpr (Counting.order_topological whole), fun other follows => ?_⟩
    exact Counting.order_least whole (moduleOrder_iff.mp follows)
  cycle _ failed := cycle_of_deterministicOrder closed failed
  duplicates _ same alike := deterministicOrder_congr same alike
  returns _ enough := deterministicOrderWithin_eq closed enough

/-- A module that declares nothing but dependencies. -/
def plainModule (moduleId : Id) (dependencies : List Id) : ModuleRegistration Unit :=
  ⟨⟨moduleId, dependencies, [], [], []⟩, [], [], false, false⟩

/-- Two modules, one of which lists the other twice. -/
def plainModules : BTreeMap Id (ModuleRegistration Unit) :=
  ((∅ : BTreeMap Id (ModuleRegistration Unit)).insert sampleA (plainModule sampleA [])).insert sampleB
    (plainModule sampleB [sampleA, sampleA])

theorem deterministic_order_exact_sample : OrderExact plainModules := by
  refine deterministic_order_exact plainModules ?_
  rintro moduleId dependency ⟨registration, found, member⟩
  unfold plainModules at found ⊢
  rw [lookup_insert, lookup_insert] at found
  split at found
  · cases found
    have same : dependency = sampleA := by simpa [plainModule] using member
    rw [same, mem_insert_iff, mem_insert_iff]
    exact .inr (.inl rfl)
  · split at found
    · cases found
      cases member
    · cases found

end Kernis
