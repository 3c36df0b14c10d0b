/-
**Reference counting without cycles.**

A slot retains the slots it was made from, all of them older than itself. Whoever lets the last reference
to a slot go cleans it, and has then to let go of what the slot retained.

* `Heap.retain`, `Heap.alloc`, `Heap.release` — the operations.
* `Sound heap roots` — every slot counts the references that the roots and the slots in use have to it.
  Each operation keeps it: `Sound.retain`, `Sound.alloc`, `Sound.release`.
* `Sound.cleaned_iff_unreached` — a slot is cleaned exactly when no root reaches it.
-/

import Mathlib.Algebra.BigOperators.Group.List.Basic
import Mathlib.Algebra.GroupWithZero.Nat
import Mathlib.Algebra.Order.Group.Multiset
import Mathlib.Logic.Relation

namespace Kernis

/-- Changing one summand of a sum. -/
theorem sum_map_set {α M : Type} [AddCommMonoid M] (weight : α → M) {list : List α} {index : Nat}
    {old : α} (found : list[index]? = some old) (new : α) :
    ((list.set index new).map weight).sum + weight old = (list.map weight).sum + weight new := by
  induction list generalizing index with
  | nil => cases found
  | cons head tail ih =>
    cases index with
    | zero =>
      cases found
      simp only [List.set_cons_zero, List.map_cons, List.sum_cons]
      exact add_right_comm _ _ _ |>.trans (by rw [add_comm (weight new), add_right_comm])
    | succ index =>
      simp only [List.set_cons_succ, List.map_cons, List.sum_cons, add_assoc]
      rw [ih found]

/-- What a sum of multisets holds. -/
theorem mem_sum {α : Type} {parts : List (Multiset α)} {member : α} :
    member ∈ parts.sum ↔ ∃ part ∈ parts, member ∈ part := by
  induction parts with
  | nil => exact iff_of_false (Multiset.notMem_zero _) fun ⟨_, place, _⟩ => by cases place
  | cons head tail ih =>
    rw [List.sum_cons, Multiset.mem_add, ih]
    simp only [List.mem_cons, exists_eq_or_imp]

/-- One slot: what it was made from, and how many references to it there are. -/
structure Slot where
  dependencies : List Nat
  strong : Nat
deriving DecidableEq

/-- A heap of slots by address, and the slots that were cleaned, in order. -/
structure Heap where
  slots : List Slot
  cleaned : List Nat
deriving DecidableEq

namespace Heap

/-- What a slot was made from. -/
def dependencies (heap : Heap) (address : Nat) : List Nat :=
  (heap.slots[address]?.map Slot.dependencies).getD []

/-- How many references to a slot there are. -/
def strong (heap : Heap) (address : Nat) : Nat :=
  (heap.slots[address]?.map Slot.strong).getD 0

/-- Replaces a slot. -/
def put (heap : Heap) (address : Nat) (slot : Slot) : Heap :=
  { heap with slots := heap.slots.set address slot }

/-- Takes one more reference. -/
def retain (heap : Heap) (address : Nat) : Heap :=
  match heap.slots[address]? with
  | none => heap
  | some slot => heap.put address { slot with strong := slot.strong + 1 }

/-- Takes one more reference to each. -/
def retainAll (heap : Heap) (addresses : List Nat) : Heap := addresses.foldl retain heap

/-- Makes a slot from others, with one reference to it. -/
def alloc (heap : Heap) (dependencies : List Nat) : Heap :=
  { heap.retainAll dependencies with
    slots := (heap.retainAll dependencies).slots ++ [⟨dependencies, 1⟩] }

/-- **Lets one reference go.** The answer is what has to be let go next. -/
def release (heap : Heap) (address : Nat) : List Nat × Heap :=
  match heap.slots[address]? with
  | none => ([], heap)
  | some slot =>
    let lowered := heap.put address { slot with strong := slot.strong - 1 }
    if slot.strong = 1 then
      (slot.dependencies, { lowered with cleaned := lowered.cleaned ++ [address] })
    else ([], lowered)

/-- What the slots in use retain. -/
def retained (heap : Heap) : Multiset Nat :=
  (heap.slots.map fun slot => if slot.strong = 0 then 0 else (slot.dependencies : Multiset Nat)).sum

/-- How many references there are. -/
def references (heap : Heap) : Nat := (heap.slots.map Slot.strong).sum

/-- One slot was made from another. -/
def Retains (heap : Heap) (address dependency : Nat) : Prop :=
  dependency ∈ heap.dependencies address

/-- **What a root reaches.** -/
def Reached (heap : Heap) (roots : Multiset Nat) (address : Nat) : Prop :=
  ∃ root ∈ roots, Relation.ReflTransGen heap.Retains root address

/-- A later heap: what older slots were made from is what it was. -/
structure Extends (heap next : Heap) : Prop where
  length : heap.slots.length ≤ next.slots.length
  dependencies : ∀ address < heap.slots.length, next.dependencies address = heap.dependencies address

/-! ### One slot replaced -/

variable {heap next : Heap} {address : Nat} {slot : Slot}

theorem strong_of_slot (found : heap.slots[address]? = some slot) :
    heap.strong address = slot.strong := by
  unfold strong
  rw [found]
  rfl

theorem dependencies_of_slot (found : heap.slots[address]? = some slot) :
    heap.dependencies address = slot.dependencies := by
  unfold dependencies
  rw [found]
  rfl

theorem slot_of_strong (used : heap.strong address ≠ 0) :
    ∃ slot, heap.slots[address]? = some slot := by
  cases found : heap.slots[address]? with
  | none =>
    unfold strong at used
    rw [found] at used
    exact absurd rfl used
  | some slot => exact ⟨slot, rfl⟩

theorem lt_of_strong (used : heap.strong address ≠ 0) : address < heap.slots.length := by
  obtain ⟨slot, found⟩ := slot_of_strong used
  exact (List.getElem?_eq_some_iff.mp found).1

theorem slots_put (found : heap.slots[address]? = some slot) (new : Slot) (other : Nat) :
    (heap.put address new).slots[other]? = if address = other then some new else heap.slots[other]? := by
  unfold put
  by_cases same : address = other
  · subst same
    rw [if_pos rfl, List.getElem?_set_self (List.getElem?_eq_some_iff.mp found).1]
  · rw [if_neg same, List.getElem?_set_ne same]

theorem strong_put (found : heap.slots[address]? = some slot) (new : Slot) (other : Nat) :
    (heap.put address new).strong other = if address = other then new.strong else heap.strong other := by
  unfold strong
  rw [slots_put found]
  split
  · rfl
  · rfl

theorem dependencies_put (found : heap.slots[address]? = some slot) (new : Slot)
    (same : new.dependencies = slot.dependencies) (other : Nat) :
    (heap.put address new).dependencies other = heap.dependencies other := by
  unfold dependencies
  rw [slots_put found]
  by_cases equal : address = other
  · subst equal
    rw [if_pos rfl, found]
    exact same
  · rw [if_neg equal]

theorem length_put (new : Slot) : (heap.put address new).slots.length = heap.slots.length :=
  List.length_set

theorem retained_put (found : heap.slots[address]? = some slot) (new : Slot) :
    (heap.put address new).retained + (if slot.strong = 0 then 0 else (slot.dependencies : Multiset Nat)) =
      heap.retained + if new.strong = 0 then 0 else (new.dependencies : Multiset Nat) :=
  sum_map_set _ found new

theorem references_put (found : heap.slots[address]? = some slot) (new : Slot) :
    (heap.put address new).references + slot.strong = heap.references + new.strong :=
  sum_map_set Slot.strong found new

/-- Replacing a slot in use by one that is. -/
theorem retained_put_used (found : heap.slots[address]? = some slot) {new : Slot}
    (same : new.dependencies = slot.dependencies) (used : slot.strong ≠ 0) (still : new.strong ≠ 0) :
    (heap.put address new).retained = heap.retained := by
  have balance := retained_put found new
  rw [if_neg used, if_neg still, same] at balance
  exact add_right_cancel balance

theorem Extends.refl (heap : Heap) : heap.Extends heap := ⟨Nat.le_refl _, fun _ _ => rfl⟩

theorem Extends.trans {last : Heap} (first : heap.Extends next) (second : next.Extends last) :
    heap.Extends last where
  length := first.length.trans second.length
  dependencies := fun address inside =>
    (second.dependencies address (inside.trans_le first.length)).trans (first.dependencies address inside)

theorem extends_put (found : heap.slots[address]? = some slot) (new : Slot)
    (same : new.dependencies = slot.dependencies) : heap.Extends (heap.put address new) :=
  ⟨(length_put new).ge, fun other _ => dependencies_put found new same other⟩

/-! ### Soundness -/

/-- **Every reference is counted.** The cleaned slots are those without one, cleaned once, and each
after every slot that was made from it. -/
structure Sound (heap : Heap) (roots : Multiset Nat) : Prop where
  counted : ∀ address, heap.strong address = (roots + heap.retained).count address
  older : ∀ address, ∀ dependency ∈ heap.dependencies address, dependency < address
  cleaned : ∀ address,
    address ∈ heap.cleaned ↔ address < heap.slots.length ∧ heap.strong address = 0
  once : heap.cleaned.Nodup
  ordered : ∀ front address back, heap.cleaned = front ++ address :: back →
    ∀ dependent, heap.Retains dependent address → dependent ∈ front

variable {roots : Multiset Nat}

theorem sound_empty : (⟨[], []⟩ : Heap).Sound 0 where
  counted := fun _ => rfl
  older := fun _ _ member => by cases member
  cleaned := fun _ => iff_of_false List.not_mem_nil fun both => Nat.not_lt_zero _ both.1
  once := .nil
  ordered := fun front _ _ same => by cases front <;> cases same

theorem Sound.used_of_root (sound : heap.Sound roots) (root : address ∈ roots) :
    heap.strong address ≠ 0 := by
  rw [sound.counted]
  exact (Multiset.count_pos.mpr (Multiset.mem_add.mpr (.inl root))).ne'

/-- What a slot in use retains is among what is retained. -/
theorem retained_of_used {dependency : Nat} (used : heap.strong address ≠ 0)
    (retains : heap.Retains address dependency) : dependency ∈ heap.retained := by
  obtain ⟨slot, found⟩ := slot_of_strong used
  unfold Retains at retains
  rw [dependencies_of_slot found] at retains
  rw [strong_of_slot found] at used
  exact mem_sum.mpr ⟨_, List.mem_map.mpr ⟨slot, List.mem_of_getElem? found, if_neg used⟩,
    Multiset.mem_coe.mpr retains⟩

/-- What is retained is retained by a slot in use. -/
theorem used_of_retained {dependency : Nat} (member : dependency ∈ heap.retained) :
    ∃ address, heap.strong address ≠ 0 ∧ heap.Retains address dependency := by
  obtain ⟨part, place, inside⟩ := mem_sum.mp member
  obtain ⟨slot, listed, rfl⟩ := List.mem_map.mp place
  obtain ⟨address, found⟩ := List.mem_iff_getElem?.mp listed
  split at inside
  · exact absurd inside (Multiset.notMem_zero _)
  · rename_i used
    refine ⟨address, by rw [strong_of_slot found]; exact used, ?_⟩
    unfold Retains
    rw [dependencies_of_slot found]
    exact Multiset.mem_coe.mp inside

theorem Sound.used_of_used (sound : heap.Sound roots) {dependency : Nat}
    (used : heap.strong address ≠ 0) (retains : heap.Retains address dependency) :
    heap.strong dependency ≠ 0 := by
  rw [sound.counted]
  exact (Multiset.count_pos.mpr (Multiset.mem_add.mpr (.inr (retained_of_used used retains)))).ne'

theorem Sound.used_of_reached (sound : heap.Sound roots) (reached : heap.Reached roots address) :
    heap.strong address ≠ 0 := by
  obtain ⟨root, member, path⟩ := reached
  induction path with
  | refl => exact sound.used_of_root member
  | tail _ retains ih => exact sound.used_of_used ih retains

/-- Whoever retains a slot is younger, so following the references back ends at a root. -/
theorem Sound.reached_of_used (sound : heap.Sound roots) (used : heap.strong address ≠ 0) :
    heap.Reached roots address := by
  obtain ⟨distance, bound⟩ : ∃ distance, heap.slots.length ≤ address + distance :=
    ⟨heap.slots.length, Nat.le_add_left _ _⟩
  induction distance generalizing address with
  | zero =>
    have inside := lt_of_strong used
    omega
  | succ distance ih =>
    have positive : 0 < (roots + heap.retained).count address := by
      rw [← sound.counted]
      exact Nat.pos_of_ne_zero used
    rcases Multiset.mem_add.mp (Multiset.count_pos.mp positive) with root | inside
    · exact ⟨address, root, .refl⟩
    · obtain ⟨dependent, above, retains⟩ := used_of_retained inside
      have younger := sound.older dependent address retains
      obtain ⟨root, member, path⟩ := ih above (by omega)
      exact ⟨root, member, path.tail retains⟩

/-- **A slot is cleaned exactly when no root reaches it.** -/
theorem Sound.cleaned_iff_unreached (sound : heap.Sound roots) :
    address ∈ heap.cleaned ↔ address < heap.slots.length ∧ ¬ heap.Reached roots address := by
  rw [sound.cleaned]
  refine and_congr_right fun _ => ⟨fun unused reached => ?_, fun unreached => ?_⟩
  · exact sound.used_of_reached reached unused
  · by_contra used
    exact unreached (sound.reached_of_used used)

theorem retain_eq (found : heap.slots[address]? = some slot) :
    heap.retain address = heap.put address { slot with strong := slot.strong + 1 } := by
  unfold retain
  rw [found]

theorem strong_retain (used : heap.strong address ≠ 0) (other : Nat) :
    (heap.retain address).strong other = heap.strong other + if address = other then 1 else 0 := by
  obtain ⟨slot, found⟩ := slot_of_strong used
  rw [retain_eq found, strong_put found]
  by_cases same : address = other
  · subst same
    rw [if_pos rfl, if_pos rfl, strong_of_slot found]
  · rw [if_neg same, if_neg same]
    rfl

theorem length_retain (heap : Heap) (address : Nat) :
    (heap.retain address).slots.length = heap.slots.length := by
  unfold retain
  split
  · rfl
  · exact length_put _

theorem length_retainAll (heap : Heap) (addresses : List Nat) :
    (heap.retainAll addresses).slots.length = heap.slots.length := by
  unfold retainAll
  induction addresses generalizing heap with
  | nil => rfl
  | cons first rest ih => exact (ih (heap.retain first)).trans (length_retain heap first)

theorem extends_retain (heap : Heap) (address : Nat) : heap.Extends (heap.retain address) := by
  unfold retain
  split
  · exact .refl heap
  · rename_i slot found
    exact extends_put found _ rfl

/-- **One more reference to a slot in use.** -/
theorem Sound.retain (sound : heap.Sound roots) (used : heap.strong address ≠ 0) :
    (heap.retain address).Sound (address ::ₘ roots) := by
  have strong := strong_retain used
  obtain ⟨slot, found⟩ := slot_of_strong used
  rw [strong_of_slot found] at used
  have dependencies := dependencies_put found { slot with strong := slot.strong + 1 } rfl
  rw [← retain_eq found] at dependencies
  have retained : (heap.retain address).retained = heap.retained := by
    rw [retain_eq found]
    exact retained_put_used found rfl used (Nat.succ_ne_zero _)
  refine ⟨fun other => ?_, fun other => ?_, fun other => ?_, ?_, ?_⟩
  · rw [strong, retained, Multiset.cons_add, Multiset.count_cons, ← sound.counted]
    simp only [eq_comm]
  · rw [dependencies]
    exact sound.older other
  · rw [length_retain, strong, retain_eq found]
    refine (sound.cleaned other).trans (and_congr_right fun _ => ?_)
    by_cases same : address = other
    · subst same
      rw [if_pos rfl, strong_of_slot found]
      omega
    · rw [if_neg same]
      rfl
  · rw [retain_eq found]
    exact sound.once
  · intro front other back same dependent retains
    unfold Retains at retains
    rw [dependencies] at retains
    rw [retain_eq found] at same
    exact sound.ordered front other back same dependent retains

theorem Sound.retainAll {addresses : List Nat} (sound : heap.Sound roots)
    (used : ∀ address ∈ addresses, heap.strong address ≠ 0) :
    (heap.retainAll addresses).Sound (addresses + roots) := by
  unfold Heap.retainAll
  induction addresses generalizing heap roots with
  | nil =>
    rw [Multiset.coe_nil, zero_add]
    exact sound
  | cons first rest ih =>
    obtain ⟨here, others⟩ := List.forall_mem_cons.mp used
    have final := ih (sound.retain here) fun address member => by
      rw [strong_retain here]
      have := others address member
      omega
    rw [Multiset.add_cons, ← Multiset.cons_add, Multiset.cons_coe] at final
    exact final

theorem extends_retainAll (heap : Heap) (addresses : List Nat) :
    heap.Extends (heap.retainAll addresses) := by
  unfold retainAll
  induction addresses generalizing heap with
  | nil => exact .refl heap
  | cons first rest ih => exact (extends_retain heap first).trans (ih (heap.retain first))

/-! ### A new slot -/

theorem slots_alloc (heap : Heap) (dependencies : List Nat) (other : Nat) :
    (heap.alloc dependencies).slots[other]? =
      if other = heap.slots.length then some ⟨dependencies, 1⟩
      else (heap.retainAll dependencies).slots[other]? := by
  have length := length_retainAll heap dependencies
  unfold alloc
  simp only
  by_cases same : other = heap.slots.length
  · rw [if_pos same, same, ← length, List.getElem?_concat_length]
  · rw [if_neg same]
    by_cases inside : other < heap.slots.length
    · rw [List.getElem?_append_left (by omega)]
    · rw [List.getElem?_eq_none (by rw [List.length_append, List.length_singleton]; omega),
        List.getElem?_eq_none (by omega)]

theorem length_alloc (heap : Heap) (dependencies : List Nat) :
    (heap.alloc dependencies).slots.length = heap.slots.length + 1 := by
  unfold alloc
  simp only [List.length_append, List.length_singleton, length_retainAll]

theorem strong_alloc (heap : Heap) (dependencies : List Nat) (other : Nat) :
    (heap.alloc dependencies).strong other =
      if other = heap.slots.length then 1 else (heap.retainAll dependencies).strong other := by
  unfold strong
  rw [slots_alloc]
  split
  · rfl
  · rfl

theorem dependencies_alloc (heap : Heap) (dependencies : List Nat) (other : Nat) :
    (heap.alloc dependencies).dependencies other =
      if other = heap.slots.length then dependencies
      else (heap.retainAll dependencies).dependencies other := by
  unfold Heap.dependencies
  rw [slots_alloc]
  split
  · rfl
  · rfl

theorem retained_alloc (heap : Heap) (dependencies : List Nat) :
    (heap.alloc dependencies).retained =
      (heap.retainAll dependencies).retained + (dependencies : Multiset Nat) := by
  unfold alloc retained
  rw [List.map_append, List.sum_append]
  simp

theorem extends_alloc (heap : Heap) (dependencies : List Nat) :
    heap.Extends (heap.alloc dependencies) := by
  refine ⟨(length_alloc heap dependencies).ge.trans' (Nat.le_succ _), fun other inside => ?_⟩
  rw [dependencies_alloc, if_neg inside.ne]
  exact (extends_retainAll heap dependencies).dependencies other inside

/-- **A new slot, made from slots in use.** -/
theorem Sound.alloc {dependencies : List Nat} (sound : heap.Sound roots)
    (used : ∀ dependency ∈ dependencies, heap.strong dependency ≠ 0) :
    (heap.alloc dependencies).Sound (heap.slots.length ::ₘ roots) := by
  have length := length_retainAll heap dependencies
  have known := sound.retainAll used
  have fresh : (heap.retainAll dependencies).strong heap.slots.length = 0 := by
    by_contra used
    exact absurd (lt_of_strong used) (by omega)
  refine ⟨fun other => ?_, fun other dependency member => ?_, fun other => ?_, known.once,
    fun front other back same dependent retains => ?_⟩
  · have count := known.counted other
    rw [Multiset.count_add, Multiset.count_add] at count
    rw [strong_alloc, retained_alloc, Multiset.count_add, Multiset.count_add, Multiset.count_cons]
    by_cases same : other = heap.slots.length
    · rw [if_pos same, if_pos same]
      rw [same, fresh] at count
      rw [same]
      omega
    · rw [if_neg same, if_neg same]
      omega
  · rw [dependencies_alloc] at member
    by_cases same : other = heap.slots.length
    · rw [if_pos same] at member
      rw [same]
      exact lt_of_strong (used dependency member)
    · rw [if_neg same] at member
      exact known.older other dependency member
  · refine (known.cleaned other).trans ?_
    rw [length, length_alloc, strong_alloc]
    by_cases same : other = heap.slots.length
    · rw [if_pos same]
      omega
    · rw [if_neg same]
      omega
  · unfold Retains at retains
    rw [dependencies_alloc] at retains
    by_cases new : dependent = heap.slots.length
    · rw [if_pos new] at retains
      have unused := ((known.cleaned other).mp
        (by rw [show (heap.retainAll dependencies).cleaned = front ++ other :: back from same]
            exact List.mem_append_right front List.mem_cons_self)).2
      have kept : (heap.retainAll dependencies).strong other ≠ 0 :=
        known.used_of_root (Multiset.mem_add.mpr (.inl (Multiset.mem_coe.mpr retains)))
      exact absurd unused kept
    · rw [if_neg new] at retains
      exact known.ordered front other back same dependent retains

/-! ### A reference let go -/

theorem extends_release (heap : Heap) (address : Nat) : heap.Extends (heap.release address).2 := by
  unfold release
  split
  · exact .refl heap
  · rename_i slot found
    have onward := extends_put found { slot with strong := slot.strong - 1 } rfl
    simp only
    split
    · exact ⟨onward.length, onward.dependencies⟩
    · exact onward

theorem lt_of_retains {dependency : Nat} (retains : heap.Retains address dependency) :
    address < heap.slots.length := by
  by_contra outside
  unfold Retains dependencies at retains
  rw [List.getElem?_eq_none (Nat.le_of_not_lt outside)] at retains
  cases retains

/-- The slots after one reference less. -/
theorem Sound.lower (sound : heap.Sound (address ::ₘ roots)) (found : heap.slots[address]? = some slot) :
    (heap.put address { slot with strong := slot.strong - 1 }).references + 1 = heap.references ∧
      ∀ other, (heap.put address { slot with strong := slot.strong - 1 }).strong other =
        ((if slot.strong = 1 then (slot.dependencies : Multiset Nat) else 0) + roots +
          (heap.put address { slot with strong := slot.strong - 1 }).retained).count other := by
  have used := sound.used_of_root (Multiset.mem_cons_self address roots)
  rw [strong_of_slot found] at used
  have references := references_put found { slot with strong := slot.strong - 1 }
  have retained := retained_put found { slot with strong := slot.strong - 1 }
  rw [if_neg used] at retained
  simp only at references retained
  refine ⟨by omega, fun other => ?_⟩
  have count := sound.counted other
  have balance := congrArg (Multiset.count other) retained
  rw [strong_put found]
  simp only [Multiset.count_add, Multiset.count_cons] at count balance ⊢
  by_cases equal : address = other
  · subst equal
    rw [strong_of_slot found, if_pos rfl] at count
    rw [if_pos rfl]
    by_cases last : slot.strong = 1
    · rw [if_pos (by omega), Multiset.count_zero] at balance
      rw [if_pos last]
      omega
    · rw [if_neg (by omega)] at balance
      rw [if_neg last, Multiset.count_zero]
      omega
  · rw [if_neg (Ne.symm equal)] at count
    rw [if_neg equal]
    by_cases last : slot.strong = 1
    · rw [if_pos (by omega), Multiset.count_zero] at balance
      rw [if_pos last]
      omega
    · rw [if_neg (by omega)] at balance
      rw [if_neg last, Multiset.count_zero]
      omega

/-- **One reference let go**: what the slot retained is let go next, and there is one reference less. -/
theorem Sound.release (sound : heap.Sound (address ::ₘ roots)) :
    (heap.release address).2.Sound ((heap.release address).1 + roots) ∧
      (heap.release address).2.references + 1 = heap.references := by
  have used := sound.used_of_root (Multiset.mem_cons_self address roots)
  obtain ⟨slot, found⟩ := slot_of_strong used
  obtain ⟨references, counted⟩ := sound.lower found
  have dependencies := dependencies_put found { slot with strong := slot.strong - 1 } rfl
  have strong := strong_put found { slot with strong := slot.strong - 1 }
  have older (other dependency : Nat) (member : dependency ∈
      (heap.put address { slot with strong := slot.strong - 1 }).dependencies other) :
      dependency < other := by
    rw [dependencies] at member
    exact sound.older other dependency member
  have inner {front back : List Nat} {other : Nat} (split : heap.cleaned = front ++ other :: back)
      (dependent : Nat) (retains : (heap.put address { slot with strong := slot.strong - 1 }).Retains
        dependent other) : dependent ∈ front := by
    unfold Retains at retains
    rw [dependencies] at retains
    exact sound.ordered front other back split dependent retains
  rw [strong_of_slot found] at used
  unfold Heap.release
  rw [found]
  simp only
  by_cases last : slot.strong = 1
  · rw [if_pos last] at counted ⊢
    have fresh : address ∉ heap.cleaned := by
      intro member
      have unused := ((sound.cleaned address).mp member).2
      rw [strong_of_slot found] at unused
      exact used unused
    refine ⟨⟨counted, older, fun other => ?_, ?_, fun front other back split dependent retains => ?_⟩,
      references⟩
    · show other ∈ heap.cleaned ++ [address] ↔
        other < (heap.put address { slot with strong := slot.strong - 1 }).slots.length ∧
          (heap.put address { slot with strong := slot.strong - 1 }).strong other = 0
      rw [List.mem_append, List.mem_singleton, sound.cleaned, length_put, strong]
      by_cases equal : address = other
      · subst equal
        rw [if_pos rfl, last]
        exact ⟨fun _ => ⟨(List.getElem?_eq_some_iff.mp found).1, rfl⟩, fun _ => .inr rfl⟩
      · rw [if_neg equal]
        exact ⟨fun either => either.resolve_right (Ne.symm equal), .inl⟩
    · exact List.nodup_append.mpr ⟨sound.once, List.nodup_singleton _, fun member inside other place => by
        rw [List.mem_singleton.mp place]
        rintro rfl
        exact fresh inside⟩
    · rcases List.eq_nil_or_concat back with rfl | ⟨back, final, rfl⟩
      · obtain ⟨rfl, tail⟩ := List.append_inj' split rfl
        obtain ⟨rfl, _⟩ := List.cons.inj tail
        -- Whoever still used the slot would count as a reference to it.
        by_contra absent
        have different : address ≠ dependent := (older dependent address retains).ne
        have still : (heap.put address { slot with strong := slot.strong - 1 }).strong dependent ≠ 0 := by
          intro unused
          rw [strong, if_neg different] at unused
          have inside := lt_of_retains retains
          exact absent ((sound.cleaned dependent).mpr ⟨(length_put _) ▸ inside, unused⟩)
        have held := Multiset.count_pos.mpr (retained_of_used still retains)
        have zero := counted address
        rw [Multiset.count_add, strong, if_pos rfl] at zero
        simp only at zero
        omega
      · rw [List.concat_eq_append, ← List.cons_append, ← List.append_assoc] at split
        exact inner (List.append_inj' split rfl).1 dependent retains
  · rw [if_neg last] at counted ⊢
    refine ⟨⟨counted, older, fun other => ?_, sound.once, fun _ _ _ split => inner split⟩, references⟩
    rw [length_put, strong]
    refine (sound.cleaned other).trans (and_congr_right fun _ => ?_)
    by_cases equal : address = other
    · subst equal
      rw [if_pos rfl, strong_of_slot found]
      simp only
      omega
    · rw [if_neg equal]

end Heap

end Kernis
