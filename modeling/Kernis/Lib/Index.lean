/-
**Ordered maps, and the maps that index an append-only history.**

* `BTreeMap`, `BTreeSet` — extensional ordered maps and sets: equal exactly when every lookup
  agrees, listed in key order.
* `Grows` — every entry of one map is an entry of the other.
* `Indexes key history index` — the history's keys are pairwise distinct and the map holds exactly
  the history's entries, each under its own key. `Indexes.push` appends an entry with a new key to
  both, and `Indexes.eq_of_same_history` says that the history determines the map.
* `Unseen` — values scanned against a set that collects them.
* `Alike` — two maps with the same keys and related values; their values are listed in step.
-/

import Mathlib.Data.List.Induction
import Kernis.Lib.Text

set_option linter.unusedSectionVars false

namespace Kernis

open Std

/-- An ordered map. -/
abbrev BTreeMap (α β : Type) [Ord α] := ExtTreeMap α β

/-- An ordered set. -/
abbrev BTreeSet (α : Type) [Ord α] := ExtTreeSet α

section Maps

variable {α β : Type} [Ord α] [TransOrd α] [LawfulEqOrd α] [DecidableEq α]

theorem lookup_insert (map : BTreeMap α β) (key other : α) (value : β) :
    (map.insert key value)[other]? = if key = other then some value else map[other]? := by
  rw [ExtTreeMap.getElem?_insert]
  simp only [Std.compare_eq_iff_eq]

theorem lookup_insert_self (map : BTreeMap α β) (key : α) (value : β) :
    (map.insert key value)[key]? = some value := by
  rw [lookup_insert, if_pos rfl]

theorem lookup_insert_ne (map : BTreeMap α β) {key other : α} (value : β) (different : key ≠ other) :
    (map.insert key value)[other]? = map[other]? := by
  rw [lookup_insert, if_neg different]

theorem lookup_none_of_not_mem {map : BTreeMap α β} {key : α} (absent : key ∉ map) :
    map[key]? = none :=
  ExtTreeMap.getElem?_eq_none absent

theorem not_mem_of_lookup_none {map : BTreeMap α β} {key : α} (none_ : map[key]? = none) :
    key ∉ map := by
  rw [ExtTreeMap.mem_iff_isSome_getElem?, none_]
  exact Bool.false_ne_true

theorem mem_of_lookup {map : BTreeMap α β} {key : α} {value : β} (found : map[key]? = some value) :
    key ∈ map := by
  rw [ExtTreeMap.mem_iff_isSome_getElem?, found]
  rfl

theorem exists_lookup_of_mem {map : BTreeMap α β} {key : α} (member : key ∈ map) :
    ∃ value, map[key]? = some value := by
  rw [ExtTreeMap.mem_iff_isSome_getElem?] at member
  exact Option.isSome_iff_exists.mp member

/-- Every entry of one map is an entry of the other. -/
def Grows (map other : BTreeMap α β) : Prop :=
  ∀ ⦃key : α⦄ ⦃value : β⦄, map[key]? = some value → other[key]? = some value

theorem Grows.refl (map : BTreeMap α β) : Grows map map := fun _ _ => id

theorem Grows.trans {first second third : BTreeMap α β} (left : Grows first second)
    (right : Grows second third) : Grows first third :=
  fun _ _ found => right (left found)

/-- Inserting under a new key keeps every entry. -/
theorem Grows.insert {map : BTreeMap α β} {key : α} (absent : key ∉ map) (value : β) :
    Grows map (map.insert key value) := by
  intro other held found
  have different : key ≠ other := by
    rintro rfl
    exact absent (mem_of_lookup found)
  rw [lookup_insert_ne _ _ different, found]

theorem mem_insert_iff (map : BTreeMap α β) (key other : α) (value : β) :
    other ∈ map.insert key value ↔ other = key ∨ other ∈ map := by
  rw [ExtTreeMap.mem_insert, Std.compare_eq_iff_eq, eq_comm]

/-- The values of a map in key order. -/
def valuesOf (map : BTreeMap α β) : List β := map.toList.map Prod.snd

omit [LawfulEqOrd α] in
theorem values_eq_valuesOf (map : BTreeMap α β) : map.values = valuesOf map := by
  obtain ⟨⟨inner⟩⟩ := map
  induction inner using Quotient.ind with
  | _ inner =>
    show inner.inner.values = (DTreeMap.Internal.Impl.Const.toList inner.inner).map Prod.snd
    rw [DTreeMap.Internal.Impl.values_eq_map_snd,
      DTreeMap.Internal.Impl.Const.toList_eq_toListModel_map]
    simp

theorem mem_valuesOf {map : BTreeMap α β} {value : β} :
    value ∈ valuesOf map ↔ ∃ key : α, map[key]? = some value := by
  unfold valuesOf
  rw [List.mem_map]
  constructor
  · rintro ⟨⟨key, held⟩, member, rfl⟩
    exact ⟨key, ExtTreeMap.mem_toList_iff_getElem?_eq_some.mp member⟩
  · rintro ⟨key, found⟩
    exact ⟨(key, value), ExtTreeMap.mem_toList_iff_getElem?_eq_some.mpr found, rfl⟩

/-- What is found after inserting a list of entries was inserted. -/
theorem exists_of_foldl_insert {γ : Type} {name : γ → α} {entry : γ → β} {values : List γ} {key : α}
    {value : β}
    (found : (values.foldl (fun (built : BTreeMap α β) one => built.insert (name one) (entry one))
      ∅)[key]? = some value) : ∃ one ∈ values, name one = key ∧ entry one = value := by
  induction values using List.reverseRecOn with
  | nil => simp at found
  | append_singleton values last ih =>
    rw [List.foldl_append, List.foldl_cons, List.foldl_nil, lookup_insert] at found
    split at found
    · exact ⟨last, List.mem_append_right _ (List.mem_singleton.mpr rfl), ‹_›, Option.some.inj found⟩
    · obtain ⟨one, member, same⟩ := ih found
      exact ⟨one, List.mem_append_left _ member, same⟩

/-- The keys of a map, each once. -/
theorem nodup_names (map : BTreeMap α β) : (map.toList.map Prod.fst).Nodup := by
  rw [List.Nodup, List.pairwise_map]
  refine ExtTreeMap.distinct_keys_toList.imp fun different same => different ?_
  rw [same]
  exact compare_self

theorem lookup_erase (map : BTreeMap α β) (key other : α) :
    (map.erase key)[other]? = if key = other then none else map[other]? := by
  rw [ExtTreeMap.getElem?_erase]
  simp only [Std.compare_eq_iff_eq]

theorem nodup_entries (map : BTreeMap α β) : map.toList.Nodup := (nodup_names map).of_map _

/-- The values of a map, one of them apart. -/
theorem valuesOf_perm {map : BTreeMap α β} {key : α} {value : β} (found : map[key]? = some value) :
    (valuesOf map).Perm (value :: valuesOf (map.erase key)) := by
  have entries : map.toList.Perm ((key, value) :: (map.erase key).toList) := by
    have apart : (key, value) ∉ (map.erase key).toList := by
      rw [ExtTreeMap.mem_toList_iff_getElem?_eq_some, lookup_erase, if_pos rfl]
      exact Option.some_ne_none value ∘ Eq.symm
    refine (List.perm_ext_iff_of_nodup (nodup_entries map)
      (List.nodup_cons.mpr ⟨apart, nodup_entries _⟩)).mpr fun entry => ?_
    obtain ⟨other, held⟩ := entry
    rw [List.mem_cons, ExtTreeMap.mem_toList_iff_getElem?_eq_some,
      ExtTreeMap.mem_toList_iff_getElem?_eq_some, lookup_erase, Prod.mk.injEq]
    by_cases same : key = other
    · subst same
      rw [found, if_pos rfl]
      simp [eq_comm]
    · rw [if_neg same]
      simp [Ne.symm same]
  exact entries.map Prod.snd

theorem erase_insert (map : BTreeMap α β) (key : α) (value : β) :
    (map.insert key value).erase key = map.erase key := by
  refine ExtTreeMap.ext_getElem? fun other => ?_
  rw [lookup_erase, lookup_erase, lookup_insert]
  by_cases same : key = other
  · rw [if_pos same, if_pos same]
  · rw [if_neg same, if_neg same, if_neg same]

theorem erase_of_none {map : BTreeMap α β} {key : α} (absent : map[key]? = none) :
    map.erase key = map := by
  refine ExtTreeMap.ext_getElem? fun other => ?_
  rw [lookup_erase]
  by_cases same : key = other
  · rw [if_pos same, ← same, absent]
  · rw [if_neg same]

/-- The values of a map through a function, inserted one by one into another map, override it. -/
theorem lookup_foldl_over {γ : Type} (project : β → γ) (map : BTreeMap α β) (base : BTreeMap α γ)
    (key : α) :
    (map.toList.foldl (fun (built : BTreeMap α γ) (entry : α × β) =>
      built.insert entry.1 (project entry.2)) base)[key]? =
      ((map[key]?).map project).or base[key]? := by
  have absent : ∀ entries : List (α × β), key ∉ entries.map Prod.fst →
      (entries.foldl (fun (built : BTreeMap α γ) (entry : α × β) =>
        built.insert entry.1 (project entry.2)) base)[key]? = base[key]? := by
    intro entries
    induction entries using List.reverseRecOn with
    | nil => exact fun _ => rfl
    | append_singleton entries last ih =>
      intro missing
      rw [List.map_append, List.mem_append, not_or] at missing
      have different : last.1 ≠ key := fun same => missing.2 (by rw [← same]; simp)
      rw [List.foldl_append, List.foldl_cons, List.foldl_nil, lookup_insert_ne _ _ different,
        ih missing.1]
  have present : ∀ entries : List (α × β), (entries.map Prod.fst).Nodup →
      ∀ held, (key, held) ∈ entries →
      (entries.foldl (fun (built : BTreeMap α γ) (entry : α × β) =>
        built.insert entry.1 (project entry.2)) base)[key]? = some (project held) := by
    intro entries
    induction entries using List.reverseRecOn with
    | nil => simp
    | append_singleton entries last ih =>
      intro distinct held member
      rw [List.map_append, List.nodup_append] at distinct
      rw [List.foldl_append, List.foldl_cons, List.foldl_nil, lookup_insert]
      rcases List.mem_append.mp member with old | new
      · have different : last.1 ≠ key := fun same =>
          distinct.2.2 key (List.mem_map.mpr ⟨_, old, rfl⟩) last.1 (by simp) same.symm
        rw [if_neg different, ih distinct.1 held old]
      · rw [← List.mem_singleton.mp new, if_pos rfl]
  cases found : map[key]? with
  | some held =>
    exact present map.toList (nodup_names map) held (ExtTreeMap.mem_toList_iff_getElem?_eq_some.mpr found)
  | none =>
    refine absent map.toList fun member => ?_
    obtain ⟨⟨other, held⟩, inside, rfl⟩ := List.mem_map.mp member
    rw [ExtTreeMap.mem_toList_iff_getElem?_eq_some.mp inside] at found
    cases found

/-- The values of a map through a function, inserted one by one into an empty map. -/
theorem lookup_foldl_insert {γ : Type} (project : β → γ) (map : BTreeMap α β) (key : α) :
    (map.toList.foldl (fun (built : BTreeMap α γ) (entry : α × β) =>
      built.insert entry.1 (project entry.2)) ∅)[key]? = (map[key]?).map project := by
  rw [lookup_foldl_over, ExtTreeMap.getElem?_empty, Option.or_none]

/-! ### Lists of named values -/

/-- What a list with distinct names holds is found under its name. -/
theorem lookup_of_mem {pairs : List (α × β)} {key : α} {value : β}
    (distinct : (pairs.map Prod.fst).Nodup) (member : (key, value) ∈ pairs) :
    pairs.lookup key = some value := by
  induction pairs with
  | nil => cases member
  | cons first rest ih =>
    obtain ⟨other, held⟩ := first
    rw [List.map_cons, List.nodup_cons] at distinct
    rw [List.lookup_cons]
    rcases List.mem_cons.mp member with same | inside
    · cases same
      rw [beq_self_eq_true]
    · have different : key ≠ other := by
        rintro rfl
        exact distinct.1 (List.mem_map.mpr ⟨_, inside, rfl⟩)
      rw [beq_eq_false_iff_ne.mpr different]
      exact ih distinct.2 inside

/-- The members of a set, each once. -/
theorem nodup_toList (set : BTreeSet α) : set.toList.Nodup := by
  refine ExtTreeSet.distinct_toList.imp fun different same => different ?_
  rw [same]
  exact compare_self

end Maps

section Indexes

variable {α β : Type} [Ord α] [TransOrd α] [LawfulEqOrd α] [DecidableEq α] {key : β → α}

/-- **The map agrees entry by entry with the history, whose keys are pairwise distinct.** -/
structure Indexes (key : β → α) (history : List β) (index : BTreeMap α β) : Prop where
  unique : (history.map key).Nodup
  agrees : ∀ at_ value, index[at_]? = some value ↔ value ∈ history ∧ key value = at_

namespace Indexes

variable {history : List β} {index : BTreeMap α β}

theorem empty : Indexes key ([] : List β) (∅ : BTreeMap α β) where
  unique := List.nodup_nil
  agrees := by simp

/-- A map whose values carry their own keys indexes its values. -/
theorem of_values {map : BTreeMap α β}
    (own : ∀ (at_ : α) (value : β), map[at_]? = some value → key value = at_) :
    Indexes key (valuesOf map) map where
  unique := by
    have keys : (valuesOf map).map key = map.toList.map Prod.fst := by
      unfold valuesOf
      rw [List.map_map]
      refine List.map_congr_left fun entry member => ?_
      exact own entry.1 entry.2 (ExtTreeMap.mem_toList_iff_getElem?_eq_some.mp member)
    rw [keys, List.Nodup, List.pairwise_map]
    refine ExtTreeMap.distinct_keys_toList.imp fun different same => different ?_
    rw [same]
    exact compare_self
  agrees := by
    intro at_ value
    rw [mem_valuesOf]
    constructor
    · intro found
      exact ⟨⟨at_, found⟩, own at_ value found⟩
    · rintro ⟨⟨key', found⟩, rfl⟩
      rw [own key' value found]
      exact found

theorem lookup (indexed : Indexes key history index) {entry : β} (member : entry ∈ history) :
    index[key entry]? = some entry :=
  (indexed.agrees _ _).mpr ⟨member, rfl⟩

theorem key_of_lookup (indexed : Indexes key history index) {at_ : α} {entry : β}
    (found : index[at_]? = some entry) : key entry = at_ :=
  ((indexed.agrees _ _).mp found).2

theorem mem_of_lookup (indexed : Indexes key history index) {at_ : α} {entry : β}
    (found : index[at_]? = some entry) : entry ∈ history :=
  ((indexed.agrees _ _).mp found).1

theorem mem_iff (indexed : Indexes key history index) {at_ : α} :
    at_ ∈ index ↔ at_ ∈ history.map key := by
  constructor
  · intro member
    obtain ⟨entry, found⟩ := exists_lookup_of_mem member
    obtain ⟨inside, same⟩ := (indexed.agrees _ _).mp found
    exact List.mem_map.mpr ⟨entry, inside, same⟩
  · intro member
    obtain ⟨entry, inside, rfl⟩ := List.mem_map.mp member
    exact Kernis.mem_of_lookup (indexed.lookup inside)

/-- **Appending an entry with a new key to the history and to its index.** -/
theorem push (indexed : Indexes key history index) {entry : β} (fresh : key entry ∉ index) :
    Indexes key (history ++ [entry]) (index.insert (key entry) entry) where
  unique := by
    rw [List.map_append, List.nodup_append]
    refine ⟨indexed.unique, List.nodup_singleton _, ?_⟩
    rintro at_ old _ new rfl
    rw [List.mem_singleton.mp new, ← indexed.mem_iff] at old
    exact fresh old
  agrees := by
    intro at_ value
    rw [lookup_insert, List.mem_append, List.mem_singleton]
    by_cases same : key entry = at_
    · rw [if_pos same]
      constructor
      · rintro ⟨⟩
        exact ⟨Or.inr rfl, same⟩
      · rintro ⟨old | rfl, found⟩
        · exact absurd (Kernis.mem_of_lookup (indexed.lookup old)) (by rw [found, ← same]; exact fresh)
        · rfl
    · rw [if_neg same, indexed.agrees]
      constructor
      · rintro ⟨old, found⟩
        exact ⟨Or.inl old, found⟩
      · rintro ⟨old | rfl, found⟩
        · exact ⟨old, found⟩
        · exact absurd found same

/-- The index of a history is determined by it. -/
theorem eq_of_same_history {other : BTreeMap α β} (first : Indexes key history index)
    (second : Indexes key history other) : index = other := by
  refine ExtTreeMap.ext_getElem? fun at_ => ?_
  cases found : index[at_]? with
  | some value => exact ((second.agrees _ _).mpr ((first.agrees _ _).mp found)).symm
  | none =>
    cases other_found : other[at_]? with
    | none => rfl
    | some value =>
      rw [(first.agrees _ _).mpr ((second.agrees _ _).mp other_found)] at found
      cases found

/-- Inserting values one after the other, each under its own key. -/
theorem foldl_insert {values : List β} (distinct : (values.map key).Nodup) :
    Indexes key values (values.foldl (fun (built : BTreeMap α β) value =>
      built.insert (key value) value) ∅) := by
  induction values using List.reverseRecOn with
  | nil => exact .empty
  | append_singleton values last ih =>
    rw [List.map_append, List.nodup_append] at distinct
    obtain ⟨front, _, apart⟩ := distinct
    rw [List.foldl_append]
    refine (ih front).push fun member => ?_
    exact apart _ ((ih front).mem_iff.mp member) _ (List.mem_singleton.mpr rfl) rfl

/-- An index is as large as its history. -/
theorem size (indexed : Indexes key history index) : index.size = history.length := by
  have keys : (index.keys).Perm (history.map key) := by
    refine (List.perm_ext_iff_of_nodup ?_ indexed.unique).mpr fun at_ => ?_
    · exact ExtTreeMap.nodup_keys
    · rw [ExtTreeMap.mem_keys, indexed.mem_iff]
  rw [← ExtTreeMap.length_keys, keys.length_eq, List.length_map]
end Indexes

end Indexes

section Unseen

variable {α : Type} [Ord α] [TransOrd α] [LawfulEqOrd α] [DecidableEq α]

/-- Pairwise distinct values, none of them in a set of seen ones. -/
def Unseen (seen : BTreeSet α) (values : List α) : Prop :=
  values.Nodup ∧ ∀ value ∈ values, value ∉ seen

theorem unseen_empty {values : List α} : Unseen ∅ values ↔ values.Nodup := by simp [Unseen]

/-- Values are scanned one by one, each added to the seen ones. -/
theorem unseen_cons {seen : BTreeSet α} {value : α} {values : List α} :
    Unseen seen (value :: values) ↔ value ∉ seen ∧ Unseen (seen.insert value) values := by
  have inserted : ∀ other : α, other ∈ seen.insert value ↔ value = other ∨ other ∈ seen := by
    intro other
    rw [ExtTreeSet.mem_insert, Std.compare_eq_iff_eq]
  unfold Unseen
  rw [List.nodup_cons, List.forall_mem_cons]
  constructor
  · rintro ⟨⟨once, distinct⟩, fresh, others⟩
    refine ⟨fresh, distinct, fun other member old => ?_⟩
    rcases (inserted other).mp old with rfl | old
    · exact once member
    · exact others other member old
  · rintro ⟨fresh, distinct, others⟩
    refine ⟨⟨fun member => others value member ((inserted value).mpr (.inl rfl)), distinct⟩, fresh,
      fun other member old => others other member ((inserted other).mpr (.inr old))⟩

end Unseen

section Alike

variable {α β γ : Type} [Ord α] [TransOrd α] [LawfulEqOrd α] [DecidableEq α]

/-- **Two maps with the same keys and related values.** -/
def Alike (Related : β → γ → Prop) (map : BTreeMap α β) (other : BTreeMap α γ) : Prop :=
  ∀ key : α, Option.Rel Related map[key]? other[key]?

theorem valuesOf_eq_filterMap (map : BTreeMap α β) :
    valuesOf map = map.keys.filterMap fun key => map[key]? := by
  rw [valuesOf, ← ExtTreeMap.map_fst_toList_eq_keys, List.filterMap_map, ← List.filterMap_eq_map]
  refine List.filterMap_congr fun entry member => ?_
  exact (ExtTreeMap.mem_toList_iff_getElem?_eq_some.mp member).symm

namespace Alike

variable {Related : β → γ → Prop} {map : BTreeMap α β} {other : BTreeMap α γ}

theorem mem_iff (alike : Alike Related map other) (key : α) : key ∈ map ↔ key ∈ other := by
  have related := alike key
  constructor
  · intro member
    obtain ⟨value, found⟩ := exists_lookup_of_mem member
    rw [found] at related
    cases held : other[key]? with
    | none =>
      rw [held] at related
      cases related
    | some value => exact mem_of_lookup held
  · intro member
    obtain ⟨value, found⟩ := exists_lookup_of_mem member
    rw [found] at related
    cases held : map[key]? with
    | none =>
      rw [held] at related
      cases related
    | some value => exact mem_of_lookup held

theorem keys (alike : Alike Related map other) : map.keys = other.keys := by
  have ordered : ∀ {δ : Type} (map : BTreeMap α δ), map.keys.Pairwise
      fun left right => compare left right = .lt := fun map => ExtTreeMap.ordered_keys
  have distinct : ∀ {δ : Type} (map : BTreeMap α δ), map.keys.Nodup := fun map =>
    (ordered map).imp fun less same => by
      rw [same, compare_self] at less
      cases less
  refine List.Perm.eq_of_pairwise (fun left right _ _ less greater => ?_) (ordered map)
    (ordered other) ((List.perm_ext_iff_of_nodup (distinct map) (distinct other)).mpr fun key => ?_)
  · have impossible := TransCmp.lt_trans less greater
    rw [compare_self] at impossible
    cases impossible
  · rw [ExtTreeMap.mem_keys, ExtTreeMap.mem_keys]
    exact alike.mem_iff key

/-- The values are related one by one, in key order. -/
theorem values (alike : Alike Related map other) :
    List.Forall₂ Related (valuesOf map) (valuesOf other) := by
  rw [valuesOf_eq_filterMap, valuesOf_eq_filterMap, ← alike.keys]
  induction map.keys with
  | nil => exact .nil
  | cons key rest ih =>
    have related := alike key
    rw [List.filterMap_cons, List.filterMap_cons]
    cases held : map[key]? with
    | none =>
      rw [held] at related
      cases missing : other[key]? with
      | none => exact ih
      | some value =>
        rw [missing] at related
        cases related
    | some value =>
      rw [held] at related
      cases found : other[key]? with
      | none =>
        rw [found] at related
        cases related
      | some value =>
        rw [found] at related
        cases related with
        | some one => exact .cons one ih

/-- Indexes of lists whose values are related in step are alike. -/
theorem of_indexes {key : β → α} {keyOther : γ → α} {history : List β} {historyOther : List γ}
    (indexed : Indexes key history map) (indexedOther : Indexes keyOther historyOther other)
    (keys : ∀ value held, Related value held → key value = keyOther held)
    (values : List.Forall₂ Related history historyOther) : Alike Related map other := by
  have forth : ∀ {first : List β} {second : List γ}, List.Forall₂ Related first second →
      (∀ value ∈ first, ∃ held ∈ second, Related value held) ∧
        ∀ held ∈ second, ∃ value ∈ first, Related value held := by
    intro first second related
    induction related with
    | nil => simp
    | @cons value held _ _ one _ ih =>
      refine ⟨List.forall_mem_cons.mpr ⟨⟨held, List.mem_cons_self, one⟩, fun other member => ?_⟩,
        List.forall_mem_cons.mpr ⟨⟨value, List.mem_cons_self, one⟩, fun other member => ?_⟩⟩
      · obtain ⟨found, inside, same⟩ := ih.1 other member
        exact ⟨found, List.mem_cons_of_mem _ inside, same⟩
      · obtain ⟨found, inside, same⟩ := ih.2 other member
        exact ⟨found, List.mem_cons_of_mem _ inside, same⟩
  intro at_
  cases found : map[at_]? with
  | some value =>
    obtain ⟨inside, same⟩ := (indexed.agrees _ _).mp found
    obtain ⟨held, member, related⟩ := (forth values).1 value inside
    rw [(indexedOther.agrees at_ held).mpr ⟨member, (keys value held related).symm.trans same⟩]
    exact .some related
  | none =>
    cases held : other[at_]? with
    | none => exact .none
    | some value =>
      obtain ⟨inside, same⟩ := (indexedOther.agrees _ _).mp held
      obtain ⟨first, member, related⟩ := (forth values).2 value inside
      rw [(indexed.agrees at_ first).mpr ⟨member, (keys first value related).trans same⟩] at found
      cases found

end Alike

end Alike

end Kernis
