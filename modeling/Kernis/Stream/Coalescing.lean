/-
**Coalescing keeps the newest item of every identity.**

A push replaces the pending item of its stream and key, and the new item goes to the tail.

* `CoalescedRun.run` — pushes and pops in any order, with what became of the items so far.
* `Coalesced` — what each step keeps: the items that were popped and the pending ones, in this order, are
  some of the accepted ones, and each pending item is the newest of its identity.
* `coalescing_exact` — the guarantees of a run whose streams are pushed in the order of their sequences.
-/

import Kernis.Stream

namespace Kernis

/-! ### The buffer -/

namespace CoalescingBuffer

variable {κ α : Type} [DecidableEq κ]

/-- Two items have one identity. -/
theorem sameIdentity_iff {item other : KeyedStreamItem κ α} :
    sameIdentity item other = true ↔
      other.key = item.key ∧ other.item.streamId = item.item.streamId := decide_eq_true_iff

theorem sameIdentity_comm (item other : KeyedStreamItem κ α) :
    sameIdentity item other = sameIdentity other item := by
  rw [Bool.eq_iff_iff, sameIdentity_iff, sameIdentity_iff]
  exact ⟨fun ⟨key, stream⟩ => ⟨key.symm, stream.symm⟩, fun ⟨key, stream⟩ => ⟨key.symm, stream.symm⟩⟩

theorem sameIdentity_trans {item middle other : KeyedStreamItem κ α}
    (first : sameIdentity item middle = true) (second : sameIdentity middle other = true) :
    sameIdentity item other = true := by
  rw [sameIdentity_iff] at *
  exact ⟨second.1.trans first.1, second.2.trans first.2⟩

/-- No two items have one identity. -/
def Distinct (items : List (KeyedStreamItem κ α)) : Prop :=
  items.Pairwise fun item other => sameIdentity item other = false

/-- What a push leaves of the pending items, and those that it replaces. -/
structure Leaves (item : KeyedStreamItem κ α) (items rest replaced : List (KeyedStreamItem κ α)) :
    Prop where
  order : rest.Sublist items
  split : items.Perm (rest ++ replaced)
  apart : ∀ other ∈ rest, sameIdentity item other = false
  same : ∀ existing ∈ replaced, sameIdentity item existing = true

/-- The first item of an identity is the only one. -/
theorem leaves_of_found {item existing : KeyedStreamItem κ α}
    {before after : List (KeyedStreamItem κ α)} (distinct : Distinct (before ++ existing :: after))
    (same : sameIdentity item existing = true)
    (others : ∀ other ∈ before, sameIdentity item other = false) :
    Leaves item (before ++ existing :: after) (before ++ after) [existing] where
  order := List.Sublist.append_left (List.sublist_cons_self existing after) before
  split := by
    refine List.perm_middle.trans ?_
    exact (List.perm_append_singleton existing (before ++ after)).symm
  apart := by
    intro other member
    rcases List.mem_append.mp member with first | last
    · exact others other first
    · obtain ⟨apart, _⟩ := List.pairwise_cons.mp (List.pairwise_append.mp distinct).2.1
      cases again : sameIdentity item other with
      | false => rfl
      | true =>
        rw [sameIdentity_comm] at same
        rw [← apart other last, sameIdentity_trans same again]
  same := by
    intro other member
    rw [List.mem_singleton.mp member]
    exact same

/-- **How a push ends**: it is accepted at the tail, or handed back. -/
theorem tryPush_cases {buffer : CoalescingBuffer κ α} (distinct : Distinct buffer.items)
    (item : KeyedStreamItem κ α) :
    (∃ next rest, buffer.tryPush item = .ok next ∧ next.capacity = buffer.capacity ∧
      next.items = rest ++ [item] ∧
      Leaves item buffer.items rest (buffer.items.find? (sameIdentity item)).toList) ∨
    (buffer.tryPush item = .error item ∧ buffer.items.length = buffer.capacity ∧
      ∀ other ∈ buffer.items, sameIdentity item other = false) := by
  unfold tryPush
  split
  · rename_i found
    obtain ⟨listed, member, same⟩ := List.any_eq_true.mp found
    obtain ⟨existing, before, after, others, again, items, erased⟩ :=
      List.exists_of_eraseP member same
    have apart : ∀ other ∈ before, sameIdentity item other = false :=
      fun other inside => Bool.eq_false_iff.mpr (others other inside)
    have first : buffer.items.find? (sameIdentity item) = some existing := by
      refine List.find?_eq_some_iff_append.mpr ⟨again, before, after, items, fun other inside => ?_⟩
      rw [apart other inside]
      rfl
    refine .inl ⟨_, before ++ after, rfl, rfl, congrArg (· ++ [item]) erased, ?_⟩
    rw [first, items]
    exact leaves_of_found (items ▸ distinct) again apart
  · rename_i new
    have apart : ∀ other ∈ buffer.items, sameIdentity item other = false :=
      fun other member => Bool.eq_false_iff.mpr fun same =>
        new (List.any_eq_true.mpr ⟨other, member, same⟩)
    split
    · rename_i full
      exact .inr ⟨rfl, full, apart⟩
    · have nothing : buffer.items.find? (sameIdentity item) = none :=
        List.find?_eq_none.mpr fun other member => Bool.eq_false_iff.mp (apart other member)
      refine .inl ⟨_, buffer.items, rfl, rfl, rfl, ?_⟩
      rw [nothing, Option.toList_none]
      exact ⟨.refl _, List.append_nil _ ▸ .refl _, apart, fun _ member => by cases member⟩

omit [DecidableEq κ] in
/-- A pop takes the oldest item, if there is one. -/
theorem pop_cases (buffer : CoalescingBuffer κ α) :
    (buffer.items = [] ∧ buffer.pop = none) ∨
    ∃ oldest next, buffer.pop = some (oldest, next) ∧ next.capacity = buffer.capacity ∧
      buffer.items = oldest :: next.items := by
  unfold pop
  split
  · rename_i empty
    exact .inl ⟨empty, rfl⟩
  · rename_i oldest rest pending
    exact .inr ⟨oldest, _, rfl, rfl, pending⟩

end CoalescingBuffer

/-! ### The run -/

/-- A coalescing buffer with what became of the items so far. -/
structure CoalescedRun (κ α : Type) where
  buffer : CoalescingBuffer κ α
  accepted : List (KeyedStreamItem κ α)
  popped : List (KeyedStreamItem κ α)
  replaced : List (KeyedStreamItem κ α × KeyedStreamItem κ α)
  handedBack : List (KeyedStreamItem κ α)

/-- What is done next: a push or a pop. -/
inductive CoalescingStep (κ α : Type)
  | tryPush (item : KeyedStreamItem κ α)
  | pop
deriving DecidableEq

/-- The item that a step pushes. -/
def CoalescingStep.pushed {κ α : Type} : CoalescingStep κ α → Option (KeyedStreamItem κ α)
  | .tryPush item => some item
  | .pop => none

namespace CoalescedRun

open CoalescingBuffer

variable {κ α : Type} [DecidableEq κ]

/-- A run that has not begun. -/
def new (capacity : Nat) : Except BufferError (CoalescedRun κ α) :=
  match CoalescingBuffer.new capacity with
  | .error error => .error error
  | .ok buffer => .ok ⟨buffer, [], [], [], []⟩

/-- Pushes an item. A pending item of its identity is replaced. -/
def tryPush (run : CoalescedRun κ α) (item : KeyedStreamItem κ α) : CoalescedRun κ α :=
  match run.buffer.tryPush item with
  | .error item => { run with handedBack := run.handedBack ++ [item] }
  | .ok buffer =>
    { run with
      buffer
      accepted := run.accepted ++ [item]
      replaced := run.replaced ++
        (run.buffer.items.find? (sameIdentity item)).toList.map fun existing => (existing, item) }

/-- Pops an item. -/
def pop (run : CoalescedRun κ α) : CoalescedRun κ α :=
  match run.buffer.pop with
  | none => run
  | some (item, buffer) => { run with buffer, popped := run.popped ++ [item] }

/-- A push or a pop. -/
def step (run : CoalescedRun κ α) : CoalescingStep κ α → CoalescedRun κ α
  | .tryPush item => run.tryPush item
  | .pop => run.pop

/-- Pushes and pops in any order. -/
def steps (run : CoalescedRun κ α) (all : List (CoalescingStep κ α)) : CoalescedRun κ α :=
  all.foldl step run

/-! ### What the steps keep -/

/-- An accepted item that no later one of its identity follows. -/
def Last (accepted : List (KeyedStreamItem κ α)) (item : KeyedStreamItem κ α) : Prop :=
  ∃ before after, accepted = before ++ item :: after ∧ ∀ other ∈ after, sameIdentity item other = false

/-- **What the steps keep.** The items that were popped and the pending ones are some of the accepted ones
in their order, the others were replaced by later ones, and a pending item is the last of its identity. -/
structure Coalesced (capacity : Nat) (pushed : List (KeyedStreamItem κ α)) (run : CoalescedRun κ α) :
    Prop where
  capacity : run.buffer.capacity = capacity
  distinct : Distinct run.buffer.items
  accepted : run.accepted.Sublist pushed
  order : (run.popped ++ run.buffer.items).Sublist run.accepted
  last : ∀ item ∈ run.buffer.items, Last run.accepted item
  kept : run.accepted.Perm (run.popped ++ run.buffer.items ++ run.replaced.map Prod.fst)
  replaced : ∀ pair ∈ run.replaced, sameIdentity pair.2 pair.1 = true ∧
    [pair.1, pair.2].Sublist run.accepted

namespace Coalesced

variable {capacity : Nat} {pushed : List (KeyedStreamItem κ α)} {run : CoalescedRun κ α}

theorem start (opened : new capacity = .ok run) : Coalesced capacity [] run := by
  unfold new CoalescingBuffer.new at opened
  split at opened
  · cases opened
  · rename_i buffer created
    split at created
    · cases created
      cases opened
      exact ⟨rfl, .nil, .refl _, .refl _, (fun _ member => by cases member), .refl _,
        (fun _ member => by cases member)⟩
    · cases created

/-- An item is accepted at the tail. -/
theorem accept (coalesced : Coalesced capacity pushed run) {item : KeyedStreamItem κ α}
    {buffer : CoalescingBuffer κ α} {rest replaced : List (KeyedStreamItem κ α)}
    (same : buffer.capacity = run.buffer.capacity) (items : buffer.items = rest ++ [item])
    (leaves : Leaves item run.buffer.items rest replaced) :
    Coalesced capacity (pushed ++ [item]) { run with
      buffer
      accepted := run.accepted ++ [item]
      replaced := run.replaced ++ replaced.map fun existing => (existing, item) } where
  capacity := same.trans coalesced.capacity
  distinct := by
    show Distinct buffer.items
    unfold Distinct
    rw [items]
    refine List.pairwise_append.mpr ⟨coalesced.distinct.sublist leaves.order,
      List.pairwise_singleton _ _, fun other member new inside => ?_⟩
    rw [List.mem_singleton.mp inside, sameIdentity_comm]
    exact leaves.apart other member
  accepted := coalesced.accepted.append_right _
  order := by
    show (run.popped ++ buffer.items).Sublist (run.accepted ++ [item])
    rw [items, ← List.append_assoc]
    have shorter := List.Sublist.append_left leaves.order run.popped
    exact (shorter.trans coalesced.order).append_right _
  last := by
    show ∀ other ∈ buffer.items, Last (run.accepted ++ [item]) other
    rw [items]
    intro other member
    rcases List.mem_append.mp member with old | new
    · obtain ⟨before, after, accepted, apart⟩ := coalesced.last other (leaves.order.subset old)
      refine ⟨before, after ++ [item], ?_, fun later inside => ?_⟩
      · rw [accepted, List.append_assoc, List.cons_append]
      · rcases List.mem_append.mp inside with before | now
        · exact apart later before
        · rw [List.mem_singleton.mp now, sameIdentity_comm]
          exact leaves.apart other old
    · rw [List.mem_singleton.mp new]
      exact ⟨run.accepted, [], rfl, fun _ inside => by cases inside⟩
  kept := by
    show (run.accepted ++ [item]).Perm (run.popped ++ buffer.items ++
      (run.replaced ++ replaced.map fun existing => (existing, item)).map Prod.fst)
    have firsts : (replaced.map fun existing => (existing, item)).map Prod.fst = replaced := by
      rw [List.map_map]
      exact List.map_id replaced
    have last : (replaced ++ (run.replaced.map Prod.fst ++ [item])).Perm
        ([item] ++ (run.replaced.map Prod.fst ++ replaced)) := by
      refine List.perm_append_comm.trans ?_
      rw [← List.append_assoc [item]]
      exact List.perm_append_comm.append_right replaced
    have before := (coalesced.kept.trans
      ((leaves.split.append_left run.popped).append_right (run.replaced.map Prod.fst))).append_right [item]
    refine before.trans ?_
    rw [items, List.map_append, firsts]
    simp only [List.append_assoc]
    exact (last.append_left rest).append_left run.popped
  replaced := by
    show ∀ pair ∈ run.replaced ++ replaced.map (fun existing => (existing, item)),
      sameIdentity pair.2 pair.1 = true ∧ [pair.1, pair.2].Sublist (run.accepted ++ [item])
    intro pair member
    rcases List.mem_append.mp member with before | now
    · obtain ⟨same, order⟩ := coalesced.replaced pair before
      exact ⟨same, order.trans (List.sublist_append_left _ _)⟩
    · obtain ⟨existing, listed, rfl⟩ := List.mem_map.mp now
      have pending : existing ∈ run.buffer.items :=
        leaves.split.mem_iff.mpr (List.mem_append_right _ listed)
      have accepted : existing ∈ run.accepted :=
        coalesced.order.subset (List.mem_append_right _ pending)
      exact ⟨leaves.same existing listed,
        (List.singleton_sublist.mpr accepted).append_right [item]⟩

/-- An item that is handed back changes nothing. -/
theorem handBack (coalesced : Coalesced capacity pushed run) (item : KeyedStreamItem κ α) :
    Coalesced capacity (pushed ++ [item]) { run with handedBack := run.handedBack ++ [item] } :=
  ⟨coalesced.capacity, coalesced.distinct,
    coalesced.accepted.trans (List.sublist_append_left _ _), coalesced.order, coalesced.last,
    coalesced.kept, coalesced.replaced⟩

theorem tryPush (coalesced : Coalesced capacity pushed run) (item : KeyedStreamItem κ α) :
    Coalesced capacity (pushed ++ [item]) (run.tryPush item) := by
  unfold CoalescedRun.tryPush
  rcases tryPush_cases coalesced.distinct item with
    ⟨buffer, rest, accepts, same, items, leaves⟩ | ⟨refused, _, _⟩
  · rw [accepts]
    exact coalesced.accept same items leaves
  · rw [refused]
    exact coalesced.handBack item

/-- The oldest pending item is popped. -/
theorem pop (coalesced : Coalesced capacity pushed run) : Coalesced capacity pushed run.pop := by
  unfold CoalescedRun.pop
  rcases pop_cases run.buffer with ⟨empty, nothing⟩ | ⟨oldest, buffer, popped, same, items⟩
  · rw [nothing]
    exact coalesced
  · rw [popped]
    have moved : run.popped ++ [oldest] ++ buffer.items = run.popped ++ run.buffer.items := by
      rw [items, List.append_assoc]
      rfl
    have listed : buffer.items.Sublist run.buffer.items := by
      rw [items]
      exact List.sublist_cons_self oldest buffer.items
    exact {
      capacity := same.trans coalesced.capacity
      distinct := coalesced.distinct.sublist listed
      accepted := coalesced.accepted
      order := moved ▸ coalesced.order
      last := fun item member => coalesced.last item (listed.subset member)
      kept := moved ▸ coalesced.kept
      replaced := coalesced.replaced }

/-- Every run keeps this, for the items that it pushes. -/
theorem steps (coalesced : Coalesced capacity pushed run) (all : List (CoalescingStep κ α)) :
    Coalesced capacity (pushed ++ all.filterMap CoalescingStep.pushed) (run.steps all) := by
  induction all generalizing run pushed with
  | nil => exact (List.append_nil pushed).symm ▸ coalesced
  | cons step rest ih =>
    cases step with
    | pop => exact ih coalesced.pop
    | tryPush item =>
      have later := ih (coalesced.tryPush item)
      rw [List.append_assoc] at later
      exact later

end Coalesced

/-! ### What a run guarantees -/

/-- The items of one stream come in the order of their sequences. -/
def Increasing (items : List (KeyedStreamItem κ α)) : Prop :=
  items.Pairwise fun item later =>
    item.item.streamId = later.item.streamId → item.item.sequence < later.item.sequence

/-- An accepted item, newer than every other of its identity. -/
def Newest (accepted : List (KeyedStreamItem κ α)) (item : KeyedStreamItem κ α) : Prop :=
  item ∈ accepted ∧ ∀ other ∈ accepted, sameIdentity item other = true →
    other = item ∨ other.item.sequence < item.item.sequence

omit [DecidableEq κ] in
/-- Some of the items come in this order too. -/
theorem Increasing.sublist {items some : List (KeyedStreamItem κ α)} (increasing : Increasing items)
    (order : some.Sublist items) : Increasing some :=
  List.Pairwise.sublist order increasing

/-- The last item of an identity is the newest. -/
theorem newest_of_last {accepted : List (KeyedStreamItem κ α)} {item : KeyedStreamItem κ α}
    (increasing : Increasing accepted) (last : Last accepted item) : Newest accepted item := by
  obtain ⟨before, after, rfl, apart⟩ := last
  refine ⟨List.mem_append_right _ List.mem_cons_self, fun other member same => ?_⟩
  rcases List.mem_append.mp member with earlier | later
  · have follows := (List.pairwise_append.mp increasing).2.2 other earlier item List.mem_cons_self
    exact .inr (follows (sameIdentity_iff.mp same).2)
  · rcases List.mem_cons.mp later with rfl | later
    · exact .inl rfl
    · rw [apart other later] at same
      cases same

/-- **What coalescing guarantees.** The buffer keeps its capacity and holds one item of an identity; the
pending items are in push order, and those that were popped are in the order of their sequences; an item
that is popped is the newest of its identity; every accepted item was popped, is pending or was replaced by a
newer one; and an item that is handed back leaves the buffer as it is. -/
structure Coalesces (capacity : Nat) (pushed : List (KeyedStreamItem κ α)) (run : CoalescedRun κ α) :
    Prop where
  bounded : run.buffer.capacity = capacity ∧ run.buffer.items.length ≤ capacity
  distinct : Distinct run.buffer.items
  accepted : run.accepted.Sublist pushed
  order : (run.popped ++ run.buffer.items).Sublist run.accepted
  increasing : Increasing run.popped
  newest : ∀ item buffer, run.buffer.pop = some (item, buffer) → Newest run.accepted item
  kept : run.accepted.Perm (run.popped ++ run.buffer.items ++ run.replaced.map Prod.fst)
  replaced : ∀ pair ∈ run.replaced, pair.2 ∈ run.accepted ∧ sameIdentity pair.2 pair.1 = true ∧
    pair.1.item.sequence < pair.2.item.sequence
  handsBack : ∀ item back, run.buffer.tryPush item = .error back →
    back = item ∧ (run.tryPush item).buffer = run.buffer ∧ run.buffer.items.length = capacity ∧
      ∀ other ∈ run.buffer.items, sameIdentity item other = false

/-- **Coalescing keeps the newest item of every identity**, in every run whose streams are pushed in the
order of their sequences. -/
theorem coalescing_exact (capacity : Nat) {run : CoalescedRun κ α} (opened : new capacity = .ok run)
    (all : List (CoalescingStep κ α)) (increasing : Increasing (all.filterMap CoalescingStep.pushed)) :
    Coalesces capacity (all.filterMap CoalescingStep.pushed) (run.steps all) := by
  have coalesced := (Coalesced.start opened).steps all
  rw [List.nil_append] at coalesced
  have accepted := increasing.sublist coalesced.accepted
  have bounded := (run.steps all).buffer.bounded
  rw [coalesced.capacity] at bounded
  refine ⟨⟨coalesced.capacity, bounded⟩, coalesced.distinct, coalesced.accepted, coalesced.order,
    accepted.sublist ((List.sublist_append_left _ _).trans coalesced.order), ?_, coalesced.kept, ?_, ?_⟩
  · intro item buffer popped
    rcases pop_cases (run.steps all).buffer with ⟨_, nothing⟩ | ⟨oldest, next, pops, _, items⟩
    · rw [nothing] at popped
      cases popped
    · rw [pops] at popped
      cases popped
      refine newest_of_last accepted (coalesced.last item ?_)
      rw [items]
      exact List.mem_cons_self
  · intro pair member
    obtain ⟨same, order⟩ := coalesced.replaced pair member
    have follows := List.pairwise_cons.mp (accepted.sublist order)
    exact ⟨order.subset (List.mem_cons_of_mem _ List.mem_cons_self), same,
      follows.1 pair.2 List.mem_cons_self (sameIdentity_iff.mp same).2⟩
  · intro item back refused
    rcases tryPush_cases coalesced.distinct item with ⟨next, _, accepts, _⟩ | ⟨refuses, full, apart⟩
    · rw [accepts] at refused
      cases refused
    · rw [refuses] at refused
      cases refused
      refine ⟨rfl, ?_, full.trans coalesced.capacity, apart⟩
      unfold CoalescedRun.tryPush
      rw [refuses]

/-- The stream of the sample. -/
def sampleProgress : Id := ⟨"progress".toList, by decide⟩

/-- Two keys, the first of which is pushed again before the pop. -/
def sampleSteps : List (CoalescingStep Nat Nat) :=
  [.tryPush ⟨0, sampleProgress, 1, 7⟩, .tryPush ⟨1, sampleProgress, 2, 8⟩,
    .tryPush ⟨0, sampleProgress, 3, 9⟩, .pop]

/-- The second item is popped, since the first one was replaced. -/
theorem coalescing_exact_sample : ∃ run : CoalescedRun Nat Nat, new 2 = .ok run ∧
    (run.steps sampleSteps).popped = [⟨1, sampleProgress, 2, 8⟩] ∧
    Coalesces 2 (sampleSteps.filterMap CoalescingStep.pushed) (run.steps sampleSteps) := by
  have increasing : Increasing (sampleSteps.filterMap CoalescingStep.pushed) := by
    unfold Increasing
    decide +kernel
  exact ⟨_, rfl, by decide +kernel, coalescing_exact 2 rfl sampleSteps increasing⟩

end CoalescedRun

end Kernis
