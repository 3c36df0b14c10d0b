/-
**Effects are disposed of in reverse order.**

* `Orderly` — what each turn keeps. For every scope, what the log says of its effects and what is still to
  come are together its effects in reverse order, each one started and ended before the next.
* `Move` — what a turn can do. `moves_of_step`, `Orderly.move`: a turn changes nothing, or it is a move, and
  a move keeps the order.
* `Orderly.once` — an effect is run at most once.
-/

import Kernis.Capability.EffectScope

namespace Kernis

namespace EffectTree

variable {tree next : EffectTree} {scope : Nat}

/-! ### What is owned and what is logged -/

/-- The effects that were registered in a scope, in this order. -/
def ownedBy (tree : EffectTree) (scope : Nat) : List OwnedEffect :=
  tree.registered.filter fun effect => effect.owner = scope

/-- The scope of an effect that begins or ends. -/
def ownerOf : EffectEvent → Option Nat
  | .started effect => some effect.owner
  | .ended effect => some effect.owner
  | .disposing _ => none
  | .disposed _ _ => none

/-- What the log says of the effects of a scope. -/
def ofScope (scope : Nat) (log : List EffectEvent) : List EffectEvent :=
  log.filter fun event => ownerOf event = some scope

/-- Some effects run, each to its end. -/
def oneByOne (effects : List OwnedEffect) : List EffectEvent :=
  effects.flatMap fun effect => [.started effect, .ended effect]

/-- What a disposal still does. -/
def leftOf (disposing : Disposing) : List EffectEvent :=
  disposing.current.toList.map .ended ++ oneByOne disposing.effects

/-- What the disposals of a scope still do. -/
def pending (scope : Nat) (running : List Disposing) : List EffectEvent :=
  running.flatMap fun disposing => if disposing.scope = scope then leftOf disposing else []

theorem ofScope_append (scope : Nat) (log more : List EffectEvent) :
    ofScope scope (log ++ more) = ofScope scope log ++ ofScope scope more := List.filter_append log more

/-- An event of a scope. -/
theorem ofScope_own {event : EffectEvent} (own : ownerOf event = some scope) :
    ofScope scope [event] = [event] := List.filter_cons_of_pos (decide_eq_true own)

/-- An event of another scope, or of none. -/
theorem ofScope_other {event : EffectEvent} (other : ownerOf event ≠ some scope) :
    ofScope scope [event] = [] := List.filter_cons_of_neg (mt of_decide_eq_true other)

theorem pending_own {disposing : Disposing} {outer : List Disposing} (own : disposing.scope = scope) :
    pending scope (disposing :: outer) = leftOf disposing ++ pending scope outer := by
  unfold pending
  rw [List.flatMap_cons, if_pos own]

theorem pending_other {disposing : Disposing} {outer : List Disposing} (other : disposing.scope ≠ scope) :
    pending scope (disposing :: outer) = pending scope outer := by
  unfold pending
  rw [List.flatMap_cons, if_neg other, List.nil_append]

/-! ### What the turns keep -/

/-- What a scope has done and will do once its disposal has begun. -/
def due (tree : EffectTree) (scope : Nat) : List EffectEvent :=
  if (tree.scopeAt scope).closed then oneByOne (tree.ownedBy scope).reverse else []

/-- **What the turns keep.** An open scope holds the effects that were registered in it, a closed one none;
what the log says of a scope and what its disposals still do is all that is due. -/
structure Orderly (tree : EffectTree) : Prop where
  numbered : tree.registered.map (fun effect => effect.number) = List.range tree.registered.length
  below : ∀ effect ∈ tree.registered, effect.owner < tree.scopes.length ∧
    ∀ child, effect.disposer = .child child → effect.owner < child ∧ child < tree.scopes.length
  placed : ∀ child, 0 < child → child < tree.scopes.length →
    ∃ effect ∈ tree.registered, effect.disposer = .child child
  held : ∀ scope, (tree.scopeAt scope).effects =
    if (tree.scopeAt scope).closed then [] else tree.ownedBy scope
  traced : ∀ scope, ofScope scope tree.log ++ pending scope tree.running = tree.due scope
  begun : ∀ scope, .disposing scope ∈ tree.log ↔ (tree.scopeAt scope).closed = true
  owned : ∀ disposing ∈ tree.running,
    ∀ effect ∈ disposing.current.toList ++ disposing.effects, effect.owner = disposing.scope

/-! ### Scopes -/

/-- A scope that is replaced, and maybe a new one. -/
theorem scopeAt_set (tree : EffectTree) {scope : Nat} (there : scope < tree.scopes.length)
    (value : EffectScope) (other : Nat) :
    ((tree.scopes.set scope value)[other]?).getD ⟨[], false⟩ =
      if other = scope then value else tree.scopeAt other := by
  unfold scopeAt
  rw [List.getElem?_set]
  by_cases same : scope = other
  · subst same
    rw [if_pos rfl, if_pos there, if_pos rfl, Option.getD_some]
  · rw [if_neg same, if_neg (Ne.symm same)]

/-- A new scope is empty and open, as one that is not there yet. -/
theorem getD_append_blank (scopes : List EffectScope) (other : Nat) :
    ((scopes ++ [⟨[], false⟩])[other]?).getD ⟨[], false⟩ = (scopes[other]?).getD ⟨[], false⟩ := by
  rw [List.getElem?_append]
  by_cases inside : other < scopes.length
  · rw [if_pos inside]
  · rw [if_neg inside, List.getElem?_eq_none (Nat.le_of_not_lt inside), Option.getD_none]
    cases at_ : other - scopes.length with
    | zero => rfl
    | succ more => rfl

/-- A scope that is replaced, with or without a new one. -/
theorem scopeAt_add (tree : EffectTree) {scope : Nat} (there : scope < tree.scopes.length)
    (value : EffectScope) {more : List EffectScope} (blank : more = [] ∨ more = [⟨[], false⟩])
    (other : Nat) : ((tree.scopes.set scope value ++ more)[other]?).getD ⟨[], false⟩ =
      if other = scope then value else tree.scopeAt other := by
  rw [← scopeAt_set tree there]
  rcases blank with rfl | rfl
  · rw [List.append_nil]
  · exact getD_append_blank _ other

/-- The effects of a scope after one more was registered. -/
theorem ownedBy_add (tree : EffectTree) (effect : OwnedEffect) (other : Nat) :
    (tree.registered ++ [effect]).filter (fun effect => effect.owner = other) =
      tree.ownedBy other ++ if other = effect.owner then [effect] else [] := by
  unfold ownedBy
  rw [List.filter_append]
  congr 1
  by_cases same : other = effect.owner
  · rw [if_pos same]
    exact List.filter_cons_of_pos (decide_eq_true same.symm)
  · rw [if_neg same]
    exact List.filter_cons_of_neg (mt of_decide_eq_true (Ne.symm same))

/-- An effect is registered in an open scope. -/
theorem register_ok {label : Text} {disposer : EffectDisposer}
    (registers : tree.register scope label disposer = .ok next) :
    scope < tree.scopes.length ∧ (tree.scopeAt scope).closed = false ∧
      ∃ effect : OwnedEffect, effect.number = tree.registered.length ∧ effect.owner = scope ∧
        effect.disposer = disposer ∧
        next = { tree with
          scopes := tree.scopes.set scope ⟨(tree.scopeAt scope).effects ++ [effect], false⟩
          registered := tree.registered ++ [effect] } := by
  unfold register at registers
  split at registers
  · rename_i effects found
    cases registers
    have there := (List.getElem?_eq_some_iff.mp found).1
    unfold scopeAt
    rw [found]
    exact ⟨there, rfl, ⟨⟨tree.registered.length, label⟩, scope, disposer⟩, rfl, rfl, rfl, rfl⟩
  · cases registers

/-! ### The turns -/

namespace Orderly

/-- Nothing has been registered, and nothing runs. -/
theorem start : Orderly new where
  numbered := rfl
  below := fun _ member => by cases member
  placed := by
    intro child above below
    exact absurd below (by simp only [new, List.length_singleton]; omega)
  held := by
    intro scope
    cases scope with
    | zero => rfl
    | succ scope => rfl
  traced := by
    intro scope
    cases scope with
    | zero => rfl
    | succ scope => rfl
  begun := by
    intro scope
    refine ⟨(fun member => by cases member), fun closed => ?_⟩
    cases scope with
    | zero => cases closed
    | succ scope => cases closed
  owned := fun _ member => by cases member

/-- A registration, with the child scope whose place the effect is. -/
theorem add (orderly : Orderly tree) (there : scope < tree.scopes.length)
    (opened : (tree.scopeAt scope).closed = false) {effect : OwnedEffect} {more : List EffectScope}
    (number : effect.number = tree.registered.length) (owner : effect.owner = scope)
    (fits : (effect.disposer = .host ∧ more = []) ∨
      (effect.disposer = .child tree.scopes.length ∧ more = [⟨[], false⟩])) :
    Orderly { tree with
      scopes := tree.scopes.set scope ⟨(tree.scopeAt scope).effects ++ [effect], false⟩ ++ more
      registered := tree.registered ++ [effect] } := by
  let after : EffectTree := { tree with
    scopes := tree.scopes.set scope ⟨(tree.scopeAt scope).effects ++ [effect], false⟩ ++ more
    registered := tree.registered ++ [effect] }
  have scopes (other : Nat) : after.scopeAt other =
      if other = scope then ⟨(tree.scopeAt scope).effects ++ [effect], false⟩ else tree.scopeAt other :=
    scopeAt_add tree there _ (fits.imp And.right And.right) other
  have closed (other : Nat) : (after.scopeAt other).closed = (tree.scopeAt other).closed := by
    rw [scopes other]
    by_cases same : other = scope
    · rw [if_pos same, same, opened]
    · rw [if_neg same]
  have owned (other : Nat) : after.ownedBy other =
      tree.ownedBy other ++ if other = scope then [effect] else [] := by
    rw [← owner]
    exact ownedBy_add tree effect other
  have length : after.scopes.length = tree.scopes.length + more.length := by
    show (_ ++ more).length = _
    rw [List.length_append, List.length_set]
  exact {
    numbered := by
      show (tree.registered ++ [effect]).map (fun effect => effect.number) =
        List.range (tree.registered ++ [effect]).length
      rw [List.map_append, orderly.numbered, List.length_append, List.length_singleton,
        List.range_succ, List.map_singleton, number]
    below := by
      show ∀ other ∈ tree.registered ++ [effect], other.owner < after.scopes.length ∧
        ∀ child, other.disposer = .child child → other.owner < child ∧ child < after.scopes.length
      rw [length]
      intro other member
      rcases List.mem_append.mp member with before | new
      · obtain ⟨owner, below⟩ := orderly.below other before
        refine ⟨by omega, fun child place => ?_⟩
        obtain ⟨above, within⟩ := below child place
        exact ⟨above, by omega⟩
      · rw [List.mem_singleton.mp new, owner]
        refine ⟨by omega, fun child place => ?_⟩
        rcases fits with ⟨host, _⟩ | ⟨nested, rfl⟩
        · rw [host] at place
          cases place
        · rw [nested] at place
          cases place
          exact ⟨there, Nat.lt_succ_self _⟩
    placed := by
      show ∀ child, 0 < child → child < after.scopes.length →
        ∃ other ∈ tree.registered ++ [effect], other.disposer = .child child
      rw [length]
      intro child above within
      by_cases old : child < tree.scopes.length
      · obtain ⟨other, member, place⟩ := orderly.placed child above old
        exact ⟨other, List.mem_append_left _ member, place⟩
      · rcases fits with ⟨_, rfl⟩ | ⟨nested, rfl⟩
        · exact absurd within old
        · rw [List.length_singleton] at within
          have last : child = tree.scopes.length := by omega
          exact ⟨effect, List.mem_append_right _ (List.mem_singleton.mpr rfl), last ▸ nested⟩
    held := by
      intro other
      rw [closed other, scopes other, owned other]
      have before := orderly.held other
      by_cases same : other = scope
      · rw [same, opened] at before
        rw [if_pos same, same, opened, before, if_pos rfl]
        rfl
      · rw [if_neg same, if_neg same, before, List.append_nil]
    traced := by
      intro other
      show ofScope other tree.log ++ pending other tree.running = after.due other
      rw [orderly.traced other]
      unfold due
      rw [closed other, owned other]
      by_cases same : other = scope
      · rw [same, opened]
        rfl
      · rw [if_neg same, List.append_nil]
    begun := by
      intro other
      show .disposing other ∈ tree.log ↔ _
      rw [closed other]
      exact orderly.begun other
    owned := orderly.owned }

/-- The beginning of a disposal. -/
theorem dispose (orderly : Orderly tree) (there : scope < tree.scopes.length) :
    Orderly { tree with
      scopes := tree.scopes.set scope ⟨[], true⟩
      running := ⟨scope, (tree.scopeAt scope).effects.reverse, none, []⟩ :: tree.running
      log := tree.log ++ [.disposing scope] } := by
  let after : EffectTree := { tree with
    scopes := tree.scopes.set scope ⟨[], true⟩
    running := ⟨scope, (tree.scopeAt scope).effects.reverse, none, []⟩ :: tree.running
    log := tree.log ++ [.disposing scope] }
  have scopes (other : Nat) : after.scopeAt other =
      if other = scope then ⟨[], true⟩ else tree.scopeAt other := scopeAt_set tree there _ other
  have length : after.scopes.length = tree.scopes.length := List.length_set
  have logged (other : Nat) : ofScope other after.log = ofScope other tree.log := by
    show ofScope other (tree.log ++ [.disposing scope]) = _
    rw [ofScope_append, ofScope_other (fun own => by cases own), List.append_nil]
  exact {
    numbered := orderly.numbered
    below := by
      rw [length]
      exact orderly.below
    placed := by
      rw [length]
      exact orderly.placed
    held := by
      intro other
      rw [scopes other]
      by_cases same : other = scope
      · rw [if_pos same]
        rfl
      · rw [if_neg same]
        exact orderly.held other
    traced := by
      intro other
      have before := orderly.traced other
      have held := orderly.held other
      unfold due at before ⊢
      rw [logged other, scopes other]
      show _ ++ pending other (_ :: tree.running) = if _ then oneByOne (tree.ownedBy other).reverse else []
      by_cases same : other = scope
      · rw [same] at before held ⊢
        have runs : pending scope (⟨scope, (tree.scopeAt scope).effects.reverse, none, []⟩ :: tree.running) =
            oneByOne (tree.scopeAt scope).effects.reverse ++ pending scope tree.running := pending_own rfl
        rw [if_pos rfl, if_pos rfl, runs]
        cases closed : (tree.scopeAt scope).closed with
        | true =>
          -- A scope that is closed has no effects left.
          rw [closed, if_pos rfl] at before held
          rw [held]
          exact before
        | false =>
          rw [closed, if_neg (by decide)] at before held
          obtain ⟨nothing, idle⟩ := List.append_eq_nil_iff.mp before
          rw [held, nothing, idle, List.append_nil]
          rfl
      · rw [if_neg same, pending_other (Ne.symm same)]
        exact before
    begun := by
      intro other
      show .disposing other ∈ tree.log ++ [.disposing scope] ↔ _
      rw [scopes other, List.mem_append, List.mem_singleton]
      by_cases same : other = scope
      · rw [if_pos same, same]
        exact ⟨fun _ => rfl, fun _ => .inr rfl⟩
      · rw [if_neg same, ← orderly.begun other]
        refine ⟨fun member => ?_, .inl⟩
        rcases member with before | now
        · exact before
        · cases now
          exact absurd rfl same
    owned := by
      intro disposing member
      rcases List.mem_cons.mp member with rfl | before
      · intro effect taken
        have holds : effect ∈ (tree.scopeAt scope).effects := List.mem_reverse.mp taken
        rw [orderly.held scope] at holds
        split at holds
        · cases holds
        · exact of_decide_eq_true (List.mem_filter.mp holds).2
      · exact orderly.owned disposing before }

/-- A turn of the innermost disposal that keeps the scopes: what it logs of the scope is the next that was
left. -/
theorem proceed (orderly : Orderly tree) {disposing after : Disposing} {outer : List Disposing}
    {event : EffectEvent} (running : tree.running = disposing :: outer) (scope : after.scope = disposing.scope)
    (own : ownerOf event = some disposing.scope) (left : leftOf disposing = event :: leftOf after)
    (owned : ∀ effect ∈ after.current.toList ++ after.effects,
      effect ∈ disposing.current.toList ++ disposing.effects) :
    Orderly { tree with running := after :: outer, log := tree.log ++ [event] } where
  numbered := orderly.numbered
  below := orderly.below
  placed := orderly.placed
  held := orderly.held
  traced := by
    intro other
    have before := orderly.traced other
    show ofScope other (tree.log ++ [event]) ++ pending other (after :: outer) = tree.due other
    rw [← before, running, ofScope_append]
    by_cases same : disposing.scope = other
    · rw [pending_own same, pending_own (scope.trans same), ofScope_own (same ▸ own), left,
        List.append_assoc]
      rfl
    · have apart : ownerOf event ≠ some other := by
        rw [own]
        exact fun again => same (Option.some.inj again)
      rw [pending_other same, pending_other (scope ▸ same), ofScope_other apart, List.append_nil]
  begun := by
    intro other
    show .disposing other ∈ tree.log ++ [event] ↔ (tree.scopeAt other).closed = true
    rw [← orderly.begun other, List.mem_append, List.mem_singleton]
    refine ⟨fun member => ?_, .inl⟩
    rcases member with before | now
    · exact before
    · rw [← now] at own
      cases own
  owned := by
    intro other member
    rcases List.mem_cons.mp member with rfl | before
    · intro effect inside
      rw [scope]
      exact orderly.owned disposing (running ▸ List.mem_cons_self) effect (owned effect inside)
    · exact orderly.owned other (running ▸ List.mem_cons_of_mem _ before)

/-- The return of the innermost disposal. -/
theorem pop (orderly : Orderly tree) {disposing : Disposing} {outer : List Disposing}
    {errors : List EffectError} (running : tree.running = disposing :: outer)
    (done : leftOf disposing = []) :
    Orderly { tree with running := outer, log := tree.log ++ [.disposed disposing.scope errors] } where
  numbered := orderly.numbered
  below := orderly.below
  placed := orderly.placed
  held := orderly.held
  traced := by
    intro other
    show ofScope other (tree.log ++ [.disposed disposing.scope errors]) ++ pending other outer =
      tree.due other
    rw [← orderly.traced other, running, ofScope_append, ofScope_other (fun own => by cases own),
      List.append_nil]
    by_cases same : disposing.scope = other
    · rw [pending_own same, done, List.nil_append]
    · rw [pending_other same]
  begun := by
    intro other
    show .disposing other ∈ tree.log ++ [.disposed disposing.scope errors] ↔
      (tree.scopeAt other).closed = true
    rw [← orderly.begun other, List.mem_append, List.mem_singleton]
    refine ⟨fun member => ?_, .inl⟩
    rcases member with before | now
    · exact before
    · cases now
  owned := fun other member => orderly.owned other (running ▸ List.mem_cons_of_mem _ member)

end Orderly

/-! ### Each turn is a move -/

/-- **What a turn can do.** The innermost disposal is the first of those that run. -/
inductive Move (tree : EffectTree) : EffectTree → Prop
  | add {scope : Nat} {effect : OwnedEffect} {more : List EffectScope}
      (there : scope < tree.scopes.length) (opened : (tree.scopeAt scope).closed = false)
      (number : effect.number = tree.registered.length) (owner : effect.owner = scope)
      (fits : (effect.disposer = .host ∧ more = []) ∨
        (effect.disposer = .child tree.scopes.length ∧ more = [⟨[], false⟩])) :
      Move tree { tree with
        scopes := tree.scopes.set scope ⟨(tree.scopeAt scope).effects ++ [effect], false⟩ ++ more
        registered := tree.registered ++ [effect] }
  | dispose {scope : Nat} (there : scope < tree.scopes.length) (accepts : tree.accepts = true) :
      Move tree { tree with
        scopes := tree.scopes.set scope ⟨[], true⟩
        running := ⟨scope, (tree.scopeAt scope).effects.reverse, none, []⟩ :: tree.running
        log := tree.log ++ [.disposing scope] }
  | start {disposing : Disposing} {outer : List Disposing} {effect : OwnedEffect}
      {rest : List OwnedEffect} (running : tree.running = disposing :: outer)
      (idle : disposing.current = none) (next : disposing.effects = effect :: rest)
      (host : effect.disposer = .host) :
      Move tree { tree with
        running := { disposing with effects := rest, current := some effect } :: outer
        log := tree.log ++ [.started effect] }
  | enter {disposing : Disposing} {outer : List Disposing} {effect : OwnedEffect}
      {rest : List OwnedEffect} {child : Nat} (running : tree.running = disposing :: outer)
      (idle : disposing.current = none) (next : disposing.effects = effect :: rest)
      (nested : effect.disposer = .child child) :
      Move tree { tree with
        scopes := tree.scopes.set child ⟨[], true⟩
        running := ⟨child, (tree.scopeAt child).effects.reverse, none, []⟩ ::
          { disposing with effects := rest, current := some effect } :: outer
        log := tree.log ++ [.started effect] ++ [.disposing child] }
  | finish {disposing : Disposing} {outer : List Disposing} {effect : OwnedEffect}
      (running : tree.running = disposing :: outer) (current : disposing.current = some effect)
      (host : effect.disposer = .host) (errors : List EffectError) :
      Move tree { tree with
        running := { disposing with current := none, errors } :: outer
        log := tree.log ++ [.ended effect] }
  | giveBack {disposing : Disposing} {outer : List Disposing}
      (running : tree.running = disposing :: outer) (idle : disposing.current = none)
      (done : disposing.effects = []) :
      Move tree { tree with
        running := outer
        log := tree.log ++ [.disposed disposing.scope disposing.errors] }
  | leave {disposing waiting : Disposing} {outer : List Disposing} {effect : OwnedEffect} {child : Nat}
      (running : tree.running = disposing :: waiting :: outer) (idle : disposing.current = none)
      (done : disposing.effects = []) (current : waiting.current = some effect)
      (nested : effect.disposer = .child child) (errors : List EffectError) :
      Move tree { tree with
        running := { waiting with current := none, errors } :: outer
        log := tree.log ++ [.disposed disposing.scope disposing.errors] ++ [.ended effect] }

/-- What is left of a disposal that waits for no effect. -/
theorem leftOf_idle {disposing : Disposing} (idle : disposing.current = none) :
    leftOf disposing = oneByOne disposing.effects := by
  unfold leftOf
  rw [idle]
  rfl

/-- What is left of a disposal that waits for an effect. -/
theorem leftOf_current {disposing : Disposing} {effect : OwnedEffect}
    (current : disposing.current = some effect) :
    leftOf disposing = .ended effect :: oneByOne disposing.effects := by
  unfold leftOf
  rw [current]
  rfl

/-- The next effect of a disposal begins. -/
theorem Orderly.begin (orderly : Orderly tree) {disposing : Disposing} {outer : List Disposing}
    {effect : OwnedEffect} {rest : List OwnedEffect} (running : tree.running = disposing :: outer)
    (idle : disposing.current = none) (next : disposing.effects = effect :: rest) :
    Orderly { tree with
      running := { disposing with effects := rest, current := some effect } :: outer
      log := tree.log ++ [.started effect] } := by
  have owner : effect.owner = disposing.scope := by
    refine orderly.owned disposing (running ▸ List.mem_cons_self) effect (List.mem_append_right _ ?_)
    rw [next]
    exact List.mem_cons_self
  refine orderly.proceed running rfl (congrArg some owner) ?_ fun other member => ?_
  · rw [leftOf_idle idle, next]
    rfl
  · rw [next]
    exact List.mem_append_right _ member

/-- The effect that a disposal waits for ends. -/
theorem Orderly.finish (orderly : Orderly tree) {disposing : Disposing} {outer : List Disposing}
    {effect : OwnedEffect} (running : tree.running = disposing :: outer)
    (current : disposing.current = some effect) (errors : List EffectError) :
    Orderly { tree with
      running := { disposing with current := none, errors } :: outer
      log := tree.log ++ [.ended effect] } := by
  have owner : effect.owner = disposing.scope := by
    refine orderly.owned disposing (running ▸ List.mem_cons_self) effect (List.mem_append_left _ ?_)
    rw [current]
    exact List.mem_singleton.mpr rfl
  exact orderly.proceed running rfl (congrArg some owner) (leftOf_current current)
    fun other member => List.mem_append_right _ member

/-- What is left of a disposal belongs to its scope. -/
theorem Orderly.due_of_left (orderly : Orderly tree) {disposing : Disposing}
    (runs : disposing ∈ tree.running) {event : EffectEvent} (left : event ∈ leftOf disposing) :
    event ∈ tree.due disposing.scope := by
  rw [← orderly.traced disposing.scope]
  refine List.mem_append_right _ (List.mem_flatMap.mpr ⟨disposing, runs, ?_⟩)
  rw [if_pos rfl]
  exact left

/-- What is due of a scope are its effects. -/
theorem mem_due {effect : OwnedEffect} (member : .started effect ∈ tree.due scope) :
    effect ∈ tree.registered ∧ effect.owner = scope := by
  unfold due at member
  split at member
  · obtain ⟨other, inside, same⟩ := List.mem_flatMap.mp member
    obtain ⟨registered, owner⟩ := List.mem_filter.mp (List.mem_reverse.mp inside)
    rcases List.mem_cons.mp same with started | ended
    · cases started
      exact ⟨registered, of_decide_eq_true owner⟩
    · cases List.mem_singleton.mp ended
  · cases member

/-- An effect that a disposal has taken is registered. -/
theorem Orderly.registered_of_next (orderly : Orderly tree) {disposing : Disposing}
    {effect : OwnedEffect} {rest : List OwnedEffect} (runs : disposing ∈ tree.running)
    (next : disposing.effects = effect :: rest) :
    effect ∈ tree.registered ∧ effect.owner = disposing.scope := by
  refine mem_due (orderly.due_of_left runs (List.mem_append_right _ ?_))
  rw [next]
  exact List.mem_cons_self

/-- **A move keeps the order.** -/
theorem Orderly.move (orderly : Orderly tree) (moves : Move tree next) : Orderly next := by
  cases moves with
  | add there opened number owner fits => exact orderly.add there opened number owner fits
  | dispose there _ => exact orderly.dispose there
  | start running idle next _ => exact orderly.begin running idle next
  | enter running idle next nested =>
    obtain ⟨registered, _⟩ := orderly.registered_of_next (running ▸ List.mem_cons_self) next
    have there := ((orderly.below _ registered).2 _ nested).2
    exact (orderly.begin running idle next).dispose there
  | finish running current _ errors => exact orderly.finish running current errors
  | giveBack running idle done =>
    refine orderly.pop running ?_
    rw [leftOf_idle idle, done]
    rfl
  | leave running idle done current _ errors =>
    refine (orderly.pop running ?_).finish rfl current errors
    rw [leftOf_idle idle, done]
    rfl

/-- A disposal begins for a scope of the tree. -/
theorem disposeAll_of_lt (tree : EffectTree) {scope : Nat} (there : scope < tree.scopes.length) :
    tree.disposeAll scope = { tree with
      scopes := tree.scopes.set scope ⟨[], true⟩
      running := ⟨scope, (tree.scopeAt scope).effects.reverse, none, []⟩ :: tree.running
      log := tree.log ++ [.disposing scope] } := by
  unfold disposeAll scopeAt
  rw [List.getElem?_eq_getElem there]
  rfl

/-- A call changes nothing, or it is a move. -/
theorem moves_of_perform (accepts : tree.accepts = true) (call : EffectCall) :
    tree.perform call = tree ∨ Move tree (tree.perform call) := by
  cases call with
  | register scope label =>
    unfold perform
    simp only
    cases registers : tree.register scope label .host with
    | error error => exact .inl rfl
    | ok next =>
      obtain ⟨there, opened, effect, number, owner, host, rfl⟩ := register_ok registers
      have moves := Move.add there opened number owner (.inl ⟨host, rfl⟩)
      rw [List.append_nil] at moves
      exact .inr moves
  | child scope label =>
    unfold perform child
    simp only
    cases registers : tree.register scope label (.child tree.scopes.length) with
    | error error => exact .inl rfl
    | ok next =>
      obtain ⟨there, opened, effect, number, owner, nested, rfl⟩ := register_ok registers
      exact .inr (.add there opened number owner (.inr ⟨nested, rfl⟩))
  | disposeAll scope =>
    show tree.disposeAll scope = tree ∨ Move tree (tree.disposeAll scope)
    by_cases there : scope < tree.scopes.length
    · rw [disposeAll_of_lt tree there]
      exact .inr (.dispose there accepts)
    · left
      unfold disposeAll
      rw [List.getElem?_eq_none (Nat.le_of_not_lt there)]

/-- The end of the host's disposer changes nothing, or it is a move. -/
theorem moves_of_finish (ready : tree.accepts = true) (result : Except Text Unit) :
    tree.finish result = tree ∨ Move tree (tree.finish result) := by
  unfold finish
  split
  · rename_i scope effects effect errors outer running
    unfold accepts at ready
    rw [running] at ready
    exact .inr (.finish running rfl (of_decide_eq_true ready) _)
  · exact .inl rfl

/-- A turn of the innermost disposal changes nothing, or it is a move. -/
theorem moves_of_advance (orderly : Orderly tree) : tree.advance = tree ∨ Move tree tree.advance := by
  unfold advance
  split
  · exact .inl rfl
  · rename_i disposing outer running
    split
    · exact .inl rfl
    · rename_i idle done
      right
      unfold giveBack
      simp only
      split
      · rename_i scope effects errors owned owner child rest
        exact .leave running idle done rfl rfl _
      · exact .giveBack running idle done
    · rename_i effect rest idle more
      right
      unfold start
      simp only
      cases disposer : effect.disposer with
      | host => exact .start running idle more disposer
      | child child =>
        obtain ⟨registered, _⟩ := orderly.registered_of_next (running ▸ List.mem_cons_self) more
        have there := ((orderly.below _ registered).2 child disposer).2
        have begins := disposeAll_of_lt { tree with
          running := { disposing with effects := rest, current := some effect } :: outer
          log := tree.log ++ [.started effect] } there
        simp only
        rw [begins]
        exact .enter running idle more disposer

/-- **A turn changes nothing, or it is a move.** -/
theorem moves_of_step (orderly : Orderly tree) (turn : EffectTurn) :
    tree.step turn = tree ∨ Move tree (tree.step turn) := by
  cases turn with
  | call call =>
    unfold step
    by_cases ready : tree.accepts = true
    · simp only [if_pos ready]
      exact moves_of_perform ready call
    · exact .inl (if_neg ready)
  | finish result =>
    unfold step
    by_cases ready : tree.running ≠ [] ∧ tree.accepts = true
    · simp only [if_pos ready]
      exact moves_of_finish ready.2 result
    · exact .inl (if_neg ready)
  | advance => exact moves_of_advance orderly

/-! ### Counting -/

/-- An effect starts as often as it is listed. -/
theorem count_started (effects : List OwnedEffect) (effect : OwnedEffect) :
    (oneByOne effects).count (.started effect) = effects.count effect := by
  induction effects with
  | nil => rfl
  | cons first rest ih =>
    have split : oneByOne (first :: rest) = .started first :: .ended first :: oneByOne rest := rfl
    rw [split, List.count_cons, List.count_cons_of_ne (fun same => by cases same), ih, List.count_cons]
    by_cases same : first = effect
    · rw [same, beq_self_eq_true, beq_self_eq_true]
    · have apart : (EffectEvent.started first == .started effect) = false :=
        beq_false_of_ne fun again => same (EffectEvent.started.inj again)
      rw [apart, beq_false_of_ne same]

/-- An effect ends as often as it is listed. -/
theorem count_ended (effects : List OwnedEffect) (effect : OwnedEffect) :
    (oneByOne effects).count (.ended effect) = effects.count effect := by
  induction effects with
  | nil => rfl
  | cons first rest ih =>
    have split : oneByOne (first :: rest) = .started first :: .ended first :: oneByOne rest := rfl
    rw [split, List.count_cons_of_ne (fun same => by cases same), List.count_cons, ih, List.count_cons]
    by_cases same : first = effect
    · rw [same, beq_self_eq_true, beq_self_eq_true]
    · have apart : (EffectEvent.ended first == .ended effect) = false :=
        beq_false_of_ne fun again => same (EffectEvent.ended.inj again)
      rw [apart, beq_false_of_ne same]

namespace Orderly

/-- An effect is registered at most once. -/
theorem nodup (orderly : Orderly tree) : tree.registered.Nodup := by
  refine List.Nodup.of_map (fun effect => effect.number) ?_
  rw [orderly.numbered]
  exact List.nodup_range

/-- The log says of a scope no more than what is due. -/
theorem logged (orderly : Orderly tree) (scope : Nat) :
    ofScope scope tree.log <+: oneByOne (tree.ownedBy scope).reverse := by
  have traced := orderly.traced scope
  unfold due at traced
  split at traced
  · exact ⟨_, traced⟩
  · rw [(List.append_eq_nil_iff.mp traced).1]
    exact List.nil_prefix

/-- An effect that is listed in reverse is registered at most once. -/
theorem count_ownedBy (orderly : Orderly tree) (scope : Nat) (effect : OwnedEffect) :
    (tree.ownedBy scope).reverse.count effect ≤ 1 := by
  rw [List.count_reverse]
  exact List.nodup_iff_count_le_one.mp (orderly.nodup.filter _) effect

/-- **An effect is run at most once.** -/
theorem once (orderly : Orderly tree) (effect : OwnedEffect) :
    tree.log.count (.started effect) ≤ 1 ∧ tree.log.count (.ended effect) ≤ 1 := by
  have within := (orderly.logged effect.owner).sublist
  have bound := orderly.count_ownedBy effect.owner effect
  have started := within.count_le (.started effect)
  have ended := within.count_le (.ended effect)
  have own : decide (some effect.owner = some effect.owner) = true := decide_eq_true rfl
  have starts : (ofScope effect.owner tree.log).count (.started effect) =
      tree.log.count (.started effect) := List.count_filter own
  have ends : (ofScope effect.owner tree.log).count (.ended effect) =
      tree.log.count (.ended effect) := List.count_filter own
  rw [starts, count_started] at started
  rw [ends, count_ended] at ended
  omega

/-- An effect that has started is registered. -/
theorem registered_of_started (orderly : Orderly tree) {effect : OwnedEffect}
    (started : .started effect ∈ tree.log) : effect ∈ tree.registered := by
  have own : .started effect ∈ ofScope effect.owner tree.log :=
    List.mem_filter.mpr ⟨started, decide_eq_true rfl⟩
  have listed : .started effect ∈ tree.due effect.owner := by
    rw [← orderly.traced]
    exact List.mem_append_left _ own
  exact (mem_due listed).1

end Orderly

end EffectTree

end Kernis
