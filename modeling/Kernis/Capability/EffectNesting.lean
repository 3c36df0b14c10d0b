/-
**Effects are disposed of once, those of a child in its place.**

* `Entered`, `InPlace` — the effects that a child scope still owns run while its disposer runs.
* `Nested` — what each turn keeps of the order and of the child scopes.
* `Nested.closed` — once the root has been disposed of and nothing runs, every scope is closed.
* `effects_dispose_once` — the guarantees of every sequence of calls.
-/

import Mathlib.Data.List.Basic
import Kernis.Capability.EffectOrder

namespace Kernis

namespace EffectTree

variable {tree next : EffectTree} {scope : Nat}

/-! ### Child scopes -/

/-- A disposal leaves what is due of the scopes that were closed. -/
theorem due_of_disposed (tree : EffectTree) {scope other : Nat} (there : scope < tree.scopes.length)
    (closed : (tree.scopeAt other).closed = true) (running : List Disposing) (log : List EffectEvent) :
    (EffectTree.mk (tree.scopes.set scope ⟨[], true⟩) running tree.registered log).due other =
      tree.due other := by
  have scopes : (EffectTree.mk (tree.scopes.set scope ⟨[], true⟩) running tree.registered log).scopeAt other =
      if other = scope then ⟨[], true⟩ else tree.scopeAt other := scopeAt_set tree there _ other
  unfold due
  rw [scopes, closed]
  by_cases same : other = scope
  · rw [if_pos same]
    rfl
  · rw [if_neg same, closed]
    rfl

/-- **What is due of a closed scope stays the same.** -/
theorem Move.due (orderly : Orderly tree) (moves : Move tree next)
    (begun : .disposing scope ∈ tree.log) : next.due scope = tree.due scope := by
  have closed := (orderly.begun scope).mp begun
  cases moves with
  | @add place effect more there opened number owner fits =>
    have other : scope ≠ place := by
      intro same
      rw [← same, closed] at opened
      cases opened
    have scopes : (EffectTree.mk (tree.scopes.set place ⟨(tree.scopeAt place).effects ++ [effect], false⟩ ++ more)
        tree.running (tree.registered ++ [effect]) tree.log).scopeAt scope = tree.scopeAt scope :=
      (scopeAt_add tree there _ (fits.imp And.right And.right) scope).trans (if_neg other)
    have owned : (tree.registered ++ [effect]).filter (fun effect => effect.owner = scope) =
        tree.ownedBy scope := by
      rw [ownedBy_add, if_neg (fun same => other (same.trans owner)), List.append_nil]
    unfold EffectTree.due
    rw [scopes]
    show (if _ then oneByOne (List.filter _ _).reverse else []) = _
    rw [owned]
  | dispose there _ => exact due_of_disposed tree there closed _ _
  | start _ _ _ _ => rfl
  | enter running idle next nested =>
    obtain ⟨registered, _⟩ := orderly.registered_of_next (running ▸ List.mem_cons_self) next
    exact due_of_disposed tree ((orderly.below _ registered).2 _ nested).2 closed _ _
  | finish _ _ _ _ => rfl
  | giveBack _ _ _ => rfl
  | leave _ _ _ _ _ _ => rfl

/-- The log before an effect that is the place of a child: the child's disposal began, or none of its
effects has run and none is left to others. -/
structure Within (log : List EffectEvent) (effect : OwnedEffect) (child : Nat)
    (before after left : List EffectEvent) : Prop where
  split : log = before ++ .started effect :: after
  fresh : .disposing child ∈ before ∨ (ofScope child before = [] ∧ left = [])

/-- Every disposal that waits for the place of a child has entered it. -/
def Entered (log : List EffectEvent) : List Disposing → Prop
  | [] => True
  | waiting :: outer =>
    (∀ effect child, waiting.current = some effect → effect.disposer = .child child →
      ∃ before after, Within log effect child before after (pending child (waiting :: outer))) ∧
    Entered log outer

/-- **In the child's place.** Unless its disposal began earlier, all effects of a child scope start and end
between the start and the end of its place. -/
def InPlace (log : List EffectEvent) (due : Nat → List EffectEvent) : Prop :=
  ∀ before effect after later child, log = before ++ .started effect :: after ++ .ended effect :: later →
    effect.disposer = .child child → .disposing child ∈ before ∨ ofScope child after = due child

theorem Entered.append {log : List EffectEvent} {running : List Disposing} (entered : Entered log running)
    (more : List EffectEvent) : Entered (log ++ more) running := by
  induction running with
  | nil => trivial
  | cons waiting outer ih =>
    obtain ⟨here, others⟩ := entered
    refine ⟨fun effect child current nested => ?_, ih others⟩
    obtain ⟨before, after, split, fresh⟩ := here effect child current nested
    refine ⟨before, after ++ more, ?_, fresh⟩
    rw [split, List.append_assoc, List.cons_append]

/-- A disposal that waits for no place of a child has nothing to enter. -/
theorem Entered.plain {log : List EffectEvent} {disposing : Disposing} {outer : List Disposing}
    (entered : Entered log outer)
    (plain : ∀ effect child, disposing.current = some effect → effect.disposer ≠ .child child) :
    Entered log (disposing :: outer) :=
  ⟨fun effect child current nested => absurd nested (plain effect child current), entered⟩

/-- One more event. -/
theorem InPlace.snoc {log : List EffectEvent} {due : Nat → List EffectEvent} (inPlace : InPlace log due)
    {event : EffectEvent}
    (last : ∀ effect child before after, event = .ended effect → effect.disposer = .child child →
      log = before ++ .started effect :: after →
        .disposing child ∈ before ∨ ofScope child after = due child) :
    InPlace (log ++ [event]) due := by
  intro before effect after later child split nested
  rcases List.eq_nil_or_concat later with rfl | ⟨earlier, final, rfl⟩
  · obtain ⟨same, ends⟩ := List.append_inj' split rfl
    exact last effect child before after (List.singleton_inj.mp ends) nested same
  · rw [List.concat_eq_append, ← List.cons_append, ← List.append_assoc] at split
    exact inPlace before effect after earlier child (List.append_inj' split rfl).1 nested

/-- **A move adds to the log.** With the start of the place of a child, the child's disposal begins. -/
theorem Move.log (moves : Move tree next) : ∃ more, next.log = tree.log ++ more ∧
    ∀ effect child, .started effect ∈ more → effect.disposer = .child child →
      .disposing child ∈ more := by
  cases moves with
  | add _ _ _ _ _ => exact ⟨[], (List.append_nil _).symm, fun _ _ started => by cases started⟩
  | @dispose scope _ _ =>
    exact ⟨[.disposing scope], rfl, fun _ _ started => by cases List.mem_singleton.mp started⟩
  | @start _ _ effect _ _ _ _ host =>
    refine ⟨[.started effect], rfl, fun other child started place => ?_⟩
    cases List.mem_singleton.mp started
    rw [host] at place
    cases place
  | @enter _ _ effect _ child _ _ _ enters =>
    refine ⟨[.started effect, .disposing child], List.append_assoc _ _ _,
      fun other inner started place => ?_⟩
    rcases List.mem_cons.mp started with now | later
    · cases now
      rw [enters] at place
      cases place
      exact List.mem_cons_of_mem _ List.mem_cons_self
    · cases List.mem_singleton.mp later
  | @finish _ _ effect _ _ _ _ =>
    exact ⟨[.ended effect], rfl, fun _ _ started => by cases List.mem_singleton.mp started⟩
  | @giveBack disposing _ _ _ _ =>
    exact ⟨[.disposed disposing.scope disposing.errors], rfl,
      fun _ _ started => by cases List.mem_singleton.mp started⟩
  | @leave disposing _ _ effect _ _ _ _ _ _ _ =>
    refine ⟨[.disposed disposing.scope disposing.errors, .ended effect], List.append_assoc _ _ _,
      fun other inner started place => ?_⟩
    rcases List.mem_cons.mp started with now | later
    · cases now
    · cases List.mem_singleton.mp later

/-- **What every turn keeps**, of the order and of the child scopes. -/
structure Nested (tree : EffectTree) : Prop where
  orderly : Orderly tree
  opened : ∀ effect child, .started effect ∈ tree.log → effect.disposer = .child child →
    .disposing child ∈ tree.log
  entered : Entered tree.log tree.running
  inPlace : InPlace tree.log tree.due

namespace Nested

theorem start : Nested new where
  orderly := .start
  opened := fun _ _ member => by cases member
  entered := trivial
  inPlace := fun before effect after later child split => by
    have member : EffectEvent.started effect ∈ new.log := by
      rw [split, List.append_assoc]
      exact List.mem_append_right _ List.mem_cons_self
    cases member

/-- What is due of the child scopes whose places have started stays the same. -/
theorem keeps (nested : Nested tree) (moves : Move tree next) : InPlace tree.log next.due := by
  intro before effect after later child split place
  have started : .started effect ∈ tree.log := by
    rw [split, List.append_assoc]
    exact List.mem_append_right _ List.mem_cons_self
  rw [moves.due nested.orderly (nested.opened effect child started place)]
  exact nested.inPlace before effect after later child split place

/-- A place that starts closes its child. -/
theorem opened_move (nested : Nested tree) (moves : Move tree next) {effect : OwnedEffect} {child : Nat}
    (started : .started effect ∈ next.log) (place : effect.disposer = .child child) :
    .disposing child ∈ next.log := by
  obtain ⟨more, log, closes⟩ := moves.log
  rw [log] at started ⊢
  rcases List.mem_append.mp started with before | now
  · exact List.mem_append_left _ (nested.opened effect child before place)
  · exact List.mem_append_right _ (closes effect child now place)

/-- Only a disposal that starts the place of a child enters it. -/
theorem entered_move (nested : Nested tree) (moves : Move tree next) : Entered next.log next.running := by
  have entered := nested.entered
  cases moves with
  | add _ _ _ _ _ => exact entered
  | dispose _ _ => exact (entered.append _).plain fun _ _ current => by cases current
  | @start disposing outer effect rest running _ _ host =>
    rw [running] at entered
    refine (entered.2.append _).plain fun other child current place => ?_
    cases current
    rw [host] at place
    cases place
  | @enter disposing outer effect rest child running idle more enters =>
    rw [running] at entered
    refine Entered.plain ⟨fun other inner current place => ?_, (entered.2.append _).append _⟩
      fun _ _ current => by cases current
    cases current
    rw [enters] at place
    cases place
    refine ⟨tree.log, [.disposing child], List.append_assoc _ _ _, ?_⟩
    by_cases closed : (tree.scopeAt child).closed = true
    · exact .inl ((nested.orderly.begun child).mpr closed)
    · right
      obtain ⟨registered, owner⟩ :=
        nested.orderly.registered_of_next (running ▸ List.mem_cons_self) more
      have apart : disposing.scope ≠ child := by
        have below := ((nested.orderly.below effect registered).2 child enters).1
        omega
      have traced := nested.orderly.traced child
      unfold due at traced
      rw [if_neg closed, running, pending_other apart] at traced
      obtain ⟨nothing, idle⟩ := List.append_eq_nil_iff.mp traced
      have waits : pending child ({ disposing with effects := rest, current := some effect } :: outer) =
          pending child outer := pending_other apart
      exact ⟨nothing, waits.trans idle⟩
  | @finish disposing outer effect running _ _ _ =>
    rw [running] at entered
    exact (entered.2.append _).plain fun _ _ current => by cases current
  | giveBack running _ _ =>
    rw [running] at entered
    exact entered.2.append _
  | leave running _ _ _ _ _ =>
    rw [running] at entered
    exact ((entered.2.2.append _).append _).plain fun _ _ current => by cases current

/-- When the place of a child ends, all effects of the child have run in it, unless the child's disposal
began earlier. -/
theorem inPlace_leave (nested : Nested tree) {disposing waiting : Disposing} {outer : List Disposing}
    {effect : OwnedEffect} {child : Nat} (running : tree.running = disposing :: waiting :: outer)
    (done : leftOf disposing = []) (current : waiting.current = some effect)
    (place : effect.disposer = .child child) {before after more : List EffectEvent}
    (split : tree.log ++ more = before ++ .started effect :: after) (silent : .started effect ∉ more)
    (other : ofScope child more = []) :
    .disposing child ∈ before ∨ ofScope child after = tree.due child := by
  have entered := nested.entered
  rw [running] at entered
  obtain ⟨first, rest, log, fresh⟩ := entered.2.1 effect child current place
  -- The place starts once, so that it is entered here.
  have once := (nested.orderly.once effect).1
  have count : (first ++ .started effect :: (rest ++ more)).count (.started effect) ≤ 1 := by
    rw [← List.cons_append, ← List.append_assoc, ← log, List.count_append,
      List.count_eq_zero.mpr silent]
    exact once
  rw [List.count_append, List.count_cons_self] at count
  have absentBefore : .started effect ∉ first := List.count_eq_zero.mp (by omega)
  have absentAfter : .started effect ∉ rest ++ more := List.count_eq_zero.mp (by omega)
  have joined : first ++ .started effect :: (rest ++ more) = before ++ .started effect :: after := by
    rw [← split, log, List.append_assoc, List.cons_append]
  obtain ⟨rfl, _, rfl⟩ := (List.append_cons_inj_of_notMem absentBefore absentAfter).mp joined
  rcases fresh with earlier | ⟨nothing, idle⟩
  · exact .inl earlier
  · right
    have started : .started effect ∈ tree.log := by
      rw [log]
      exact List.mem_append_right _ List.mem_cons_self
    have registered := nested.orderly.registered_of_started started
    have apart : ownerOf (.started effect) ≠ some child := by
      have below := ((nested.orderly.below effect registered).2 child place).1
      exact fun same => absurd (Option.some.inj same) (Nat.ne_of_lt below)
    have runs : pending child tree.running = [] := by
      rw [running]
      unfold pending at idle ⊢
      rw [List.flatMap_cons, idle, done, ite_self]
      rfl
    have traced := nested.orderly.traced child
    have skips : ofScope child (.started effect :: rest) = ofScope child rest :=
      List.filter_cons_of_neg (mt of_decide_eq_true apart)
    rw [runs, List.append_nil, log, ofScope_append, nothing, List.nil_append, skips] at traced
    rw [ofScope_append, traced, other, List.append_nil]

/-- A move leaves the effects of the children in their places. -/
theorem inPlace_move (nested : Nested tree) (moves : Move tree next) : InPlace next.log next.due := by
  have kept := nested.keeps moves
  cases moves with
  | add _ _ _ _ _ => exact kept
  | dispose _ _ => exact kept.snoc fun _ _ _ _ ends => by cases ends
  | start _ _ _ _ => exact kept.snoc fun _ _ _ _ ends => by cases ends
  | enter _ _ _ _ =>
    exact (kept.snoc fun _ _ _ _ ends => by cases ends).snoc fun _ _ _ _ ends => by cases ends
  | finish _ _ host _ =>
    refine kept.snoc fun effect child before after ends place split => ?_
    cases ends
    rw [host] at place
    cases place
  | giveBack _ _ _ => exact kept.snoc fun _ _ _ _ ends => by cases ends
  | leave running idle done current enters errors =>
    refine (kept.snoc fun _ _ _ _ ends => by cases ends).snoc
      fun effect child before after ends place split => ?_
    cases ends
    refine nested.inPlace_leave running ?_ current place split
      (fun silent => by cases List.mem_singleton.mp silent) (ofScope_other fun own => by cases own)
    rw [leftOf_idle idle, done]
    rfl

/-- **A move keeps all of this.** -/
theorem move (nested : Nested tree) (moves : Move tree next) : Nested next where
  orderly := nested.orderly.move moves
  opened := fun _ _ started place => nested.opened_move moves started place
  entered := nested.entered_move moves
  inPlace := nested.inPlace_move moves

/-- Every sequence of turns keeps it. -/
theorem run (nested : Nested tree) (turns : List EffectTurn) : Nested (tree.run turns) := by
  induction turns generalizing tree with
  | nil => exact nested
  | cons turn rest ih =>
    rcases moves_of_step nested.orderly turn with same | moves
    · show Nested ((tree.step turn).run rest)
      rw [same]
      exact ih nested
    · exact ih (nested.move moves)

end Nested

/-! ### A disposal of the root -/

namespace Nested

/-- A scope whose disposal has begun has run its effects when nothing runs. -/
theorem ran (nested : Nested tree) (idle : tree.running = []) (begun : .disposing scope ∈ tree.log) :
    ofScope scope tree.log = oneByOne (tree.ownedBy scope).reverse := by
  have traced := nested.orderly.traced scope
  unfold due at traced
  rw [idle, if_pos ((nested.orderly.begun scope).mp begun)] at traced
  exact (List.append_nil _).symm.trans traced

/-- An effect of such a scope has been run. -/
theorem count_of_begun (nested : Nested tree) (idle : tree.running = []) {effect : OwnedEffect}
    (registered : effect ∈ tree.registered) (begun : .disposing effect.owner ∈ tree.log) :
    tree.log.count (.started effect) = 1 ∧ tree.log.count (.ended effect) = 1 := by
  have own : decide (some effect.owner = some effect.owner) = true := decide_eq_true rfl
  have starts : (ofScope effect.owner tree.log).count (.started effect) =
      tree.log.count (.started effect) := List.count_filter own
  have ends : (ofScope effect.owner tree.log).count (.ended effect) =
      tree.log.count (.ended effect) := List.count_filter own
  have listed : (tree.ownedBy effect.owner).reverse.count effect = 1 := by
    rw [List.count_reverse]
    have member : effect ∈ tree.ownedBy effect.owner :=
      List.mem_filter.mpr ⟨registered, decide_eq_true rfl⟩
    exact List.count_eq_one_of_mem (nested.orderly.nodup.filter _) member
  rw [← starts, ← ends, nested.ran idle begun, count_started, count_ended]
  exact ⟨listed, listed⟩

/-- **Once the root has been disposed of, every scope is.** The induction is on the number of the scope: its
place belongs to an older one. -/
theorem disposed_of_root (nested : Nested tree) (idle : tree.running = [])
    (root : .disposing 0 ∈ tree.log) (there : scope < tree.scopes.length) :
    .disposing scope ∈ tree.log := by
  induction scope using Nat.strongRecOn with
  | ind scope ih =>
    by_cases first : scope = 0
    · exact first ▸ root
    · obtain ⟨effect, registered, place⟩ := nested.orderly.placed scope (Nat.pos_of_ne_zero first) there
      obtain ⟨within, below⟩ := nested.orderly.below effect registered
      have begun := ih effect.owner (below scope place).1 within
      have started := (nested.count_of_begun idle registered begun).1
      refine nested.opened effect scope (List.count_pos_iff.mp ?_) place
      omega

end Nested

/-! ### What is guaranteed -/

/-- **How effects are disposed of.** An effect is run at most once, and once when the root has been disposed
of; those of one scope run in reverse order, each to its end; those that a child still owns run in its place;
and a scope takes no effect after its disposal began. -/
structure DisposesOnce (tree : EffectTree) : Prop where
  registered : ∀ effect, .started effect ∈ tree.log → effect ∈ tree.registered
  once : ∀ effect, tree.log.count (.started effect) ≤ 1 ∧ tree.log.count (.ended effect) ≤ 1
  exactlyOnce : tree.running = [] → .disposing 0 ∈ tree.log → ∀ effect ∈ tree.registered,
    tree.log.count (.started effect) = 1 ∧ tree.log.count (.ended effect) = 1
  order : ∀ scope, ofScope scope tree.log <+: oneByOne (tree.ownedBy scope).reverse
  ran : tree.running = [] → ∀ scope, .disposing scope ∈ tree.log →
    ofScope scope tree.log = oneByOne (tree.ownedBy scope).reverse
  inPlace : ∀ before effect after later child,
    tree.log = before ++ .started effect :: after ++ .ended effect :: later →
      effect.disposer = .child child →
        .disposing child ∈ before ∨ ofScope child after = oneByOne (tree.ownedBy child).reverse
  closed : ∀ scope, .disposing scope ∈ tree.log →
    (∀ label disposer, tree.register scope label disposer = .error .closed) ∧
      ∀ label, tree.child scope label = .error .closed

/-- A closed scope takes no effect. -/
theorem register_closed (closed : (tree.scopeAt scope).closed = true) (label : Text)
    (disposer : EffectDisposer) : tree.register scope label disposer = .error .closed := by
  cases registers : tree.register scope label disposer with
  | error error => cases error with | closed => rfl
  | ok next =>
    rw [(register_ok registers).2.1] at closed
    cases closed

/-- What is kept gives the guarantees. -/
theorem Nested.disposesOnce (nested : Nested tree) : DisposesOnce tree where
  registered := fun _ started => nested.orderly.registered_of_started started
  once := nested.orderly.once
  exactlyOnce := fun idle root effect registered => nested.count_of_begun idle registered
    (nested.disposed_of_root idle root (nested.orderly.below effect registered).1)
  order := nested.orderly.logged
  ran := fun idle _ begun => nested.ran idle begun
  inPlace := by
    intro before effect after later child split place
    refine (nested.inPlace before effect after later child split place).imp_right fun ran => ?_
    have started : .started effect ∈ tree.log := by
      rw [split, List.append_assoc]
      exact List.mem_append_right _ List.mem_cons_self
    have begun := nested.opened effect child started place
    unfold due at ran
    rw [if_pos ((nested.orderly.begun child).mp begun)] at ran
    exact ran
  closed := by
    intro scope begun
    have closed := (nested.orderly.begun scope).mp begun
    refine ⟨register_closed closed, fun label => ?_⟩
    unfold child
    rw [register_closed closed]

/-- The log only grows. -/
theorem Nested.log_prefix (nested : Nested tree) (turns : List EffectTurn) :
    tree.log <+: (tree.run turns).log := by
  induction turns generalizing tree with
  | nil => exact List.prefix_rfl
  | cons turn rest ih =>
    show tree.log <+: ((tree.step turn).run rest).log
    rcases moves_of_step nested.orderly turn with same | moves
    · rw [same]
      exact ih nested
    · obtain ⟨more, log, _⟩ := moves.log
      exact List.IsPrefix.trans ⟨more, log.symm⟩ (ih (nested.move moves))

/-- **Effect scopes dispose exactly once, in reverse order**, for every sequence of calls and of disposers,
whether these fail or not; what has happened stays so. -/
theorem effects_dispose_once (turns : List EffectTurn) : DisposesOnce (new.run turns) ∧
    ∀ more, (new.run turns).log <+: (new.run (turns ++ more)).log := by
  have nested := Nested.start.run turns
  refine ⟨nested.disposesOnce, fun more => ?_⟩
  have later := nested.log_prefix more
  unfold run at later ⊢
  rw [List.foldl_append]
  exact later

/-- An effect, a child with one effect, another effect that fails: the scopes of what begins and ends. -/
example : (new.run [.call (.register 0 []), .call (.child 0 []), .call (.register 1 []),
    .call (.register 0 []), .call (.disposeAll 0), .advance, .finish (.error []), .advance, .advance,
    .finish (.ok ()), .advance, .advance, .finish (.ok ()), .advance]).log.map ownerOf =
    [none, some 0, some 0, some 0, none, some 1, some 1, none, some 0, some 0, some 0, none] := by
  decide +kernel

end EffectTree

end Kernis
