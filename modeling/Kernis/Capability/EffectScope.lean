/-
**A tree of effect scopes.**

A scope owns a stack of effects; a child scope is an effect of its parent, whose disposer disposes of the
child. A disposal closes its scope, takes the effects, and runs them from the last one on, each to its end.

* `EffectTree.register`, `EffectTree.child`, `EffectTree.disposeAll` — the calls. While something runs, only
  the disposer that runs makes calls, and it waits for the disposals that it calls.
* `EffectTree.advance` — the loop of the innermost disposal.
* `EffectTree.run` — calls and disposers in any order, with a log of what begins and ends.
-/

import Kernis.Capability.Fiber

namespace Kernis

/-- What the disposer of an effect is: code of the host, or the disposal of a child scope. -/
inductive EffectDisposer
  | host
  | child (scope : Nat)
deriving DecidableEq

/-- A registered effect, with the scope that owns it. -/
structure OwnedEffect extends ScopedEffect where
  owner : Nat
  disposer : EffectDisposer
deriving DecidableEq

/-- The effects that a scope owns, and whether its disposal has begun. -/
structure EffectScope where
  effects : List OwnedEffect
  closed : Bool
deriving DecidableEq

/-- A new effect was registered after cleanup began. -/
inductive RegistrationError
  | closed
deriving DecidableEq

/-- A disposal that runs: the effects that are left, in the order of their disposal, the effect that runs,
and the errors so far. -/
structure Disposing where
  scope : Nat
  effects : List OwnedEffect
  current : Option OwnedEffect
  errors : List EffectError
deriving DecidableEq

/-- What begins and what ends. -/
inductive EffectEvent
  | disposing (scope : Nat)
  | started (effect : OwnedEffect)
  | ended (effect : OwnedEffect)
  | disposed (scope : Nat) (errors : List EffectError)
deriving DecidableEq

/-- **The tree.** The first scope is its root; the disposals that run are listed from the innermost one.
`registered` and `log` are history variables. -/
structure EffectTree where
  scopes : List EffectScope
  running : List Disposing
  registered : List OwnedEffect
  log : List EffectEvent
deriving DecidableEq

/-- The calls on a scope. -/
inductive EffectCall
  | register (scope : Nat) (label : Text)
  | child (scope : Nat) (label : Text)
  | disposeAll (scope : Nat)
deriving DecidableEq

/-- What happens: a call, the end of the host's disposer that runs, or the next turn of a disposal. -/
inductive EffectTurn
  | call (call : EffectCall)
  | finish (result : Except Text Unit)
  | advance

/-- What the disposer of a child scope returns. -/
def nestedResult (errors : List EffectError) : Except Text Unit :=
  if errors = [] then .ok ()
  else .error ("nested effect cleanup failed: ".toList ++ digits errors.length ++ " error(s)".toList)

namespace EffectTree

/-- The root scope, with no effect. -/
def new : EffectTree := ⟨[⟨[], false⟩], [], [], []⟩

/-- A scope of the tree; one that is not there yet is empty and open. -/
def scopeAt (tree : EffectTree) (scope : Nat) : EffectScope := (tree.scopes[scope]?).getD ⟨[], false⟩

/-- Registers an effect in a scope, unless that is closed. -/
def register (tree : EffectTree) (scope : Nat) (label : Text) (disposer : EffectDisposer) :
    Except RegistrationError EffectTree :=
  match tree.scopes[scope]? with
  | some ⟨effects, false⟩ =>
    let effect : OwnedEffect := ⟨⟨tree.registered.length, label⟩, scope, disposer⟩
    .ok { tree with
      scopes := tree.scopes.set scope ⟨effects ++ [effect], false⟩
      registered := tree.registered ++ [effect] }
  | _ => .error .closed

/-- Creates a child scope owned by a scope. -/
def child (tree : EffectTree) (scope : Nat) (label : Text) : Except RegistrationError EffectTree :=
  match tree.register scope label (.child tree.scopes.length) with
  | .error error => .error error
  | .ok next => .ok { next with scopes := next.scopes ++ [⟨[], false⟩] }

/-- Closes a scope and begins to run its effects, the last one first. -/
def disposeAll (tree : EffectTree) (scope : Nat) : EffectTree :=
  match tree.scopes[scope]? with
  | none => tree
  | some ⟨effects, _⟩ =>
    { tree with
      scopes := tree.scopes.set scope ⟨[], true⟩
      running := ⟨scope, effects.reverse, none, []⟩ :: tree.running
      log := tree.log ++ [.disposing scope] }

/-- Whether a call can be made: by the owner of the tree when nothing runs, else by the host's disposer. -/
def accepts (tree : EffectTree) : Bool :=
  match tree.running with
  | [] => true
  | disposing :: _ => disposing.current.any fun effect => effect.disposer = .host

/-- The effect that runs ends. -/
def finish (tree : EffectTree) (result : Except Text Unit) : EffectTree :=
  match tree.running with
  | ⟨scope, effects, some effect, errors⟩ :: outer =>
    { tree with
      running :=
        ⟨scope, effects, none, CapabilityFiber.cleaned effect.toScopedEffect errors result⟩ :: outer
      log := tree.log ++ [.ended effect] }
  | _ => tree

/-- A disposal returns its errors, to the disposer of a child scope or to the one that called it. -/
def giveBack (tree : EffectTree) (disposing : Disposing) (outer : List Disposing) : EffectTree :=
  let returned : EffectTree :=
    { tree with running := outer, log := tree.log ++ [.disposed disposing.scope disposing.errors] }
  match outer with
  | ⟨_, _, some ⟨_, _, .child _⟩, _⟩ :: _ => returned.finish (nestedResult disposing.errors)
  | _ => returned

/-- The disposer of an effect begins; that of a child scope disposes of it. -/
def start (tree : EffectTree) (disposing : Disposing) (effect : OwnedEffect)
    (rest : List OwnedEffect) (outer : List Disposing) : EffectTree :=
  let started : EffectTree :=
    { tree with
      running := { disposing with effects := rest, current := some effect } :: outer
      log := tree.log ++ [.started effect] }
  match effect.disposer with
  | .host => started
  | .child scope => started.disposeAll scope

/-- The loop of the innermost disposal goes on, unless it waits for an effect. -/
def advance (tree : EffectTree) : EffectTree :=
  match tree.running with
  | [] => tree
  | disposing :: outer =>
    match disposing.current, disposing.effects with
    | some _, _ => tree
    | none, [] => tree.giveBack disposing outer
    | none, effect :: rest => tree.start disposing effect rest outer

/-- A call; one that is refused changes nothing. -/
def perform (tree : EffectTree) : EffectCall → EffectTree
  | .register scope label =>
    match tree.register scope label .host with
    | .ok next => next
    | .error _ => tree
  | .child scope label =>
    match tree.child scope label with
    | .ok next => next
    | .error _ => tree
  | .disposeAll scope => tree.disposeAll scope

/-- **What happens to the tree.** A turn that cannot happen changes nothing. -/
def step (tree : EffectTree) : EffectTurn → EffectTree
  | .call call => if tree.accepts then tree.perform call else tree
  | .finish result => if tree.running ≠ [] ∧ tree.accepts then tree.finish result else tree
  | .advance => tree.advance

/-- Calls and disposers, in any order. -/
def run (tree : EffectTree) (turns : List EffectTurn) : EffectTree := turns.foldl step tree

end EffectTree

end Kernis
