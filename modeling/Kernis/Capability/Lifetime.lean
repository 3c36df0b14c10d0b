/-
**How long the values of a scope tree live.**

A value is constructed into a slot of a heap, and every owner of the slot is one reference to it: a scope
by its entry, a running publication by its snapshot, a client by its handle, a younger slot by the
dependencies it was constructed with. The last owner to go cleans the value and lets the dependencies go.

* `Lifetimes` — a scope tree over addresses, the heap, what clients hold and the drops under way.
* `Lifetimes.step` — a call, with the references it takes and those it leaves to drop; what clients do
  with handles; one step of a drop. Drops hold no lock, so they interleave with everything.
* `Lifetimes.Held` — what something still owns, directly or through what it was constructed with.
-/

import Kernis.Capability.Tree
import Kernis.Lib.RefCount

namespace Kernis

open Std

namespace CapabilityHandle

variable {ν : Type}

/-- One handle is among those the value of another was constructed with. -/
def DependsOn (handle dependency : CapabilityHandle ν) : Prop :=
  ∃ id, (id, dependency) ∈ handle.dependencies

end CapabilityHandle

/-- The slots a snapshot refers to, in the order in which it is dropped. -/
def snapshotSlots (dependencies : ResolvedDependencies Nat) : List Nat :=
  dependencies.map fun dependency => dependency.2.value

/-- The slots the entries of a scope refer to, in the order of the map. -/
def slotsOf (entries : BTreeMap Id (CapabilityHandle Nat)) : List Nat :=
  (valuesOf entries).map CapabilityHandle.value

/-- A call whose constructor puts its value at an address. -/
def ScopeCall.allocated (address : Nat) : ScopeCall Unit → ScopeCall Nat
  | .child scope => .child scope
  | .publish scope definition expectation => .publish scope definition expectation
  | .load scope definition context => .load scope definition context
  | .constructed publication result => .constructed publication (result.map fun _ => address)
  | .withdraw scope capability expected => .withdraw scope capability expected
  | .teardown scope => .teardown scope
  | .release scope => .release scope
  | .elsewhere => .elsewhere

/-! ### What a teardown drops -/

/-- The entries of one scope and the order in which they are dropped. -/
structure TeardownPlan where
  entries : BTreeMap Id (CapabilityHandle Nat)
  order : List Id

/-- What is dropped for a plan: by its order, and then whatever is left, in the order of the map. -/
def dropTeardownPlan (entries : BTreeMap Id (CapabilityHandle Nat)) : List Id → List Nat
  | [] => slotsOf entries
  | id :: order =>
    match entries[id]? with
    | some entry => entry.value :: dropTeardownPlan (entries.erase id) order
    | none => dropTeardownPlan entries order

/-- What a teardown of the given scopes drops. A teardown that panics unwinds: the entries it had just
taken go first, and then those of the plans it had made. -/
def Topology.teardownDrops (topology : Topology Nat) (plans : List TeardownPlan) :
    List Nat → List Nat
  | [] => plans.flatMap fun plan => dropTeardownPlan plan.entries plan.order
  | scope :: rest =>
    if ¬ (topology.level scope).isOpen then topology.teardownDrops plans rest
    else
      match runtimeTeardownOrder (topology.level scope).entries with
      | .error _ =>
        slotsOf (topology.level scope).entries ++ plans.flatMap fun plan => slotsOf plan.entries
      | .ok order => (topology.empty scope .closed).teardownDrops
          (plans ++ [⟨(topology.level scope).entries, order⟩]) rest

/-! ### The system -/

/-- **A scope tree, its values, and who holds them.** `handles` are the handles of the clients, and
`drops` the drops under way, each with the references it has still to let go, in order. -/
structure Lifetimes where
  tree : ScopeTree Nat
  heap : Heap
  handles : List (Option (CapabilityHandle Nat))
  drops : List (List Nat)

/-- What happens: a call; a constructor that unwinds or a load that is dropped before it returns; a
client that looks a capability up, clones a handle or a dependency's, or drops a handle; and one step of
a drop. -/
inductive LifetimeCall
  | call (call : ScopeCall Unit)
  | abandon (publication : Nat)
  | get (scope : Nat) (id : Id)
  | resolve (context : List ContextState) (id : Id)
  | clone (handle : Nat)
  | dependency (handle : Nat) (id : Id)
  | discard (handle : Nat)
  | drop (thread : Nat)

namespace Lifetimes

/-- One empty root scope. -/
def root : Lifetimes := ⟨.root, ⟨[], []⟩, [], []⟩

/-- Begins to let references go. -/
def dropping (state : Lifetimes) (references : List Nat) : Lifetimes :=
  { state with drops := state.drops ++ [references] }

/-- Gives a client a handle of its own to what it found. -/
def handOut (state : Lifetimes) : Option (CapabilityHandle Nat) → Lifetimes
  | none => state
  | some handle => { state with
      heap := state.heap.retain handle.value
      handles := state.handles ++ [some handle] }

/-- The handle a client holds. -/
def held (state : Lifetimes) (handle : Nat) : Option (CapabilityHandle Nat) :=
  state.handles[handle]?.join

/-- A publication begins: its snapshot is a handle of every dependency. -/
def begin (state : Lifetimes) : ScopeAnswer Nat × ScopeTree Nat → Lifetimes
  | (.constructs publication, tree) => { state with
      tree := tree
      heap := state.heap.retainAll <|
        (tree.pending[publication]?.join.map fun begun => snapshotSlots begun.dependencies).getD [] }
  | (_, tree) => { state with tree := tree }

/-- **A constructor returns.** A value goes into a new slot, with a copy of the snapshot. Published, it is
owned by the entry and by the caller's handle; the entry it replaces is dropped. The publication's own
reference and its snapshot are dropped in any case. -/
def constructed (state : Lifetimes) (begun : Publication Nat) (address : Nat) :
    ScopeAnswer Nat × ScopeTree Nat → Lifetimes
  | (.published handle, tree) =>
    let replaced := (state.tree.topology.level begun.scope).entries[begun.definition.id]?
    { state with
      tree := tree
      heap := ((state.heap.alloc (snapshotSlots begun.dependencies)).retain address).retain address
      handles := state.handles ++ [some handle] }.dropping
        (replaced.toList.map CapabilityHandle.value ++ address :: snapshotSlots begun.dependencies)
  | (_, tree) =>
    { state with
      tree := tree
      heap := state.heap.alloc (snapshotSlots begun.dependencies) }.dropping
        (address :: snapshotSlots begun.dependencies)

/-- What a call does. A withdrawal hands the entry's own reference out; the last handle of a scope drops
its entries. -/
def call (state : Lifetimes) (call : ScopeCall Unit) : Lifetimes :=
  let after := state.tree.step (call.allocated state.heap.slots.length)
  match call with
  | .publish _ _ _ => state.begin after
  | .load _ _ _ => state.begin after
  | .constructed publication result =>
    match state.tree.pending[publication]?.join, result with
    | none, _ => state
    | some begun, .error _ => { state with tree := after.2 }.dropping (snapshotSlots begun.dependencies)
    | some begun, .ok _ => state.constructed begun state.heap.slots.length after
  | .withdraw _ _ _ =>
    match after with
    | (.withdrawn entry, tree) => { state with tree := tree, handles := state.handles ++ [some entry] }
    | (_, tree) => { state with tree := tree }
  | .teardown scope =>
    if state.tree.topology.live scope ∧ ¬ state.tree.poisoned then
      { state with tree := after.2 }.dropping <| state.tree.topology.teardownDrops []
        (state.tree.topology.collectDescendantsChildFirst scope ++ [scope])
    else { state with tree := after.2 }
  | .release scope =>
    match after with
    | (.done, tree) =>
      { state with tree := { tree with topology := tree.topology.empty scope .closed } }.dropping
        (slotsOf (state.tree.topology.level scope).entries)
    | (_, tree) => { state with tree := tree }
  | _ => { state with tree := after.2 }

/-- One step of a drop: one reference is let go, and what that leaves to drop comes next. -/
def drop (state : Lifetimes) (thread : Nat) : Lifetimes :=
  match state.drops[thread]? with
  | some (first :: rest) => { state with
      heap := (state.heap.release first).2
      drops := state.drops.set thread ((state.heap.release first).1 ++ rest) }
  | _ => state

/-- **What happens in a step.** -/
def step (state : Lifetimes) : LifetimeCall → Lifetimes
  | .call call => state.call call
  | .abandon publication =>
    match state.tree.pending[publication]?.join with
    | some begun =>
      { state with tree := { state.tree with pending := state.tree.pending.set publication none }
        }.dropping (snapshotSlots begun.dependencies)
    | none => state
  | .get scope id => state.handOut ((state.tree.topology.view scope).get id)
  | .resolve context id => state.handOut (state.tree.topology.contextGet context id)
  | .clone handle => state.handOut (state.held handle)
  | .dependency handle id => state.handOut ((state.held handle).bind fun held => held.dependencies.lookup id)
  | .discard handle =>
    match state.held handle with
    | some held =>
      { state with handles := state.handles.set handle none }.dropping [held.value]
    | none => state
  | .drop thread => state.drop thread

/-- A run. -/
def run (state : Lifetimes) (calls : List LifetimeCall) : Lifetimes := calls.foldl step state

/-! ### Who owns what -/

/-- **The owners' handles**: the entries of the scopes, the snapshots of the running publications, and
what the clients hold. -/
inductive Owns (state : Lifetimes) : CapabilityHandle Nat → Prop
  | entry {scope : Nat} {id : Id} {handle : CapabilityHandle Nat}
      (found : (state.tree.topology.level scope).entries[id]? = some handle) : Owns state handle
  | snapshot {begun : Publication Nat} {id : Id} {handle : CapabilityHandle Nat}
      (running : some begun ∈ state.tree.pending) (listed : (id, handle) ∈ begun.dependencies) :
      Owns state handle
  | client {handle : CapabilityHandle Nat} (held : some handle ∈ state.handles) : Owns state handle

/-- **A value that something owns**, directly or through what it was constructed with. -/
def Held (state : Lifetimes) (address : Nat) : Prop :=
  ∃ handle, state.Owns handle ∧ ∃ dependency,
    Relation.ReflTransGen CapabilityHandle.DependsOn handle dependency ∧ dependency.value = address

/-- A value that a drop under way has still to let go, directly or through what it was constructed
with. -/
def Dropping (state : Lifetimes) (address : Nat) : Prop :=
  ∃ references ∈ state.drops, ∃ reference ∈ references,
    Relation.ReflTransGen state.heap.Retains reference address

end Lifetimes

end Kernis
