/-
**Scope trees.**

All scopes of one topology, each with its ancestors, its lifecycle and its local entries. One lock
guards the topology, so a call is a critical section, and a publication is two of them with its
constructor in between.

* `Topology.view` — what one scope reads: itself and its ancestors. `Topology.contextGet` — what a
  context resolves, with its isolation.
* `Topology.admitPreconstructed` — what the second phase of a publication checks, also in every live
  open descendant that would see the candidate.
* `runtimeGraph`, `Topology.teardown` — the teardown, child first, in the order of the graph of what
  the entries of a scope are and pin.
* `ScopeTree.step` — every call; a call that panics poisons the lock.
-/

import Kernis.Capability.Scope

namespace Kernis

open Std

/-! ### The data -/

/-- The lifecycle of a scope. -/
inductive Lifecycle
  | opened
  | closing
  | closed
deriving DecidableEq

/-- The state of one scope. `ancestors` are the scopes from its parent to the root; `live` says
whether anything still refers to the scope. -/
structure ScopeState (ν : Type) where
  ancestors : List Nat
  entries : BTreeMap Id (CapabilityHandle ν)
  lifecycle : Lifecycle
  live : Bool

/-- One context view: its scope, what it isolates, and its configuration overrides. A context is the
list of its view and those of its parents. -/
structure ContextState where
  scope : Nat
  isolation : BTreeSet Id
  intercepts : BTreeMap Id Text

/-- A publication between its two phases. `load` marks a value that is initialized outside, by a
plugin, and admitted only in the second phase. -/
structure Publication (ν : Type) where
  scope : Nat
  definition : CapabilityDefinition
  expectation : PublishExpectation
  dependencies : ResolvedDependencies ν
  load : Bool

/-- The scopes of a tree, by the order of their creation. -/
structure Topology (ν : Type) where
  scopes : List (ScopeState ν)

/-- **A scope tree.** `pending` are the publications whose constructors run, `nextEntryId` is the
process-wide counter of the entry identities. `poisoned` says that a holder of the topology lock
panicked. `published` and `provided` are history variables: the publications that succeeded, each
with its scope, and the slots of those that were not replacements. -/
structure ScopeTree (ν : Type) where
  topology : Topology ν
  pending : List (Option (Publication ν))
  nextEntryId : Nat
  poisoned : Bool
  published : List (Nat × CapabilityHandle ν)
  provided : List (Nat × Id)

/-- A call. `load` takes the dependency snapshot of a plugin's value in its context, `constructed` is
the return of a constructor or a plugin, and `elsewhere` is a publication in another tree, which takes
an entry identity. -/
inductive ScopeCall (ν : Type)
  | child (scope : Nat)
  | publish (scope : Nat) (definition : CapabilityDefinition) (expectation : PublishExpectation)
  | load (scope : Nat) (definition : CapabilityDefinition) (context : List ContextState)
  | constructed (publication : Nat) (result : Except Text ν)
  | withdraw (scope : Nat) (capability : Id) (expected : Nat)
  | teardown (scope : Nat)
  | release (scope : Nat)
  | elsewhere

/-- Whether a call withdraws an entry. -/
def ScopeCall.withdraws {ν : Type} : ScopeCall ν → Bool
  | .withdraw _ _ _ => true
  | _ => false

/-- How a call ends. `unavailable` is a call that cannot be made, for want of what it refers to. -/
inductive ScopeAnswer (ν : Type)
  | child (scope : Nat)
  | constructs (publication : Nat)
  | published (handle : CapabilityHandle ν)
  | withdrawn (handle : CapabilityHandle ν)
  | failed (error : ScopeError)
  | tornDown (orders : List (List Id))
  | done
  | unavailable
  | panicked

/-! ### The teardown order -/

/-- What the teardown order collects: a graph, and the entries that were seen. -/
structure Snapshots where
  graph : CapabilityGraph
  visited : BTreeSet Nat

mutual

/-- Collects one pinned entry and what it pins. A definition that is present already wins. -/
def insertSnapshot {ν : Type} : CapabilityHandle ν → Snapshots → Snapshots
  | ⟨definition, _, dependencies, _, entryId⟩, snapshots =>
    if entryId ∈ snapshots.visited then snapshots
    else insertSnapshots dependencies
      ⟨if definition.id ∈ snapshots.graph.definitions then snapshots.graph
        else snapshots.graph.insert definition, snapshots.visited.insert entryId⟩

def insertSnapshots {ν : Type} : List (Id × CapabilityHandle ν) → Snapshots → Snapshots
  | [], snapshots => snapshots
  | (_, handle) :: rest, snapshots => insertSnapshots rest (insertSnapshot handle snapshots)

end

/-- The graph of the current entries and of what they pin. -/
def runtimeGraph {ν : Type} (entries : BTreeMap Id (CapabilityHandle ν)) : CapabilityGraph :=
  let current : Snapshots := (valuesOf entries).foldl (fun snapshots entry =>
    ⟨snapshots.graph.insert entry.definition, snapshots.visited.insert entry.entryId⟩) ⟨.empty, ∅⟩
  ((valuesOf entries).foldl (fun snapshots entry => insertSnapshots entry.dependencies snapshots)
    current).graph

/-- The order in which the entries of a scope are released. -/
def runtimeTeardownOrder {ν : Type} (entries : BTreeMap Id (CapabilityHandle ν)) :
    Except CapabilityGraphError (List Id) :=
  (runtimeGraph entries).resolve.map List.reverse

/-! ### One scope -/

namespace Scope

variable {ν : Type}

/-- The graph that is visible from a scope with these entries. -/
def visibleGraphWithEntries (scope : Scope ν) : CapabilityGraph :=
  .fromDefinitions (valuesOf (scope.own.entries.toList.foldl (fun definitions (id, handle) =>
    definitions.insert id handle.definition) (visibleLevels scope.ancestors)))

/-- The admission under the entry lock. -/
def validateWithEntries (scope : Scope ν) (definition : CapabilityDefinition) :
    Except ScopeError Unit :=
  match scope.visibleGraphWithEntries.validateCandidate definition with
  | .error error => .error (.ofGraph error)
  | .ok _ => .ok ()

/-- The first dependency whose entry is not the one of the snapshot. -/
def changedDependency (definition : CapabilityDefinition)
    (current dependencies : ResolvedDependencies ν) : Option Id :=
  definition.dependencies.toList.find? fun dependency =>
    entryOf current dependency ≠ entryOf dependencies dependency

/-- Checks a snapshot dependency by dependency. -/
def checkSnapshot (scope : Scope ν) (definition : CapabilityDefinition)
    (dependencies : ResolvedDependencies ν) : List Id → Except ScopeError Unit
  | [] => .ok ()
  | dependency :: rest =>
    match scope.get dependency with
    | none => .error (.missingDependency definition.id dependency)
    | some current =>
      if some (current.generation, current.entryId) ≠ entryOf dependencies dependency then
        .error (.dependencyChanged definition.id dependency)
      else scope.checkSnapshot definition dependencies rest

end Scope

/-! ### The topology -/

namespace Topology

variable {ν : Type}

/-- The level of a scope. -/
def level (topology : Topology ν) (scope : Nat) : ScopeLevel ν :=
  match topology.scopes[scope]? with
  | some state => ⟨state.lifecycle = .opened, state.entries⟩
  | none => ⟨false, ∅⟩

/-- The ancestors of a scope, from its parent to the root. -/
def ancestors (topology : Topology ν) (scope : Nat) : List Nat :=
  (topology.scopes[scope]?.map ScopeState.ancestors).getD []

/-- Whether anything still refers to a scope. -/
def live (topology : Topology ν) (scope : Nat) : Bool :=
  topology.scopes[scope]?.any ScopeState.live

/-- What a scope reads: itself and its ancestors. -/
def view (topology : Topology ν) (scope : Nat) : Scope ν :=
  ⟨topology.level scope, (topology.ancestors scope).map topology.level⟩

/-- Resolves a capability in a context: the nearest view with a local entry decides, and no lookup
passes a view that isolates the capability. -/
def contextGet (topology : Topology ν) : List ContextState → Id → Option (CapabilityHandle ν)
  | [], _ => none
  | current :: parents, id =>
    if id ∈ (topology.level current.scope).entries then (topology.view current.scope).get id
    else if id ∈ current.isolation then none
    else topology.contextGet parents id

/-- Resolves exact dependency handles for a definition in a context. -/
def contextResolve (topology : Topology ν) (context : List ContextState)
    (definition : CapabilityDefinition) : Except ScopeError (ResolvedDependencies ν) :=
  definition.dependencies.toList.mapM fun dependency =>
    match topology.contextGet context dependency with
    | none => .error (.missingDependency definition.id dependency)
    | some handle => .ok (dependency, handle)

/-- Changes one scope. -/
def modify (topology : Topology ν) (scope : Nat) (change : ScopeState ν → ScopeState ν) :
    Topology ν :=
  ⟨topology.scopes.modify scope change⟩

/-- A child scope. Below a scope that is not open it is created closed. -/
def child (topology : Topology ν) (scope : Nat) : Topology ν :=
  ⟨topology.scopes ++ [⟨scope :: topology.ancestors scope, ∅,
    if (topology.level scope).isOpen then .opened else .closed, true⟩]⟩

/-- The live children of a scope, in the order of their creation. -/
def children (topology : Topology ν) (scope : Nat) : List Nat :=
  (List.range topology.scopes.length).filter fun child =>
    topology.live child && (topology.ancestors child).head? = some scope

/-- The live descendants of a scope, each before its own, within a depth. -/
def descendantsWithin (topology : Topology ν) : Nat → Nat → List Nat
  | 0, _ => []
  | depth + 1, scope =>
    (topology.children scope).flatMap fun child => child :: topology.descendantsWithin depth child

/-- The live descendants of a scope. No path in a tree is longer than the tree. -/
def liveDescendants (topology : Topology ν) (scope : Nat) : List Nat :=
  topology.descendantsWithin topology.scopes.length scope

/-- The live descendants of a scope, each after its own, within a depth. -/
def childFirstWithin (topology : Topology ν) : Nat → Nat → List Nat
  | 0, _ => []
  | depth + 1, scope =>
    (topology.children scope).flatMap fun child => topology.childFirstWithin depth child ++ [child]

/-- The live descendants of a scope, child first. -/
def collectDescendantsChildFirst (topology : Topology ν) (scope : Nat) : List Nat :=
  topology.childFirstWithin topology.scopes.length scope

/-- Whether a publication in a scope is visible from the first scope of a path to the root. -/
def candidateAffects (topology : Topology ν) (scope : Nat) (capability : Id) : List Nat → Bool
  | [] => false
  | current :: rest =>
    if current = scope then true
    else if ¬ (topology.level current).isOpen ∨ capability ∈ (topology.level current).entries then
      false
    else topology.candidateAffects scope capability rest

/-- Admission in every live open descendant that would see the candidate. -/
def validateDescendantAdmission (topology : Topology ν) (scope : Nat)
    (definition : CapabilityDefinition) : Except ScopeError Unit :=
  (topology.liveDescendants scope).forM fun descendant =>
    if (topology.level descendant).isOpen ∧ topology.candidateAffects scope definition.id
        (descendant :: topology.ancestors descendant) then
      (topology.view descendant).validateCandidate definition
    else .ok ()

/-- What the first phase of a publication checks; it answers the dependency snapshot. -/
def beginPublication (topology : Topology ν) (scope : Nat) (definition : CapabilityDefinition)
    (expectation : PublishExpectation) : Except ScopeError (ResolvedDependencies ν) := do
  (topology.view scope).checkExpectation definition.id expectation
  (topology.view scope).validateCandidate definition
  (topology.view scope).resolveDependencies definition

/-- What the second phase of a publication checks; it answers the generation. -/
def admitPreconstructed (topology : Topology ν) (scope : Nat) (definition : CapabilityDefinition)
    (expectation : PublishExpectation) (dependencies : ResolvedDependencies ν) :
    Except ScopeError Nat := do
  let current ← (topology.view scope).resolveDependencies definition
  match Scope.changedDependency definition current dependencies with
  | some dependency => .error (.dependencyChanged definition.id dependency)
  | none =>
    topology.validateDescendantAdmission scope definition
    (topology.view scope).checkExpectation definition.id expectation
    (topology.view scope).validateWithEntries definition
    (topology.view scope).nextGeneration definition.id expectation

/-- Installs an entry. -/
def install (topology : Topology ν) (scope : Nat) (handle : CapabilityHandle ν) : Topology ν :=
  topology.modify scope fun state =>
    { state with entries := state.entries.insert handle.definition.id handle }

/-- Which entry a withdrawal removes. -/
def withdrawable (topology : Topology ν) (scope : Nat) (capability : Id) (expected : Nat) :
    Except ScopeError (CapabilityHandle ν) :=
  if ¬ (topology.level scope).isOpen then .error .closed
  else
    match (topology.level scope).entries[capability]? with
    | none => .error (.noLocalEntry capability)
    | some entry =>
      if entry.generation ≠ expected then
        .error (.replacementConflict capability expected entry.generation)
      else .ok entry

/-- Removes an entry. -/
def remove (topology : Topology ν) (scope : Nat) (capability : Id) : Topology ν :=
  topology.modify scope fun state => { state with entries := state.entries.erase capability }

/-- Takes the entries of a scope and leaves it in a lifecycle. -/
def empty (topology : Topology ν) (scope : Nat) (lifecycle : Lifecycle) : Topology ν :=
  topology.modify scope fun state => { state with entries := ∅, lifecycle := lifecycle }

/-- Nothing refers to a scope any more. -/
def release (topology : Topology ν) (scope : Nat) : Topology ν :=
  topology.modify scope fun state => { state with live := false }

/-- Tears the given scopes down in order; those that are not open are passed over. The answer is the
order in which the entries of each are released; a scope without such an order is left closing. -/
def teardownEach (topology : Topology ν) (orders : List (List Id)) :
    List Nat → Option (List (List Id)) × Topology ν
  | [] => (some orders, topology)
  | scope :: rest =>
    if ¬ (topology.level scope).isOpen then topology.teardownEach orders rest
    else
      match runtimeTeardownOrder (topology.level scope).entries with
      | .error _ => (none, topology.empty scope .closing)
      | .ok order => (topology.empty scope .closed).teardownEach (orders ++ [order]) rest

/-- **Teardown of a scope and its live descendants**, child first. -/
def teardown (topology : Topology ν) (scope : Nat) : Option (List (List Id)) × Topology ν :=
  topology.teardownEach [] (topology.collectDescendantsChildFirst scope ++ [scope])

end Topology

/-! ### The tree -/

namespace ScopeTree

variable {ν : Type}

/-- A tree of one empty root scope. -/
def root : ScopeTree ν := ⟨⟨[⟨[], ∅, .opened, true⟩]⟩, [], 1, false, [], []⟩

/-- A call that takes the topology lock. It panics when the lock is poisoned, and it needs a handle
of its scope. -/
def locked (tree : ScopeTree ν) (scope : Nat) (call : ScopeAnswer ν × ScopeTree ν) :
    ScopeAnswer ν × ScopeTree ν :=
  if ¬ tree.topology.live scope then (.unavailable, tree)
  else if tree.poisoned then (.panicked, tree)
  else call

/-- Notes a publication that has begun. -/
def await (tree : ScopeTree ν) (begun : Publication ν) : ScopeAnswer ν × ScopeTree ν :=
  (.constructs tree.pending.length, { tree with pending := tree.pending ++ [some begun] })

/-- The slot that a publication provides; a replacement provides none. -/
def providedBy (scope : Nat) (capability : Id) : PublishExpectation → List (Nat × Id)
  | .new => [(scope, capability)]
  | .replace _ => []

/-- Installs an entry under the next identity. -/
def install (tree : ScopeTree ν) (scope : Nat) (expectation : PublishExpectation)
    (handle : CapabilityHandle ν) : ScopeTree ν :=
  { tree with
    topology := tree.topology.install scope handle
    nextEntryId := tree.nextEntryId + 1
    published := tree.published ++ [(scope, handle)]
    provided := tree.provided ++ providedBy scope handle.definition.id expectation }

/-- **The second phase of a publication**: admission again, then the entry. The counter of the entry
identities is taken under the lock; when it is exhausted the call panics. -/
def publishPreconstructed (tree : ScopeTree ν) (scope : Nat) (definition : CapabilityDefinition)
    (expectation : PublishExpectation) (dependencies : ResolvedDependencies ν) (value : ν) :
    ScopeAnswer ν × ScopeTree ν :=
  match tree.topology.admitPreconstructed scope definition expectation dependencies with
  | .error error => (.failed error, tree)
  | .ok generation =>
    match checkedNext tree.nextEntryId with
    | none => (.panicked, { tree with poisoned := true })
    | some _ =>
      let handle : CapabilityHandle ν :=
        ⟨definition, value, dependencies, generation, tree.nextEntryId⟩
      (.published handle, tree.install scope expectation handle)

/-- Publishes a value that was initialized outside; its snapshot is checked first, without the
lock. -/
def provideValue (tree : ScopeTree ν) (scope : Nat) (definition : CapabilityDefinition)
    (dependencies : ResolvedDependencies ν) (value : ν) : ScopeAnswer ν × ScopeTree ν :=
  match (tree.topology.view scope).checkSnapshot definition dependencies
      definition.dependencies.toList with
  | .error error => (.failed error, tree)
  | .ok _ => tree.locked scope
      (tree.publishPreconstructed scope definition .new dependencies value)

/-- What happens when a constructor or a plugin returns. -/
def complete (tree : ScopeTree ν) (begun : Publication ν) : Except Text ν →
    ScopeAnswer ν × ScopeTree ν
  | .error reason => (.failed (.constructionFailed begun.definition.id reason), tree)
  | .ok value =>
    if begun.load then tree.provideValue begun.scope begun.definition begun.dependencies value
    else tree.locked begun.scope (tree.publishPreconstructed begun.scope begun.definition
      begun.expectation begun.dependencies value)

/-- Withdraws one local publication. -/
def withdraw (tree : ScopeTree ν) (scope : Nat) (capability : Id) (expected : Nat) :
    ScopeAnswer ν × ScopeTree ν :=
  match tree.topology.withdrawable scope capability expected with
  | .error error => (.failed error, tree)
  | .ok entry =>
    (.withdrawn entry, { tree with topology := tree.topology.remove scope capability })

/-- Teardown under the lock; it panics when a scope has no teardown order. -/
def teardown (tree : ScopeTree ν) (scope : Nat) : ScopeAnswer ν × ScopeTree ν :=
  match tree.topology.teardown scope with
  | (some orders, topology) => (.tornDown orders, { tree with topology := topology })
  | (none, topology) => (.panicked, { tree with topology := topology, poisoned := true })

/-- Whether nothing but its handle refers to a scope: no child, no running publication. -/
def releasable (tree : ScopeTree ν) (scope : Nat) : Bool :=
  (tree.topology.children scope).isEmpty &&
    tree.pending.all fun publication => !publication.any fun begun => begun.scope = scope

/-- **What a call does.** -/
def step (tree : ScopeTree ν) : ScopeCall ν → ScopeAnswer ν × ScopeTree ν
  | .child scope => tree.locked scope
      (.child tree.topology.scopes.length, { tree with topology := tree.topology.child scope })
  | .publish scope definition expectation =>
    tree.locked scope <|
      match tree.topology.beginPublication scope definition expectation with
      | .error error => (.failed error, tree)
      | .ok dependencies => tree.await ⟨scope, definition, expectation, dependencies, false⟩
  | .load scope definition context =>
    if ¬ tree.topology.live scope then (.unavailable, tree)
    else
      match tree.topology.contextResolve context definition with
      | .error error => (.failed error, tree)
      | .ok dependencies => tree.await ⟨scope, definition, .new, dependencies, true⟩
  | .constructed publication result =>
    match tree.pending[publication]? with
    | some (some begun) =>
      { tree with pending := tree.pending.set publication none }.complete begun result
    | _ => (.unavailable, tree)
  | .withdraw scope capability expected =>
    tree.locked scope (tree.withdraw scope capability expected)
  | .teardown scope => tree.locked scope (tree.teardown scope)
  | .release scope =>
    if tree.topology.live scope ∧ tree.releasable scope then
      (.done, { tree with topology := tree.topology.release scope })
    else (.unavailable, tree)
  | .elsewhere =>
    match checkedNext tree.nextEntryId with
    | none => (.panicked, tree)
    | some next => (.done, { tree with nextEntryId := next })

/-- A run of calls. -/
def run (tree : ScopeTree ν) (calls : List (ScopeCall ν)) : ScopeTree ν :=
  calls.foldl (fun tree call => (tree.step call).2) tree

end ScopeTree

/-! ### Samples -/

def sampleA : Id := ⟨"a".toList, by decide⟩

def sampleAA : Id := ⟨"aa".toList, by decide⟩

def sampleB : Id := ⟨"b".toList, by decide⟩

def sampleD : Id := ⟨"d".toList, by decide⟩

/-- A definition with the given dependencies. -/
def sampleDefinition (id : Id) (dependencies : List Id) : CapabilityDefinition :=
  dependencies.foldl CapabilityDefinition.addDependency (.new id "sample".toList)

end Kernis
