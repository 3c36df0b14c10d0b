/-
**The removal of a plugin.**

A sweep that returns has disposed of every fiber that its runtime listed, whatever else happens meanwhile and
wherever other futures are dropped. When runtimes are swept only once they are out of the registry, it leaves no
fiber of its runtime, and none comes after it.

* `Pursued` — how far a sweep is with its snapshot; `Pursued.moves`.
* `Orderly` — a registry with its sweeps, in every run; `Orderly.step`.
* `Covered` — a registry whose runtimes are swept once they are out of it; `Covered.step`.
* `dispose_taken_complete` — what a sweep that has returned leaves.
-/

import Kernis.Capability.Final
import Kernis.Capability.Registry

namespace Kernis

open Std

/-! ### Sweeps -/

/-- The fiber that a sweep awaits. -/
def SweepPhase.awaited : SweepPhase → List Nat
  | .parked id _ | .inside id => [id]
  | _ => []

namespace Sweep

open CapabilityFiber (Final Ending Ended)

variable {ν : Type} {fibers : List (CapabilityFiber ν)} {sweep : Sweep}

/-- The failures among the answers of fibers. -/
def failures (heard : List (Nat × FiberAnswer)) : List FiberError :=
  heard.foldl (fun errors entry => noted errors entry.2) []

theorem failures_append (heard : List (Nat × FiberAnswer)) (id : Nat) (answer : FiberAnswer) :
    failures (heard ++ [(id, answer)]) = noted (failures heard) answer := by
  unfold failures
  rw [List.foldl_append]
  rfl

/-- What a sweep of a plugin returns. -/
def result (plugin : Id) (errors : List FiberError) : Except RegistryError Unit :=
  if errors = [] then .ok () else .error (.dispose plugin errors)

/-- **How far a sweep is**: what it has heard, what it awaits and what is left make its snapshot, in its order;
what it has heard of is disposed of. -/
structure Pursued (fibers : List (CapabilityFiber ν)) (sweep : Sweep) : Prop where
  noted : sweep.errors = failures sweep.heard
  order : sweep.phase ≠ .dropped →
    sweep.heard.map Prod.fst ++ (sweep.phase.awaited ++ sweep.left) = sweep.snapshot
  heard : ∀ entry ∈ sweep.heard, ∃ fiber, fibers[entry.1]? = some fiber ∧ fiber.state = .disposed ∧
    (.dispose, entry.2) ∈ fiber.answers
  parked : ∀ id ticket, sweep.phase = .parked id ticket →
    ∃ fiber, fibers[id]? = some fiber ∧ fiber.waiting[ticket]? = some (some .dispose)
  inside : ∀ id, sweep.phase = .inside id → ∃ fiber, fibers[id]? = some fiber ∧ Ending fiber
  done : ∀ answer, sweep.phase = .returned answer →
    sweep.left = [] ∧ ∀ id ∈ sweep.snapshot, ∃ fiber, fibers[id]? = some fiber ∧ fiber.registered = false

/-- **No two sweeps wait at one place or dispose of one fiber.** -/
structure Apart (sweeps : List Sweep) : Prop where
  parked : ∀ (i j : Nat) (one two : Sweep) (id ticket : Nat), sweeps[i]? = some one → sweeps[j]? = some two →
    one.phase = .parked id ticket → two.phase = .parked id ticket → i = j
  inside : ∀ (i j : Nat) (one two : Sweep) (id : Nat), sweeps[i]? = some one → sweeps[j]? = some two →
    one.phase = .inside id → two.phase = .inside id → i = j

/-- Whether an event leaves the call of a sweep to the sweep. -/
structure Spares (event : ReactiveEvent ν) (sweep : Sweep) : Prop where
  parked : ∀ id ticket, sweep.phase = .parked id ticket → event ≠ .fiber id (.acquire ticket)
  inside : ∀ id, sweep.phase = .inside id → event ≠ .fiber id .abandon

theorem settle_of (away : ∀ id, sweep.phase ≠ .inside id) : settle fibers sweep = sweep := by
  unfold settle
  split
  · exact absurd ‹_› (away _)
  · rfl

theorem settle_inside {id : Nat} {fiber : CapabilityFiber ν} (inside : sweep.phase = .inside id)
    (found : fibers[id]? = some fiber) (busy : fiber.transition ≠ .free) : settle fibers sweep = sweep := by
  unfold settle
  simp only [inside, found]
  split
  · exact absurd ‹_› busy
  · rfl

theorem settle_ended {id : Nat} {fiber : CapabilityFiber ν} {answer : FiberAnswer}
    (inside : sweep.phase = .inside id) (found : fibers[id]? = some fiber) (ended : Ended fiber answer) :
    settle fibers sweep = { sweep with
      errors := noted sweep.errors answer
      heard := sweep.heard ++ [(id, answer)]
      phase := .next } := by
  unfold settle
  simp only [inside, found, ended.free, ended.last]

/-- What a sweep that goes on has become. -/
theorem settle_cases (fibers : List (CapabilityFiber ν)) (sweep : Sweep) :
    settle fibers sweep = sweep ∨ (settle fibers sweep).phase = .next ∧
      (settle fibers sweep).runtime = sweep.runtime ∧ (settle fibers sweep).snapshot = sweep.snapshot := by
  unfold settle
  split
  · split
    · split
      · exact .inr ⟨rfl, rfl, rfl⟩
      · exact .inl rfl
    · exact .inl rfl
  · exact .inl rfl

/-- Where the fibers of a sweep are after an event. -/
theorem Pursued.onward {after : List (CapabilityFiber ν)} (pursued : Pursued fibers sweep)
    (goes : ∀ (id : Nat) (fiber : CapabilityFiber ν), fibers[id]? = some fiber → ∃ next, after[id]? = some next ∧
      (fiber.state = .disposed → next.state = .disposed) ∧
      (fiber.registered = false → next.registered = false) ∧ fiber.answers <+: next.answers)
    (parked : ∀ id ticket, sweep.phase = .parked id ticket →
      ∃ fiber, after[id]? = some fiber ∧ fiber.waiting[ticket]? = some (some .dispose))
    (inside : ∀ id, sweep.phase = .inside id → ∃ fiber, after[id]? = some fiber ∧ Ending fiber) :
    Pursued after sweep where
  noted := pursued.noted
  order := pursued.order
  heard entry member := by
    obtain ⟨fiber, found, disposed, answered⟩ := pursued.heard entry member
    obtain ⟨next, there, stays, _, answers⟩ := goes entry.1 fiber found
    exact ⟨next, there, stays disposed, answers.subset answered⟩
  parked := parked
  inside := inside
  done answer returned := by
    obtain ⟨nothing, off⟩ := pursued.done answer returned
    refine ⟨nothing, fun id member => ?_⟩
    obtain ⟨fiber, found, unlisted⟩ := off id member
    obtain ⟨next, there, _, stays, _⟩ := goes id fiber found
    exact ⟨next, there, stays unlisted⟩

/-- A sweep when fibers are made. -/
theorem Pursued.append (pursued : Pursued fibers sweep) (more : List (CapabilityFiber ν)) :
    Pursued (fibers ++ more) sweep := by
  have there {id : Nat} {fiber : CapabilityFiber ν} (found : fibers[id]? = some fiber) :
      (fibers ++ more)[id]? = some fiber :=
    (List.getElem?_append_left (List.getElem?_eq_some_iff.mp found).1).trans found
  refine pursued.onward (fun id fiber found => ⟨fiber, there found, fun same => same, fun same => same,
    List.prefix_rfl⟩) (fun id ticket parked => ?_) fun id inside => ?_
  · obtain ⟨fiber, found, waits⟩ := pursued.parked id ticket parked
    exact ⟨fiber, there found, waits⟩
  · obtain ⟨fiber, found, ending⟩ := pursued.inside id inside
    exact ⟨fiber, there found, ending⟩

/-- **A sweep after an event of the coordinator** that leaves its call to it. -/
theorem Pursued.moves {runtime : ReactiveRuntime ν} {event : ReactiveEvent ν}
    (pursued : Pursued runtime.fibers sweep) (final : ∀ fiber ∈ runtime.fibers, Final fiber)
    (spares : Spares event sweep) :
    Pursued (runtime.step event).fibers (settle (runtime.step event).fibers sweep) := by
  have goes (id : Nat) (fiber : CapabilityFiber ν) (found : runtime.fibers[id]? = some fiber) :
      ∃ next, (runtime.step event).fibers[id]? = some next ∧
        (fiber.state = .disposed → next.state = .disposed) ∧
        (fiber.registered = false → next.registered = false) ∧ fiber.answers <+: next.answers := by
    obtain ⟨next, there, moves⟩ := runtime.moves_step event found
    obtain ⟨_, kept⟩ := moves.final (final fiber (List.mem_of_getElem? found))
    exact ⟨next, there, kept⟩
  have parked (id ticket : Nat) (parked : sweep.phase = .parked id ticket) :
      ∃ fiber, (runtime.step event).fibers[id]? = some fiber ∧
        fiber.waiting[ticket]? = some (some .dispose) := by
    obtain ⟨fiber, found, waits⟩ := pursued.parked id ticket parked
    obtain ⟨next, there, moves⟩ := runtime.moves_step event found
    refine ⟨next, there, ?_⟩
    rcases moves with rfl | ⟨inner, tree, rfl, rfl⟩
    · exact waits
    · exact CapabilityFiber.waiting_step tree waits fun same => spares.parked id ticket parked (same ▸ rfl)
  by_cases inside : ∃ id, sweep.phase = .inside id
  · obtain ⟨id, inside⟩ := inside
    obtain ⟨fiber, found, ending⟩ := pursued.inside id inside
    obtain ⟨next, there, moves⟩ := runtime.moves_step event found
    have goes_on : Ending next ∨ ∃ answer, Ended next answer := by
      rcases moves with rfl | ⟨inner, tree, rfl, rfl⟩
      · exact .inl ending
      · exact ending.step tree fun same => spares.inside id inside (same ▸ rfl)
    rcases goes_on with ending | ⟨answer, ended⟩
    · rw [settle_inside inside there ending.busy]
      refine pursued.onward goes parked fun other same => ?_
      cases inside.symm.trans same
      exact ⟨next, there, ending⟩
    · have order := pursued.order (by rw [inside]; exact fun same => by cases same)
      rw [settle_ended inside there ended]
      refine ⟨?_, fun _ => ?_, fun entry member => ?_, fun _ _ same => ?_, fun _ same => ?_, fun _ same => ?_⟩
      · rw [failures_append, pursued.noted]
      · rw [List.map_append, List.append_assoc, ← order, inside]
        rfl
      · rcases List.mem_append.mp member with before | now
        · obtain ⟨fiber, found, disposed, answered⟩ := pursued.heard entry before
          obtain ⟨next, there, stays, _, answers⟩ := goes entry.1 fiber found
          exact ⟨next, there, stays disposed, answers.subset answered⟩
        · cases List.mem_singleton.mp now
          exact ⟨next, there, ended.disposed, ended.answered⟩
      · cases same
      · cases same
      · cases same
  · rw [settle_of fun id same => inside ⟨id, same⟩]
    exact pursued.onward goes parked fun id same => absurd ⟨id, same⟩ inside

/-- What a sweep that has heard of all of its snapshot has done. -/
theorem Pursued.all {fibers : List (CapabilityFiber ν)} {sweep : Sweep} (pursued : Pursued fibers sweep)
    (ended : sweep.phase.awaited = []) (running : sweep.phase ≠ .dropped) (left : sweep.left = []) {id : Nat}
    (inside : id ∈ sweep.snapshot) : ∃ fiber, fibers[id]? = some fiber ∧ fiber.state = .disposed := by
  have order := pursued.order running
  rw [ended, left] at order
  obtain ⟨entry, heard, rfl⟩ := List.mem_map.mp (((List.append_nil _).symm.trans order).symm ▸ inside)
  obtain ⟨fiber, found, disposed, _⟩ := pursued.heard entry heard
  exact ⟨fiber, found, disposed⟩

theorem Apart.settle {sweeps : List Sweep} (apart : Apart sweeps) (fibers : List (CapabilityFiber ν)) :
    Apart (sweeps.map (Sweep.settle fibers)) := by
  have before {i : Nat} {sweep : Sweep} (found : (sweeps.map (Sweep.settle fibers))[i]? = some sweep)
      (other : sweep.phase ≠ .next) : sweeps[i]? = some sweep := by
    rw [List.getElem?_map] at found
    obtain ⟨held, there, rfl⟩ := Option.map_eq_some_iff.mp found
    rcases settle_cases fibers held with same | ⟨next, _⟩
    · rw [same]
      exact there
    · exact absurd next other
  constructor
  · intro i j one two id ticket first second parked waits
    exact apart.parked i j one two id ticket (before first (by rw [parked]; exact fun same => by cases same))
      (before second (by rw [waits]; exact fun same => by cases same)) parked waits
  · intro i j one two id first second inside holds
    exact apart.inside i j one two id (before first (by rw [inside]; exact fun same => by cases same))
      (before second (by rw [holds]; exact fun same => by cases same)) inside holds

/-- One sweep goes where no other is. -/
theorem Apart.set {sweeps : List Sweep} (apart : Apart sweeps) {index : Nat} {current : Sweep}
    (parked : ∀ id ticket, current.phase = .parked id ticket → ∀ other ∈ sweeps,
      other.phase ≠ .parked id ticket)
    (inside : ∀ id, current.phase = .inside id → ∀ other ∈ sweeps, other.phase ≠ .inside id) :
    Apart (sweeps.set index current) := by
  have cases {i : Nat} {sweep : Sweep} (found : (sweeps.set index current)[i]? = some sweep) :
      (i = index ∧ sweep = current) ∨ sweeps[i]? = some sweep := by
    by_cases here : index = i
    · subst here
      have bound := (List.getElem?_eq_some_iff.mp found).1
      rw [List.length_set] at bound
      rw [List.getElem?_set_self bound] at found
      cases found
      exact .inl ⟨rfl, rfl⟩
    · rw [List.getElem?_set_ne here] at found
      exact .inr found
  constructor
  · intro i j one two id ticket first second waits stays
    rcases cases first with ⟨rfl, rfl⟩ | held
    · rcases cases second with ⟨rfl, rfl⟩ | there
      · rfl
      · exact absurd stays (parked id ticket waits two (List.mem_of_getElem? there))
    · rcases cases second with ⟨rfl, rfl⟩ | there
      · exact absurd waits (parked id ticket stays one (List.mem_of_getElem? held))
      · exact apart.parked i j one two id ticket held there waits stays
  · intro i j one two id first second holds stays
    rcases cases first with ⟨rfl, rfl⟩ | held
    · rcases cases second with ⟨rfl, rfl⟩ | there
      · rfl
      · exact absurd stays (inside id holds two (List.mem_of_getElem? there))
    · rcases cases second with ⟨rfl, rfl⟩ | there
      · exact absurd holds (inside id stays one (List.mem_of_getElem? held))
      · exact apart.inside i j one two id held there holds stays

end Sweep

namespace PluginSystem

open CapabilityFiber (Final Ending Ended)
open Sweep (Pursued Apart Spares failures result)

variable {ν : Type} {system : PluginSystem ν} {event : ReactiveEvent ν}

/-! ### The registry and its sweeps -/

/-- What a sweep that has returned has answered. -/
def Answers (runtimes : List PluginDefinition) (sweep : Sweep) : Prop :=
  ∃ definition, runtimes[sweep.runtime]? = some definition ∧
    ∀ answer, sweep.phase = .returned answer → answer = result definition.id (failures sweep.heard)

/-- **A registry among others**, in every run. -/
structure Orderly (system : PluginSystem ν) : Prop where
  owned : system.owners.length = system.coordinator.fibers.length
  final : ∀ fiber ∈ system.coordinator.fibers, Final fiber
  pursued : ∀ sweep ∈ system.sweeps, Pursued system.coordinator.fibers sweep
  mine : ∀ sweep ∈ system.sweeps, ∀ id ∈ sweep.snapshot, system.owners[id]? = some sweep.runtime
  apart : Apart system.sweeps
  answers : ∀ sweep ∈ system.sweeps, Answers system.runtimes sweep

theorem orderly_new (contexts : ContextTree ν) (context : List ContextState) :
    Orderly (new contexts context) where
  owned := rfl
  final _ member := absurd member List.not_mem_nil
  pursued _ member := absurd member List.not_mem_nil
  mine _ member := absurd member List.not_mem_nil
  apart := by
    constructor
    · intro i j one two id ticket first
      cases first
    · intro i j one two id first
      cases first
  answers _ member := absurd member List.not_mem_nil

/-- **An event of the coordinator**, of which every sweep knows. -/
theorem Orderly.moves (orderly : Orderly system)
    (uncreated : ∀ definition context config, event ≠ .create definition context config) {sweeps : List Sweep}
    (pursued : ∀ sweep ∈ sweeps, Pursued (system.coordinator.step event).fibers
      (Sweep.settle (system.coordinator.step event).fibers sweep))
    (mine : ∀ sweep ∈ sweeps, ∀ id ∈ sweep.snapshot, system.owners[id]? = some sweep.runtime)
    (apart : Apart sweeps) (answers : ∀ sweep ∈ sweeps, Answers system.runtimes sweep) :
    Orderly ({ system with sweeps := sweeps }.moves event) where
  owned := orderly.owned.trans (system.coordinator.length_step uncreated).symm
  final next member := by
    obtain ⟨id, found⟩ := List.getElem?_of_mem member
    obtain ⟨fiber, before, moves⟩ := system.coordinator.before_step uncreated found
    exact (moves.final (orderly.final fiber (List.mem_of_getElem? before))).1
  pursued sweep member := by
    obtain ⟨before, inside, rfl⟩ := List.mem_map.mp member
    exact pursued before inside
  mine sweep member := by
    obtain ⟨before, inside, rfl⟩ := List.mem_map.mp member
    rcases Sweep.settle_cases (system.coordinator.step event).fibers before with same | ⟨_, runtime, snapshot⟩
    · rw [same]
      exact mine before inside
    · rw [runtime, snapshot]
      exact mine before inside
  apart := apart.settle _
  answers sweep member := by
    obtain ⟨before, inside, rfl⟩ := List.mem_map.mp member
    obtain ⟨definition, found, answered⟩ := answers before inside
    rcases Sweep.settle_cases (system.coordinator.step event).fibers before with same | ⟨next, runtime, _⟩
    · rw [same]
      exact ⟨definition, found, answered⟩
    · refine ⟨definition, runtime ▸ found, fun answer returned => ?_⟩
      rw [next] at returned
      cases returned

/-- An event that every sweep leaves alone. -/
theorem Orderly.elsewhere (orderly : Orderly system)
    (uncreated : ∀ definition context config, event ≠ .create definition context config)
    (spares : ∀ sweep ∈ system.sweeps, Spares event sweep) : Orderly (system.moves event) :=
  orderly.moves uncreated (fun sweep member => (orderly.pursued sweep member).moves orderly.final
    (spares sweep member)) orderly.mine orderly.apart orderly.answers

/-- **A poll of a sweep that calls its fiber.** -/
theorem Orderly.current (orderly : Orderly system) {index id : Nat} {inner : FiberEvent ν} {before current : Sweep}
    (found : system.sweeps[index]? = some before) (runtime : current.runtime = before.runtime)
    (snapshot : current.snapshot = before.snapshot)
    (spares : ∀ (other : Nat) (sweep : Sweep), system.sweeps[other]? = some sweep → other ≠ index →
      Spares (.fiber id inner) sweep)
    (pursued : Pursued (system.coordinator.step (.fiber id inner)).fibers
      (Sweep.settle (system.coordinator.step (.fiber id inner)).fibers current))
    (apart : Apart (system.sweeps.set index current)) (running : ∀ answer, current.phase ≠ .returned answer) :
    Orderly ({ system with sweeps := system.sweeps.set index current }.moves (.fiber id inner)) := by
  have bound := (List.getElem?_eq_some_iff.mp found).1
  have cases {sweep : Sweep} (member : sweep ∈ system.sweeps.set index current) :
      sweep = current ∨ ∃ other, other ≠ index ∧ system.sweeps[other]? = some sweep := by
    obtain ⟨other, there⟩ := List.getElem?_of_mem member
    by_cases here : index = other
    · subst here
      rw [List.getElem?_set_self bound] at there
      cases there
      exact .inl rfl
    · rw [List.getElem?_set_ne here] at there
      exact .inr ⟨other, Ne.symm here, there⟩
  refine orderly.moves (fun _ _ _ same => by cases same) (fun sweep member => ?_) (fun sweep member => ?_) apart
    fun sweep member => ?_
  · rcases cases member with rfl | ⟨other, different, there⟩
    · exact pursued
    · exact (orderly.pursued sweep (List.mem_of_getElem? there)).moves orderly.final
        (spares other sweep there different)
  · rcases cases member with rfl | ⟨other, _, there⟩
    · rw [runtime, snapshot]
      exact orderly.mine before (List.mem_of_getElem? found)
    · exact orderly.mine sweep (List.mem_of_getElem? there)
  · rcases cases member with rfl | ⟨other, _, there⟩
    · obtain ⟨definition, known, _⟩ := orderly.answers before (List.mem_of_getElem? found)
      exact ⟨definition, runtime ▸ known, fun answer returned => absurd returned (running answer)⟩
    · exact orderly.answers sweep (List.mem_of_getElem? there)

/-- What a fiber has become after an event of the coordinator. -/
theorem Orderly.goes (orderly : Orderly system) (event : ReactiveEvent ν) (id : Nat)
    (fiber : CapabilityFiber ν) (found : system.coordinator.fibers[id]? = some fiber) :
    ∃ next, (system.coordinator.step event).fibers[id]? = some next ∧
      (fiber.state = .disposed → next.state = .disposed) ∧
      (fiber.registered = false → next.registered = false) ∧ fiber.answers <+: next.answers := by
  obtain ⟨next, there, moves⟩ := system.coordinator.moves_step event found
  exact ⟨next, there, (moves.final (orderly.final fiber (List.mem_of_getElem? found))).2⟩

/-- What a sweep has heard of stays true. -/
theorem Orderly.heard (orderly : Orderly system) (event : ReactiveEvent ν) {sweep : Sweep}
    (member : sweep ∈ system.sweeps) : ∀ entry ∈ sweep.heard,
      ∃ fiber, (system.coordinator.step event).fibers[entry.1]? = some fiber ∧ fiber.state = .disposed ∧
        (.dispose, entry.2) ∈ fiber.answers := by
  intro entry heard
  obtain ⟨fiber, found, disposed, answered⟩ := (orderly.pursued sweep member).heard entry heard
  obtain ⟨next, there, stays, _, answers⟩ := orderly.goes event entry.1 fiber found
  exact ⟨next, there, stays disposed, answers.subset answered⟩

/-- **A sweep calls the disposal of the next fiber.** -/
theorem Orderly.calls (orderly : Orderly system) (unpoisoned : system.coordinator.tree.poisoned = false)
    {index id : Nat} {rest : List Nat} {sweep : Sweep} (found : system.sweeps[index]? = some sweep)
    (next : sweep.phase = .next) (left : sweep.left = id :: rest) {fiber : CapabilityFiber ν}
    (held : system.coordinator.fibers[id]? = some fiber) :
    Orderly ({ system with sweeps := system.sweeps.set index { sweep with
      left := rest
      phase := .parked id fiber.waiting.length } }.moves (.fiber id (.call .dispose))) := by
  have member := List.mem_of_getElem? found
  have pursued := orderly.pursued sweep member
  have order := pursued.order (by rw [next]; exact fun same => by cases same)
  rw [next, left] at order
  refine orderly.current found rfl rfl (fun other rival there different => ?_) ?_ ?_ fun answer same => by cases same
  · exact ⟨(fun _ _ _ same => by cases same), fun _ _ same => by cases same⟩
  · rw [Sweep.settle_of fun other same => by cases same]
    have heard := orderly.heard (.fiber id (.call .dispose)) member
    refine ⟨pursued.noted, fun _ => order, heard, fun other ticket same => ?_,
      (fun _ same => by cases same), fun _ same => by cases same⟩
    cases same
    refine ⟨_, ReactiveRuntime.fiber_step unpoisoned held (.call .dispose), ?_⟩
    exact List.getElem?_concat_length
  · refine orderly.apart.set (fun other ticket same rival there parked => ?_) fun _ same => by cases same
    cases same
    -- A place at the end of the queue is a new one.
    obtain ⟨fiber', found', waits⟩ := (orderly.pursued rival there).parked _ _ parked
    cases held.symm.trans found'
    exact absurd (List.getElem?_eq_some_iff.mp waits).1 (Nat.lt_irrefl _)

/-- **A sweep gets the lock of its fiber.** -/
theorem Orderly.acquires (orderly : Orderly system) (unpoisoned : system.coordinator.tree.poisoned = false)
    {index id ticket : Nat} {sweep : Sweep} (found : system.sweeps[index]? = some sweep)
    (parked : sweep.phase = .parked id ticket) (resting : system.coordinator.resting id = true) :
    Orderly ({ system with sweeps := system.sweeps.set index { sweep with phase := .inside id } }.moves
      (.fiber id (.acquire ticket))) := by
  have member := List.mem_of_getElem? found
  have pursued := orderly.pursued sweep member
  have order := pursued.order (by rw [parked]; exact fun same => by cases same)
  rw [parked] at order
  obtain ⟨fiber, held, waits⟩ := pursued.parked id ticket parked
  have free : fiber.transition = .free := by
    unfold ReactiveRuntime.resting at resting
    rw [held] at resting
    exact of_decide_eq_true resting
  have there := ReactiveRuntime.fiber_step unpoisoned held (.acquire ticket)
  refine orderly.current found rfl rfl (fun other rival there different => ?_) ?_ ?_ fun answer same => by cases same
  · refine ⟨fun first second waits same => ?_, fun _ _ same => by cases same⟩
    cases same
    exact different (orderly.apart.parked other index rival sweep _ _ there found waits parked)
  · have heard := orderly.heard (.fiber id (.acquire ticket)) member
    rcases CapabilityFiber.ending_acquire system.coordinator.tree free waits with ending | ⟨answer, ended⟩
    · rw [Sweep.settle_inside rfl there ending.busy]
      refine ⟨pursued.noted, fun _ => order, heard, (fun _ _ same => by cases same), fun _ same => ?_,
        fun _ same => by cases same⟩
      cases same
      exact ⟨_, there, ending⟩
    · rw [Sweep.settle_ended rfl there ended]
      refine ⟨?_, fun _ => ?_, fun entry inside => ?_, (fun _ _ same => by cases same),
        (fun _ same => by cases same), fun _ same => by cases same⟩
      · rw [Sweep.failures_append, pursued.noted]
      · rw [List.map_append, List.append_assoc]
        exact order
      · rcases List.mem_append.mp inside with before | now
        · exact heard entry before
        · cases List.mem_singleton.mp now
          exact ⟨_, there, ended.disposed, ended.answered⟩
  · refine orderly.apart.set (fun _ _ same => by cases same) fun other same rival there inside => ?_
    cases same
    obtain ⟨fiber', found', ending⟩ := (orderly.pursued rival there).inside _ inside
    cases held.symm.trans found'
    exact ending.busy free

/-- **The future of a sweep is dropped.** -/
theorem Orderly.drop (orderly : Orderly system) (index : Nat) : Orderly (system.drop index) := by
  unfold PluginSystem.drop
  split
  · exact orderly
  rename_i sweep found
  have member := List.mem_of_getElem? found
  have pursued := orderly.pursued sweep member
  have apart : Apart (system.sweeps.set index { sweep with phase := .dropped }) :=
    orderly.apart.set (fun _ _ same => by cases same) fun _ same => by cases same
  split
  · have cases {rival : Sweep} (there : rival ∈ system.sweeps.set index { sweep with phase := .dropped }) :
        rival ∈ system.sweeps ∨ rival = { sweep with phase := .dropped } := List.mem_or_eq_of_mem_set there
    refine ⟨orderly.owned, orderly.final, fun rival there => ?_, fun rival there => ?_, apart, fun rival there => ?_⟩
    · rcases cases there with before | rfl
      · exact orderly.pursued rival before
      · exact ⟨pursued.noted, fun away => absurd rfl away, pursued.heard, (fun _ _ same => by cases same),
          (fun _ same => by cases same), fun _ same => by cases same⟩
    · rcases cases there with before | rfl
      · exact orderly.mine rival before
      · exact orderly.mine sweep member
    · rcases cases there with before | rfl
      · exact orderly.answers rival before
      · obtain ⟨definition, known, _⟩ := orderly.answers sweep member
        exact ⟨definition, known, fun _ same => by cases same⟩
  · rename_i id inside
    split
    · refine orderly.current found rfl rfl (fun other rival there different => ?_) ?_ apart
        fun answer same => by cases same
      · refine ⟨(fun _ _ _ same => by cases same), fun first holds same => ?_⟩
        cases same
        exact different (orderly.apart.inside other index rival sweep _ there found holds inside)
      · have heard := orderly.heard (.fiber id .abandon) member
        rw [Sweep.settle_of fun other same => by cases same]
        exact ⟨pursued.noted, fun away => absurd rfl away, heard, (fun _ _ same => by cases same),
          (fun _ same => by cases same), fun _ same => by cases same⟩
    · exact orderly
  · exact orderly

/-! ### The end of a sweep -/

/-- What the clearing of the list of a runtime leaves. -/
structure Clears (runtime : Nat) (system cleared : PluginSystem ν) : Prop where
  orderly : Orderly cleared
  unpoisoned : cleared.coordinator.tree.poisoned = false
  owners : cleared.owners = system.owners
  runtimes : cleared.runtimes = system.runtimes
  registry : cleared.registry = system.registry
  goes : ∀ (id : Nat) (fiber : CapabilityFiber ν), system.coordinator.fibers[id]? = some fiber →
    ∃ next, cleared.coordinator.fibers[id]? = some next ∧ next.state = fiber.state ∧
      (next.registered = fiber.registered ∨ next.registered = false ∧ system.owners[id]? = some runtime)
  length : cleared.coordinator.fibers.length = system.coordinator.fibers.length
  sweeps : cleared.sweeps = system.sweeps

theorem Clears.refl (orderly : Orderly system) (unpoisoned : system.coordinator.tree.poisoned = false)
    (runtime : Nat) : Clears runtime system system :=
  ⟨orderly, unpoisoned, rfl, rfl, rfl, fun _ fiber found => ⟨fiber, found, rfl, .inl rfl⟩, rfl, rfl⟩

/-- What was off the list stays off it. -/
theorem Clears.stays {runtime : Nat} {cleared : PluginSystem ν} (clears : Clears runtime system cleared) {id : Nat}
    {fiber next : CapabilityFiber ν} (found : system.coordinator.fibers[id]? = some fiber)
    (there : cleared.coordinator.fibers[id]? = some next) (unlisted : fiber.registered = false) :
    next.registered = false := by
  obtain ⟨last, held, _, listed⟩ := clears.goes id fiber found
  cases there.symm.trans held
  rcases listed with same | ⟨off, _⟩
  · exact same.trans unlisted
  · exact off

/-- One fiber is taken off the list. -/
theorem Clears.step {runtime : Nat} {cleared : PluginSystem ν} (clears : Clears runtime system cleared) {id : Nat}
    (owner : system.owners[id]? = some runtime) :
    Clears runtime system (cleared.moves (.fiber id .unlist)) ∧
      ∀ fiber, (cleared.moves (.fiber id .unlist)).coordinator.fibers[id]? = some fiber →
        fiber.registered = false := by
  obtain ⟨orderly, unpoisoned, owners, runtimes, registry, goes, length, sweeps⟩ := clears
  have uncreated : ∀ definition context config,
      (.fiber id .unlist : ReactiveEvent ν) ≠ .create definition context config :=
    fun _ _ _ same => by cases same
  have shape : ∀ (other : Nat) (fiber : CapabilityFiber ν), cleared.coordinator.fibers[other]? = some fiber →
      ∃ next, (cleared.coordinator.step (.fiber id .unlist)).fibers[other]? = some next ∧
        next.transition = fiber.transition ∧ next.state = fiber.state ∧
          (next.registered = fiber.registered ∨ next.registered = false ∧ id = other) := by
    intro other fiber found
    obtain ⟨next, there, moves⟩ := cleared.coordinator.moves_step (.fiber id .unlist) found
    refine ⟨next, there, ?_⟩
    rcases moves with rfl | ⟨inner, tree, same, rfl⟩
    · exact ⟨rfl, rfl, .inl rfl⟩
    · cases same
      exact ⟨rfl, rfl, .inr ⟨rfl, rfl⟩⟩
  have tree : (cleared.coordinator.step (.fiber id .unlist)).tree = cleared.coordinator.tree := by
    unfold ReactiveRuntime.step
    rw [if_neg (by rw [unpoisoned]; exact Bool.false_ne_true)]
    simp only
    split
    · rfl
    · rfl
  refine ⟨⟨orderly.elsewhere uncreated fun sweep _ => ⟨(fun _ _ _ same => by cases same), fun _ _ same => by
    cases same⟩, (congrArg ScopeTree.poisoned tree).trans unpoisoned, owners, runtimes, registry, ?_, ?_, ?_⟩, ?_⟩
  · intro other fiber found
    obtain ⟨middle, there, state, off⟩ := goes other fiber found
    obtain ⟨next, after, _, same, listed⟩ := shape other middle there
    refine ⟨next, after, same.trans state, ?_⟩
    rcases listed with still | ⟨unlisted, rfl⟩
    · rcases off with before | ⟨unlisted, owned⟩
      · exact .inl (still.trans before)
      · exact .inr ⟨still.trans unlisted, owned⟩
    · exact .inr ⟨unlisted, owner⟩
  · exact (cleared.coordinator.length_step uncreated).trans length
  · rw [← sweeps]
    have same : ∀ sweep ∈ cleared.sweeps,
        Sweep.settle (cleared.coordinator.step (.fiber id .unlist)).fibers sweep = sweep := by
      intro sweep member
      by_cases inside : ∃ other, sweep.phase = .inside other
      · obtain ⟨other, inside⟩ := inside
        obtain ⟨fiber, found, ending⟩ := (orderly.pursued sweep member).inside other inside
        obtain ⟨next, there, transition, _⟩ := shape other fiber found
        exact Sweep.settle_inside inside there (transition ▸ ending.busy)
      · exact Sweep.settle_of fun other same => inside ⟨other, same⟩
    exact (List.map_congr_left same).trans (List.map_id' _)
  · intro fiber found
    obtain ⟨before, held, moves⟩ := cleared.coordinator.before_step uncreated found
    have there := ReactiveRuntime.fiber_step unpoisoned held .unlist
    cases found.symm.trans there
    rfl

theorem Clears.all {runtime : Nat} {cleared : PluginSystem ν} (clears : Clears runtime system cleared)
    (ids : List Nat) (owned : ∀ id ∈ ids, system.owners[id]? = some runtime) :
    Clears runtime system (ids.foldl (fun system id => system.moves (.fiber id .unlist)) cleared) ∧
      ∀ id ∈ ids, ∀ fiber,
        (ids.foldl (fun system id => system.moves (.fiber id .unlist)) cleared).coordinator.fibers[id]? =
          some fiber → fiber.registered = false := by
  induction ids generalizing system cleared with
  | nil => exact ⟨clears, fun _ member => absurd member List.not_mem_nil⟩
  | cons id rest ih =>
    obtain ⟨first, others⟩ := List.forall_mem_cons.mp owned
    obtain ⟨next, off⟩ := clears.step first
    obtain ⟨after, later⟩ := ih next others
    refine ⟨after, fun other member fiber found => ?_⟩
    rcases List.mem_cons.mp member with rfl | inside
    · obtain ⟨rests, _⟩ := ih (Clears.refl next.orderly next.unpoisoned runtime) fun id member => by
        rw [next.owners]
        exact others id member
      have bound := (List.getElem?_eq_some_iff.mp found).1
      rw [List.foldl_cons, rests.length] at bound
      have held := List.getElem?_eq_getElem bound
      exact rests.stays held found (off _ held)
    · exact later other inside fiber found

theorem mem_listed {runtime id : Nat} : id ∈ system.listed runtime ↔
    ∃ fiber, system.coordinator.fibers[id]? = some fiber ∧ fiber.registered = true ∧
      system.owners[id]? = some runtime := by
  unfold PluginSystem.listed
  rw [List.mem_filter, List.mem_range]
  constructor
  · rintro ⟨_, both⟩
    obtain ⟨owner, any⟩ := of_decide_eq_true both
    cases found : system.coordinator.fibers[id]? with
    | none =>
      rw [found] at any
      cases any
    | some fiber =>
      rw [found] at any
      exact ⟨fiber, rfl, any, owner⟩
  · rintro ⟨fiber, found, listed, owner⟩
    refine ⟨(List.getElem?_eq_some_iff.mp found).1, decide_eq_true ⟨owner, ?_⟩⟩
    rw [found]
    exact listed

/-- **A list is cleared**: no fiber of the runtime is on it any more. -/
theorem Orderly.clears (orderly : Orderly system) (unpoisoned : system.coordinator.tree.poisoned = false)
    (runtime : Nat) : Clears runtime system (system.unlist runtime) ∧ ∀ (id : Nat) (fiber : CapabilityFiber ν),
      (system.unlist runtime).coordinator.fibers[id]? = some fiber → system.owners[id]? = some runtime →
        fiber.registered = false := by
  obtain ⟨clears, off⟩ := (Clears.refl orderly unpoisoned runtime).all (system.listed runtime) fun id member => by
    obtain ⟨_, _, _, owner⟩ := mem_listed.mp member
    exact owner
  refine ⟨clears, fun id fiber found owner => ?_⟩
  by_cases listed : id ∈ system.listed runtime
  · exact off id listed fiber found
  · have bound := (List.getElem?_eq_some_iff.mp found).1
    rw [PluginSystem.unlist, clears.length] at bound
    have held := List.getElem?_eq_getElem bound
    refine clears.stays held found (Bool.eq_false_iff.mpr fun registered => listed ?_)
    exact mem_listed.mpr ⟨_, held, registered, owner⟩

/-- **A sweep returns** when nothing is left of its snapshot. -/
theorem Orderly.returns (orderly : Orderly system) (unpoisoned : system.coordinator.tree.poisoned = false)
    {index : Nat} {sweep : Sweep} (found : system.sweeps[index]? = some sweep) (next : sweep.phase = .next)
    (left : sweep.left = []) : Orderly { system.unlist sweep.runtime with
      sweeps := (system.unlist sweep.runtime).sweeps.set index { sweep with
        phase := .returned ((system.unlist sweep.runtime).answer sweep) } } := by
  obtain ⟨clears, off⟩ := orderly.clears unpoisoned sweep.runtime
  have after := clears.orderly
  have member : sweep ∈ (system.unlist sweep.runtime).sweeps := by
    rw [clears.sweeps]
    exact List.mem_of_getElem? found
  have pursued := after.pursued sweep member
  have order := pursued.order (by rw [next]; exact fun same => by cases same)
  rw [next, left] at order
  have heard : sweep.heard.map Prod.fst = sweep.snapshot := (List.append_nil _).symm.trans order
  refine ⟨after.owned, after.final, fun rival there => ?_, fun rival there => ?_,
    after.apart.set (fun _ _ same => by cases same) (fun _ same => by cases same), fun rival there => ?_⟩
  · rcases List.mem_or_eq_of_mem_set there with before | rfl
    · exact after.pursued rival before
    · refine ⟨pursued.noted, fun _ => ?_, pursued.heard, (fun _ _ same => by cases same),
        (fun _ same => by cases same), fun answer _ => ⟨left, fun id inside => ?_⟩⟩
      · rw [left]
        exact order
      · obtain ⟨entry, heard, rfl⟩ := List.mem_map.mp (heard.symm ▸ inside)
        obtain ⟨fiber, there, _⟩ := pursued.heard entry heard
        refine ⟨fiber, there, off entry.1 fiber there ?_⟩
        rw [← clears.owners]
        exact after.mine sweep member entry.1 inside
  · rcases List.mem_or_eq_of_mem_set there with before | rfl
    · exact after.mine rival before
    · exact after.mine sweep member
  · rcases List.mem_or_eq_of_mem_set there with before | rfl
    · exact after.answers rival before
    · obtain ⟨definition, known, _⟩ := after.answers sweep member
      refine ⟨definition, known, fun answer returned => ?_⟩
      cases returned
      unfold PluginSystem.answer result
      rw [known, ← pursued.noted]
      cases sweep.errors with
      | nil => rfl
      | cons error errors => rfl

/-- **A poll of a sweep.** -/
theorem Orderly.sweep (orderly : Orderly system) (unpoisoned : system.coordinator.tree.poisoned = false)
    (index : Nat) : Orderly (system.sweep index) := by
  unfold PluginSystem.sweep
  split
  · exact orderly
  rename_i sweep found
  split
  · rename_i id rest next left
    split
    · exact orderly
    · exact orderly.calls unpoisoned found next left ‹_›
  · rename_i next left
    exact orderly.returns unpoisoned found next left
  · rename_i id ticket left parked
    split
    · exact orderly.acquires unpoisoned found parked ‹_›
    · exact orderly
  · exact orderly

/-! ### Every event -/

/-- A sweep begins. -/
theorem Orderly.begins (orderly : Orderly system) (runtime : Nat) : Orderly (system.disposeTaken runtime) := by
  unfold PluginSystem.disposeTaken
  split
  · rename_i known
    have cases {rival : Sweep} (there : rival ∈ system.sweeps ++
        [⟨runtime, system.listed runtime, system.listed runtime, [], [], .next⟩]) :
        rival ∈ system.sweeps ∨
          rival = ⟨runtime, system.listed runtime, system.listed runtime, [], [], .next⟩ := by
      rcases List.mem_append.mp there with before | now
      · exact .inl before
      · exact .inr (List.mem_singleton.mp now)
    have before {i : Nat} {rival : Sweep} (there : (system.sweeps ++
        [⟨runtime, system.listed runtime, system.listed runtime, [], [], .next⟩])[i]? = some rival)
        (other : rival.phase ≠ .next) : system.sweeps[i]? = some rival := by
      rw [List.getElem?_append] at there
      split at there
      · exact there
      · cases List.mem_singleton.mp (List.mem_of_getElem? there)
        exact absurd rfl other
    refine ⟨orderly.owned, orderly.final, fun rival there => ?_, fun rival there => ?_, ⟨?_, ?_⟩,
      fun rival there => ?_⟩
    · rcases cases there with old | rfl
      · exact orderly.pursued rival old
      · exact ⟨rfl, fun _ => rfl, fun _ member => absurd member List.not_mem_nil,
          (fun _ _ same => by cases same), (fun _ same => by cases same), fun _ same => by cases same⟩
    · rcases cases there with old | rfl
      · exact orderly.mine rival old
      · intro id member
        obtain ⟨_, _, _, owner⟩ := mem_listed.mp member
        exact owner
    · intro i j one two id ticket first second parked waits
      exact orderly.apart.parked i j one two id ticket
        (before first (by rw [parked]; exact fun same => by cases same))
        (before second (by rw [waits]; exact fun same => by cases same)) parked waits
    · intro i j one two id first second inside holds
      exact orderly.apart.inside i j one two id
        (before first (by rw [inside]; exact fun same => by cases same))
        (before second (by rw [holds]; exact fun same => by cases same)) inside holds
    · rcases cases there with old | rfl
      · exact orderly.answers rival old
      · exact ⟨_, List.getElem?_eq_getElem known, fun _ same => by cases same⟩
  · exact orderly

/-- What is taken out of the registry. -/
theorem Orderly.registry (orderly : Orderly system) (registry : BTreeMap Id Nat) :
    Orderly { system with registry := registry } :=
  ⟨orderly.owned, orderly.final, orderly.pursued, orderly.mine, orderly.apart, orderly.answers⟩

/-- What an instantiation does. -/
theorem instantiate_cases (unpoisoned : system.coordinator.tree.poisoned = false) (plugin : Id) {context : Nat}
    {views : List ContextState} (live : system.coordinator.contexts.contexts[context]? = some (some views))
    (config : Text) : (system.instantiate plugin context config).2 = system ∨
      ∃ runtime definition, system.registry[plugin]? = some runtime ∧ system.runtimes[runtime]? = some definition ∧
        (system.instantiate plugin context config).2 = { system with
          coordinator := { system.coordinator with
            fibers := system.coordinator.fibers ++ [.new definition views config] }
          owners := system.owners ++ [runtime] } := by
  unfold PluginSystem.instantiate PluginSystem.get
  cases registered : system.registry[plugin]? with
  | none => exact .inl rfl
  | some runtime =>
    rw [Option.bind_some]
    cases known : system.runtimes[runtime]? with
    | none => exact .inl rfl
    | some definition =>
      simp only [Option.map_some]
      split
      · exact .inl rfl
      · rename_i valid
        refine .inr ⟨runtime, definition, rfl, known, ?_⟩
        unfold ReactiveRuntime.step
        rw [if_neg (by rw [unpoisoned]; exact Bool.false_ne_true)]
        simp only [live, valid]

/-- A fiber is made. -/
theorem Orderly.makes (orderly : Orderly system) (runtime : Nat) (definition : PluginDefinition)
    (views : List ContextState) (config : Text) : Orderly { system with
      coordinator := { system.coordinator with
        fibers := system.coordinator.fibers ++ [.new definition views config] }
      owners := system.owners ++ [runtime] } where
  owned := by
    rw [List.length_append, List.length_append, orderly.owned]
    rfl
  final fiber member := by
    rcases List.mem_append.mp member with before | now
    · exact orderly.final fiber before
    · cases List.mem_singleton.mp now
      exact CapabilityFiber.final_new definition views config
  pursued sweep member := (orderly.pursued sweep member).append _
  mine sweep member id inside := by
    have owner := orderly.mine sweep member id inside
    rw [List.getElem?_append_left (List.getElem?_eq_some_iff.mp owner).1]
    exact owner
  apart := orderly.apart
  answers := orderly.answers

/-- Whether everybody else leaves the calls of the sweeps alone. -/
theorem spares_of_foreign (foreign : system.foreign event = true) {sweep : Sweep}
    (member : sweep ∈ system.sweeps) : Spares event sweep := by
  constructor
  · rintro id ticket parked rfl
    have free := List.all_eq_true.mp foreign sweep member
    unfold Sweep.waits at free
    simp [parked] at free
  · rintro id inside rfl
    have free := List.all_eq_true.mp foreign sweep member
    unfold Sweep.holds at free
    simp [inside] at free

/-- **Every event keeps the sweeps in order.** -/
theorem Orderly.step (orderly : Orderly system) (event : PluginEvent ν) : Orderly (system.step event) := by
  unfold PluginSystem.step
  split
  · exact orderly
  rename_i poisoned
  have unpoisoned := Bool.eq_false_iff.mpr poisoned
  cases event with
  | new definition =>
    refine ⟨orderly.owned, orderly.final, orderly.pursued, orderly.mine, orderly.apart, fun sweep member => ?_⟩
    obtain ⟨known, found, answered⟩ := orderly.answers sweep member
    exact ⟨known, (List.getElem?_append_left (List.getElem?_eq_some_iff.mp found).1).trans found, answered⟩
  | register runtime =>
    simp only [PluginSystem.register]
    split
    · exact orderly
    · split
      · exact orderly
      · exact orderly.registry _
  | instantiate plugin context config =>
    simp only
    split
    · rename_i views live
      rcases instantiate_cases unpoisoned plugin live config with same | ⟨runtime, definition, _, _, same⟩
      · rw [same]
        exact orderly
      · rw [same]
        exact orderly.makes runtime definition views config
    · exact orderly
  | take plugin => exact orderly.registry _
  | disposeTaken runtime => exact orderly.begins runtime
  | remove plugin =>
    simp only [PluginSystem.remove, PluginSystem.take]
    cases registered : system.registry[plugin]? with
    | none => exact orderly
    | some runtime => exact (orderly.registry _).begins runtime
  | sweep index => exact orderly.sweep unpoisoned index
  | drop index => exact orderly.drop index
  | other event =>
    simp only
    split
    · rename_i foreign
      refine orderly.elsewhere (fun definition context config same => ?_) fun sweep member =>
        spares_of_foreign foreign member
      rw [same] at foreign
      cases foreign
    · exact orderly

theorem Orderly.run (orderly : Orderly system) (events : List (PluginEvent ν)) : Orderly (system.run events) := by
  induction events generalizing system with
  | nil => exact orderly
  | cons event rest ih => exact ih (orderly.step event)

/-! ### A runtime that is out of the registry -/

/-- **A registry whose runtimes are swept only once they are out of it**: a fiber of such a runtime is in the
snapshot of every sweep, unless it was disposed of before. -/
structure Covered (system : PluginSystem ν) : Prop where
  named : ∀ (plugin : Id) (runtime : Nat), system.registry[plugin]? = some runtime →
    ∃ definition, system.runtimes[runtime]? = some definition ∧ definition.id = plugin
  off : ∀ sweep ∈ system.sweeps, ∀ plugin : Id, system.registry[plugin]? ≠ some sweep.runtime
  gone : ∀ (id : Nat) (fiber : CapabilityFiber ν), system.coordinator.fibers[id]? = some fiber →
    fiber.registered = false → fiber.state = .disposed
  covered : ∀ sweep ∈ system.sweeps, ∀ (id : Nat) (fiber : CapabilityFiber ν),
    system.coordinator.fibers[id]? = some fiber → system.owners[id]? = some sweep.runtime →
      fiber.state = .disposed ∧ fiber.registered = false ∨ id ∈ sweep.snapshot

theorem covered_new (contexts : ContextTree ν) (context : List ContextState) :
    Covered (new contexts context) where
  named plugin runtime registered := by
    rw [PluginSystem.new, ExtTreeMap.getElem?_empty] at registered
    cases registered
  off _ member := absurd member List.not_mem_nil
  gone id fiber found := by cases found
  covered _ member := absurd member List.not_mem_nil

/-- An event of the coordinator that makes no fiber and clears no list. -/
theorem Covered.moves (covered : Covered system) (orderly : Orderly system)
    (uncreated : ∀ definition context config, event ≠ .create definition context config)
    (uncleared : ∀ id, event ≠ .fiber id .unlist) {sweeps : List Sweep}
    (kin : ∀ sweep ∈ sweeps, ∃ before ∈ system.sweeps, sweep.runtime = before.runtime ∧
      sweep.snapshot = before.snapshot) : Covered ({ system with sweeps := sweeps }.moves event) := by
  have kin' : ∀ sweep ∈ sweeps.map (Sweep.settle (system.coordinator.step event).fibers),
      ∃ before ∈ system.sweeps, sweep.runtime = before.runtime ∧ sweep.snapshot = before.snapshot := by
    intro sweep member
    obtain ⟨middle, inside, rfl⟩ := List.mem_map.mp member
    obtain ⟨before, there, runtime, snapshot⟩ := kin middle inside
    rcases Sweep.settle_cases (system.coordinator.step event).fibers middle with same | ⟨_, first, second⟩
    · rw [same]
      exact ⟨before, there, runtime, snapshot⟩
    · exact ⟨before, there, first.trans runtime, second.trans snapshot⟩
  refine ⟨covered.named, fun sweep member => ?_, fun id next found unlisted => ?_,
    fun sweep member id next found owner => ?_⟩
  · obtain ⟨before, there, runtime, _⟩ := kin' sweep member
    rw [runtime]
    exact covered.off before there
  · obtain ⟨fiber, before, moves⟩ := system.coordinator.before_step uncreated found
    obtain ⟨_, stays, _⟩ := moves.final (orderly.final fiber (List.mem_of_getElem? before))
    rcases moves with rfl | ⟨inner, tree, same, rfl⟩
    · exact covered.gone id next before unlisted
    · rcases CapabilityFiber.listed_step fiber tree fun clears => uncleared id (clears ▸ same) with
        kept | ⟨_, disposed⟩
      · exact stays (covered.gone id fiber before (kept.symm.trans unlisted))
      · exact disposed
  · obtain ⟨before, there, runtime, snapshot⟩ := kin' sweep member
    obtain ⟨fiber, held, moves⟩ := system.coordinator.before_step uncreated found
    obtain ⟨_, stays, off, _⟩ := moves.final (orderly.final fiber (List.mem_of_getElem? held))
    rw [snapshot]
    rcases covered.covered before there id fiber held (runtime ▸ owner) with ⟨disposed, unlisted⟩ | inside
    · exact .inl ⟨stays disposed, off unlisted⟩
    · exact .inr inside

/-- The sweeps go on, and nothing else does. -/
theorem Covered.replaced (covered : Covered system) {sweeps : List Sweep}
    (kin : ∀ sweep ∈ sweeps, ∃ before ∈ system.sweeps, sweep.runtime = before.runtime ∧
      sweep.snapshot = before.snapshot) : Covered { system with sweeps := sweeps } where
  named := covered.named
  off sweep member := by
    obtain ⟨before, there, runtime, _⟩ := kin sweep member
    rw [runtime]
    exact covered.off before there
  gone := covered.gone
  covered sweep member := by
    obtain ⟨before, there, runtime, snapshot⟩ := kin sweep member
    rw [runtime, snapshot]
    exact covered.covered before there

/-- One sweep goes on. -/
theorem kin_set {index : Nat} {sweep current : Sweep} (found : system.sweeps[index]? = some sweep)
    (runtime : current.runtime = sweep.runtime) (snapshot : current.snapshot = sweep.snapshot) :
    ∀ rival ∈ system.sweeps.set index current, ∃ before ∈ system.sweeps, rival.runtime = before.runtime ∧
      rival.snapshot = before.snapshot := by
  intro rival member
  rcases List.mem_or_eq_of_mem_set member with before | rfl
  · exact ⟨rival, before, rfl, rfl⟩
  · exact ⟨sweep, List.mem_of_getElem? found, runtime, snapshot⟩

/-- A runtime is taken out of the registry. -/
theorem Covered.erase (covered : Covered system) (plugin : Id) :
    Covered { system with registry := system.registry.erase plugin } := by
  have still {other : Id} {runtime : Nat} (registered : (system.registry.erase plugin)[other]? = some runtime) :
      other ≠ plugin ∧ system.registry[other]? = some runtime := by
    rw [ExtTreeMap.getElem?_erase] at registered
    split at registered
    · cases registered
    · rename_i different
      exact ⟨fun same => different (compare_eq_iff_eq.mpr same.symm), registered⟩
  refine ⟨fun other runtime registered => covered.named other runtime (still registered).2,
    fun sweep member other registered => covered.off sweep member other (still registered).2, covered.gone,
    covered.covered⟩

/-- **A sweep begins**, over a runtime that is out of the registry. -/
theorem Covered.begins (covered : Covered system) {runtime : Nat}
    (out : ∀ plugin : Id, system.registry[plugin]? ≠ some runtime) : Covered (system.disposeTaken runtime) := by
  unfold PluginSystem.disposeTaken
  split
  · refine ⟨covered.named, fun sweep member => ?_, covered.gone, fun sweep member id fiber found owner => ?_⟩
    · rcases List.mem_append.mp member with before | now
      · exact covered.off sweep before
      · cases List.mem_singleton.mp now
        exact out
    · rcases List.mem_append.mp member with before | now
      · exact covered.covered sweep before id fiber found owner
      · cases List.mem_singleton.mp now
        by_cases listed : fiber.registered = true
        · exact .inr (mem_listed.mpr ⟨fiber, found, listed, owner⟩)
        · have unlisted := Bool.eq_false_iff.mpr listed
          exact .inl ⟨covered.gone id fiber found unlisted, unlisted⟩
  · exact covered

/-- **A sweep returns**, and the list is cleared. -/
theorem Covered.clears (covered : Covered system) (orderly : Orderly system)
    (unpoisoned : system.coordinator.tree.poisoned = false) {sweep : Sweep} (member : sweep ∈ system.sweeps)
    (next : sweep.phase = .next) (left : sweep.left = []) : Covered (system.unlist sweep.runtime) := by
  obtain ⟨clears, off⟩ := orderly.clears unpoisoned sweep.runtime
  have before {id : Nat} {after : CapabilityFiber ν}
      (found : (system.unlist sweep.runtime).coordinator.fibers[id]? = some after) :
      ∃ fiber, system.coordinator.fibers[id]? = some fiber ∧ after.state = fiber.state ∧
        (after.registered = fiber.registered ∨
          after.registered = false ∧ system.owners[id]? = some sweep.runtime) := by
    have bound := (List.getElem?_eq_some_iff.mp found).1
    rw [clears.length] at bound
    have held := List.getElem?_eq_getElem bound
    obtain ⟨last, there, rest⟩ := clears.goes id _ held
    cases found.symm.trans there
    exact ⟨_, held, rest⟩
  have pursued := orderly.pursued sweep member
  -- The sweep has disposed of all that its runtime lists.
  have swept {id : Nat} {fiber : CapabilityFiber ν} (found : system.coordinator.fibers[id]? = some fiber)
      (owner : system.owners[id]? = some sweep.runtime) : fiber.state = .disposed := by
    rcases covered.covered sweep member id fiber found owner with ⟨disposed, _⟩ | inside
    · exact disposed
    · obtain ⟨held, there, disposed⟩ := pursued.all (by rw [next]; rfl)
        (by rw [next]; exact fun same => by cases same) left inside
      cases found.symm.trans there
      exact disposed
  refine ⟨?_, fun rival there => ?_, fun id after found unlisted => ?_, fun rival there id after found owner => ?_⟩
  · rw [clears.registry, clears.runtimes]
    exact covered.named
  · rw [clears.registry]
    exact covered.off rival (clears.sweeps ▸ there)
  · obtain ⟨fiber, held, state, same | ⟨_, owner⟩⟩ := before found
    · exact state.trans (covered.gone id fiber held (same.symm.trans unlisted))
    · exact state.trans (swept held owner)
  · obtain ⟨fiber, held, state, listed⟩ := before found
    rw [clears.owners] at owner
    rcases covered.covered rival (clears.sweeps ▸ there) id fiber held owner with ⟨disposed, unlisted⟩ | inside
    · refine .inl ⟨state.trans disposed, ?_⟩
      rcases listed with same | ⟨off, _⟩
      · exact same.trans unlisted
      · exact off
    · exact .inr inside

/-- A poll of a sweep. -/
theorem Covered.sweep (covered : Covered system) (orderly : Orderly system)
    (unpoisoned : system.coordinator.tree.poisoned = false) (index : Nat) : Covered (system.sweep index) := by
  unfold PluginSystem.sweep
  split
  · exact covered
  rename_i sweep found
  split
  · split
    · exact covered
    · exact covered.moves orderly (fun _ _ _ same => by cases same) (fun _ same => by cases same)
        (kin_set found rfl rfl)
  · rename_i next left
    have cleared := covered.clears orderly unpoisoned (List.mem_of_getElem? found) next left
    obtain ⟨clears, _⟩ := orderly.clears unpoisoned sweep.runtime
    have there : (system.unlist sweep.runtime).sweeps[index]? = some sweep := by
      rw [clears.sweeps]
      exact found
    exact cleared.replaced (kin_set there rfl rfl)
  · split
    · exact covered.moves orderly (fun _ _ _ same => by cases same) (fun _ same => by cases same)
        (kin_set found rfl rfl)
    · exact covered
  · exact covered

/-- **Every careful event keeps the runtimes covered.** -/
theorem Covered.step (covered : Covered system) (orderly : Orderly system) {event : PluginEvent ν}
    (careful : system.careful event = true) : Covered (system.step event) := by
  unfold PluginSystem.step
  split
  · exact covered
  rename_i poisoned
  have unpoisoned := Bool.eq_false_iff.mpr poisoned
  cases event with
  | new definition =>
    refine ⟨fun plugin runtime registered => ?_, covered.off, covered.gone, covered.covered⟩
    obtain ⟨known, found, named⟩ := covered.named plugin runtime registered
    exact ⟨known, (List.getElem?_append_left (List.getElem?_eq_some_iff.mp found).1).trans found, named⟩
  | register runtime =>
    have unswept : ∀ sweep ∈ system.sweeps, sweep.runtime ≠ runtime := fun sweep member =>
      of_decide_eq_true (List.all_eq_true.mp careful sweep member)
    simp only [PluginSystem.register]
    split
    · exact covered
    · rename_i definition known
      split
      · exact covered
      · have cases {plugin : Id} {other : Nat}
            (registered : (system.registry.insert definition.id runtime)[plugin]? = some other) :
            definition.id = plugin ∧ runtime = other ∨ system.registry[plugin]? = some other := by
          rw [ExtTreeMap.getElem?_insert] at registered
          split at registered
          · rename_i same
            exact .inl ⟨compare_eq_iff_eq.mp same, Option.some.inj registered⟩
          · exact .inr registered
        refine ⟨fun plugin other registered => ?_, fun sweep member plugin registered => ?_, covered.gone,
          covered.covered⟩
        · rcases cases registered with ⟨same, rfl⟩ | before
          · exact ⟨definition, known, same⟩
          · exact covered.named plugin other before
        · rcases cases registered with ⟨_, same⟩ | before
          · exact unswept sweep member same.symm
          · exact covered.off sweep member plugin before
  | instantiate plugin context config =>
    simp only
    split
    · rename_i views live
      rcases instantiate_cases unpoisoned plugin live config with same | ⟨runtime, definition, registered, _, same⟩
      · rw [same]
        exact covered
      · rw [same]
        have cases {id : Nat} {fiber : CapabilityFiber ν}
            (found : (system.coordinator.fibers ++ [.new definition views config])[id]? = some fiber) :
            system.coordinator.fibers[id]? = some fiber ∨
              id = system.coordinator.fibers.length ∧ fiber = .new definition views config := by
          rw [List.getElem?_append] at found
          split at found
          · exact .inl found
          · rename_i beyond
            have bound := (List.getElem?_eq_some_iff.mp found).1
            rw [List.length_singleton] at bound
            exact .inr ⟨by omega, List.mem_singleton.mp (List.mem_of_getElem? found)⟩
        refine ⟨covered.named, covered.off, fun id fiber found unlisted => ?_,
          fun sweep member id fiber found owner => ?_⟩
        · rcases cases found with before | ⟨_, rfl⟩
          · exact covered.gone id fiber before unlisted
          · cases unlisted
        · rcases cases found with before | ⟨rfl, rfl⟩
          · have bound := (List.getElem?_eq_some_iff.mp before).1
            rw [← orderly.owned] at bound
            rw [List.getElem?_append_left bound] at owner
            exact covered.covered sweep member id fiber before owner
          · rw [← orderly.owned, List.getElem?_concat_length] at owner
            cases owner
            exact absurd registered (covered.off sweep member plugin)
    · exact covered
  | take plugin => exact covered.erase plugin
  | disposeTaken runtime =>
    refine covered.begins fun plugin registered => ?_
    have out := List.all_eq_true.mp careful (plugin, runtime)
      (ExtTreeMap.mem_toList_iff_getElem?_eq_some.mpr registered)
    exact of_decide_eq_true out rfl
  | remove plugin =>
    simp only [PluginSystem.remove, PluginSystem.take]
    cases registered : system.registry[plugin]? with
    | none => exact covered
    | some runtime =>
      refine (covered.erase plugin).begins fun other again => ?_
      -- The runtime is registered under the name of its plugin only.
      rw [ExtTreeMap.getElem?_erase] at again
      split at again
      · cases again
      · rename_i different
        obtain ⟨first, found, named⟩ := covered.named plugin runtime registered
        obtain ⟨second, there, same⟩ := covered.named other runtime again
        cases found.symm.trans there
        exact different (compare_eq_iff_eq.mpr (named.symm.trans same))
  | sweep index => exact covered.sweep orderly unpoisoned index
  | drop index =>
    simp only [PluginSystem.drop]
    split
    · exact covered
    rename_i sweep found
    split
    · exact covered.replaced (kin_set found rfl rfl)
    · split
      · exact covered.moves orderly (fun _ _ _ same => by cases same) (fun _ same => by cases same)
          (kin_set found rfl rfl)
      · exact covered
    · exact covered
  | other event =>
    simp only
    split
    · rename_i foreign
      refine covered.moves orderly (fun definition context config same => ?_) (fun id same => ?_)
        fun sweep member => ⟨sweep, member, rfl, rfl⟩
      · rw [same] at foreign
        cases foreign
      · rw [same] at foreign
        cases foreign
    · exact covered

theorem Covered.run (covered : Covered system) (orderly : Orderly system) {events : List (PluginEvent ν)}
    (careful : Careful system events) : Covered (system.run events) := by
  induction events generalizing system with
  | nil => exact covered
  | cons event rest ih => exact ih (covered.step orderly careful.1) (orderly.step event) careful.2

/-! ### What a sweep leaves -/

/-- **What a sweep that has returned leaves**: each fiber that its runtime listed, in order, has answered, is
disposed of and is off the list; the sweep has returned their failures. -/
structure Swept (system : PluginSystem ν) (sweep : Sweep) (answer : Except RegistryError Unit) : Prop where
  order : sweep.heard.map Prod.fst = sweep.snapshot
  heard : ∀ entry ∈ sweep.heard, ∃ fiber, system.coordinator.fibers[entry.1]? = some fiber ∧
    (.dispose, entry.2) ∈ fiber.answers ∧ fiber.state = .disposed ∧ fiber.registered = false
  answer : ∃ definition, system.runtimes[sweep.runtime]? = some definition ∧
    answer = result definition.id (failures sweep.heard)

/-- **Nothing is left of a runtime**: all of its fibers are disposed of, and it lists none. -/
def Vacated (system : PluginSystem ν) (runtime : Nat) : Prop :=
  ∀ (id : Nat) (fiber : CapabilityFiber ν), system.coordinator.fibers[id]? = some fiber →
    system.owners[id]? = some runtime → fiber.state = .disposed ∧ fiber.registered = false

/-- **A sweep that returns is complete**, in every run, whatever happens beside it and whichever futures are
dropped: it has disposed of every fiber that its runtime listed at first, and reports what went wrong with
them. When runtimes are swept only once they are out of the registry for good, it leaves no fiber of its runtime,
then and in every state after. -/
theorem dispose_taken_complete (contexts : ContextTree ν) (context : List ContextState)
    (events : List (PluginEvent ν)) (sweep : Sweep) (member : sweep ∈ ((new contexts context).run events).sweeps)
    (answer : Except RegistryError Unit) (returned : sweep.phase = .returned answer) :
    Swept ((new contexts context).run events) sweep answer ∧
      (Careful (new contexts context) events → Vacated ((new contexts context).run events) sweep.runtime) := by
  have orderly := (orderly_new contexts context).run events
  have pursued := orderly.pursued sweep member
  obtain ⟨left, off⟩ := pursued.done answer returned
  have running : sweep.phase ≠ .dropped := by
    rw [returned]
    exact fun same => by cases same
  have ended : sweep.phase.awaited = [] := by
    rw [returned]
    rfl
  have order := pursued.order running
  rw [ended, left] at order
  have heard : sweep.heard.map Prod.fst = sweep.snapshot := (List.append_nil _).symm.trans order
  refine ⟨⟨heard, fun entry inside => ?_, ?_⟩, fun careful id fiber found owner => ?_⟩
  · obtain ⟨fiber, found, disposed, answered⟩ := pursued.heard entry inside
    obtain ⟨same, there, unlisted⟩ := off entry.1 (heard ▸ List.mem_map_of_mem inside)
    cases found.symm.trans there
    exact ⟨fiber, found, answered, disposed, unlisted⟩
  · obtain ⟨definition, known, answered⟩ := orderly.answers sweep member
    exact ⟨definition, known, answered answer returned⟩
  · have covered := (covered_new contexts context).run (orderly_new contexts context) careful
    rcases covered.covered sweep member id fiber found owner with both | inside
    · exact both
    · obtain ⟨held, there, disposed⟩ := pursued.all ended running left inside
      obtain ⟨same, here, unlisted⟩ := off id inside
      cases found.symm.trans there
      cases found.symm.trans here
      exact ⟨disposed, unlisted⟩

/-- A registry over an empty root scope. -/
def samplePlugins : PluginSystem Unit := new ContextTree.root [⟨0, ∅, ∅⟩]

/-- A fiber is loaded with one effect. -/
def loadedFiber (id : Nat) : List (PluginEvent Unit) :=
  [.other (.fiber id (.call .start)), .other (.fiber id (.acquire 0)), .other (.fiber id .go),
    .other (.fiber id (.register 0 [])), .other (.fiber id (.returned (.ok ()))), .other (.fiber id .go)]

/-- A plugin with two fibers is removed, the removal is dropped in a disposer of the first, and its runtime is
swept again while the second starts. -/
def resumedRemoval : List (PluginEvent Unit) :=
  [.new FiberSystem.samplePlugin, .register 0, .instantiate sampleA 0 [], .instantiate sampleA 0 []] ++ loadedFiber 0 ++
    [.other (.fiber 1 (.call .start)), .remove sampleA, .sweep 0, .sweep 0, .drop 0, .disposeTaken 0, .sweep 1,
      .sweep 1, .other (.fiber 0 .go), .sweep 1, .other (.fiber 1 (.acquire 0)), .sweep 1, .other (.fiber 1 .go),
      .sweep 1]

theorem dispose_taken_complete_resumed : ∃ sweep ∈ (samplePlugins.run resumedRemoval).sweeps,
    sweep.snapshot = [0, 1] ∧ Swept (samplePlugins.run resumedRemoval) sweep (.ok ()) ∧
      Vacated (samplePlugins.run resumedRemoval) sweep.runtime := by
  obtain ⟨sweep, found⟩ := Option.isSome_iff_exists.mp
    (show ((samplePlugins.run resumedRemoval).sweeps[1]?).isSome = true by decide +kernel)
  have stands : ((samplePlugins.run resumedRemoval).sweeps[1]?.all fun sweep =>
      sweep.snapshot = [0, 1] ∧ sweep.phase.succeeded = true) = true := by decide +kernel
  rw [found] at stands
  obtain ⟨snapshot, ended⟩ := of_decide_eq_true stands
  obtain ⟨swept, vacated⟩ := dispose_taken_complete ContextTree.root [⟨0, ∅, ∅⟩] resumedRemoval sweep
    (List.mem_of_getElem? found) (.ok ()) (SweepPhase.returned_of_succeeded ended)
  exact ⟨sweep, List.mem_of_getElem? found, snapshot, swept, vacated (by decide +kernel)⟩

end PluginSystem

end Kernis
