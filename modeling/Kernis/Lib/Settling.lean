/-
**Workers that refill what went out of date.**

Finitely many workers step one at a time. Each fills a cell of its own from the cells that it reads, and the
step of one may put others out of date.

* `Workers` — what a step does to the cell of its worker, and to those of the others.
* `Schedule` — an endless run; `Schedule.serial`: a worker that never comes to an end reads another.
* `Workers.acc` — there is no endless run.
-/

import Mathlib.Data.Fintype.Card
import Mathlib.Order.Filter.AtTopBot.Basic
import Mathlib.Order.Filter.Finite
import Mathlib.Order.WellFounded

namespace Kernis

open Filter

/-- What a cell holds. A failed one is not filled again. -/
inductive Cell
  | idle
  | filled
  | failed
deriving DecidableEq

/-- **Workers and their cells.** A worker steps when its cell is idle or not `bound` to what it was filled
from. It `owns` its cell while nobody else took it. Every cell lies at a place and is filled from cells at
that place or below; while a place is `sound`, no cells there are filled from one another in a circle. -/
structure Workers (σ ι : Type) where
  step : σ → ι → σ → Prop
  cell : σ → ι → Cell
  bound : σ → ι → Prop
  owns : σ → ι → Prop
  sound : σ → Nat → Prop
  place : ι → Nat
  reads : ι → ι → Prop
  below : ∀ {worker other}, reads worker other → place other ≤ place worker
  acyclic : ∀ {state level}, sound state level → ∀ worker, ¬ Relation.TransGen (fun one other =>
    (∀ each, each = one ∨ each = other → place each = level ∧ cell state each = .filled ∧ owns state each) ∧
      reads one other) worker worker
  unfailed : ∀ {state worker next}, step state worker next → cell state worker ≠ .failed
  leaves : ∀ {state worker next}, step state worker next → cell state worker = .idle →
    cell next worker ≠ .idle
  outdated : ∀ {state worker next}, step state worker next → cell state worker = .filled →
    ¬ bound state worker
  refills : ∀ {state worker next}, step state worker next → cell state worker = .filled →
    owns state worker → sound state (place worker) → cell next worker ≠ .idle
  fills : ∀ {state worker next}, step state worker next → cell next worker = .filled →
    bound next worker ∧ owns next worker ∧ sound next (place worker)
  others : ∀ {state worker next}, step state worker next → ∀ other ≠ worker,
    cell next other = cell state other
  keepsOwned : ∀ {state worker next}, step state worker next → ∀ other ≠ worker,
    owns state other → owns next other
  keepsBound : ∀ {state worker next}, step state worker next → ∀ other ≠ worker,
    ¬ reads other worker → bound state other → bound next other
  keepsSound : ∀ {state worker next}, step state worker next → ∀ level < place worker,
    sound state level → sound next level

variable {σ ι : Type} {workers : Workers σ ι}

/-- An endless run of workers. -/
structure Schedule (workers : Workers σ ι) where
  state : Nat → σ
  worker : Nat → ι
  steps : ∀ time, workers.step (state time) (worker time) (state (time + 1))

namespace Schedule

variable (schedule : Schedule workers) {level start time : Nat} {worker : ι}

/-- What a worker keeps and the steps of others do not change lasts. -/
theorem lasts (worker : ι) (good : σ → Prop) (begins : good (schedule.state start))
    (own : ∀ time ≥ start, schedule.worker time = worker → good (schedule.state time) →
      good (schedule.state (time + 1)))
    (others : ∀ time ≥ start, worker ≠ schedule.worker time → good (schedule.state time) →
      good (schedule.state (time + 1))) (later : start ≤ time) : good (schedule.state time) := by
  induction time, later using Nat.le_induction with
  | base => exact begins
  | succ time later ih =>
    by_cases here : schedule.worker time = worker
    · exact own time later here ih
    · exact others time later (Ne.symm here) ih

/-! ### In the long run -/

/-- A worker fails once at most. -/
theorem unfailing (worker : ι) : ∀ᶠ time in atTop, schedule.worker time = worker →
    workers.cell (schedule.state (time + 1)) worker ≠ .failed := by
  by_cases fails : ∃ start, schedule.worker start = worker ∧
      workers.cell (schedule.state (start + 1)) worker = .failed
  · obtain ⟨start, _, failed⟩ := fails
    refine eventually_atTop.mpr ⟨start + 1, fun time later here => ?_⟩
    have still : workers.cell (schedule.state time) worker = .failed := by
      refine schedule.lasts worker (fun state => workers.cell state worker = .failed) failed
        (fun time _ here now => ?_) (fun time _ other now => ?_) later
      · subst here
        exact absurd now (workers.unfailed (schedule.steps time))
      · exact (workers.others (schedule.steps time) worker other).trans now
    subst here
    exact absurd still (workers.unfailed (schedule.steps time))
  · exact .of_forall fun time here failed => fails ⟨time, here, failed⟩

/-- A worker that stepped before owns what it filled. -/
theorem owning (worker : ι) : ∀ᶠ time in atTop, schedule.worker time = worker →
    workers.cell (schedule.state time) worker = .filled → workers.owns (schedule.state time) worker := by
  by_cases steps : ∃ start, schedule.worker start = worker
  · obtain ⟨start, first⟩ := steps
    refine eventually_atTop.mpr ⟨start + 1, fun time later _ => ?_⟩
    refine schedule.lasts worker
      (fun state => workers.cell state worker = .filled → workers.owns state worker)
      (fun filled => ?_) (fun time _ here _ filled => ?_) (fun time _ other before filled => ?_) later
    · subst first
      exact (workers.fills (schedule.steps start) filled).2.1
    · subst here
      exact (workers.fills (schedule.steps time) filled).2.1
    · rw [workers.others (schedule.steps time) worker other] at filled
      exact workers.keepsOwned (schedule.steps time) worker other (before filled)
  · exact .of_forall fun time here => absurd ⟨time, here⟩ steps

/-- A worker at a place that steps again and again. -/
def Recurs (schedule : Schedule workers) (level : Nat) (worker : ι) : Prop :=
  workers.place worker = level ∧ ∃ᶠ time in atTop, schedule.worker time = worker

/-- **A time from which on every step is one of a worker that owns what it filled**, at this place or above,
and none fails. -/
structure Late (schedule : Schedule workers) (level start : Nat) : Prop where
  unfailed : ∀ time ≥ start, workers.cell (schedule.state (time + 1)) (schedule.worker time) ≠ .failed
  owned : ∀ time ≥ start, workers.cell (schedule.state time) (schedule.worker time) = .filled →
    workers.owns (schedule.state time) (schedule.worker time)
  above : ∀ time ≥ start, level ≤ workers.place (schedule.worker time)

/-- When the steps below a place are over, there is such a time. -/
theorem late [Finite ι]
    (below : ∀ lower < level, ∀ᶠ time in atTop, workers.place (schedule.worker time) ≠ lower) :
    ∃ start, Late schedule level start := by
  have spent (worker : ι) : ∀ᶠ time in atTop, schedule.worker time = worker →
      level ≤ workers.place worker := by
    by_cases lower : workers.place worker < level
    · refine (below _ lower).mono fun time other here => absurd ?_ other
      rw [here]
    · exact .of_forall fun _ _ => Nat.le_of_not_lt lower
  obtain ⟨start, all⟩ := eventually_atTop.mp (eventually_all.mpr fun worker =>
    (schedule.unfailing worker).and ((schedule.owning worker).and (spent worker)))
  exact ⟨start, fun time later => (all time later _).1 rfl, fun time later => (all time later _).2.1 rfl,
    fun time later => (all time later _).2.2 rfl⟩

namespace Late

variable {schedule}

/-- **A step at a sound place fills its cell**, and leaves the place sound. -/
theorem fills (late : Late schedule level start) (later : start ≤ time)
    (sound : workers.sound (schedule.state time) level)
    (here : workers.place (schedule.worker time) = level) :
    workers.cell (schedule.state (time + 1)) (schedule.worker time) = .filled := by
  have step := schedule.steps time
  subst here
  cases before : workers.cell (schedule.state time) (schedule.worker time) with
  | idle =>
    cases after : workers.cell (schedule.state (time + 1)) (schedule.worker time) with
    | idle => exact absurd after (workers.leaves step before)
    | filled => rfl
    | failed => exact absurd after (late.unfailed time later)
  | filled =>
    cases after : workers.cell (schedule.state (time + 1)) (schedule.worker time) with
    | idle => exact absurd after (workers.refills step before (late.owned time later before) sound)
    | filled => rfl
    | failed => exact absurd after (late.unfailed time later)
  | failed => exact absurd before (workers.unfailed step)

/-- A place that is sound at some time stays sound. -/
theorem sound (late : Late schedule level start) (begins : workers.sound (schedule.state start) level)
    (later : start ≤ time) : workers.sound (schedule.state time) level := by
  induction time, later using Nat.le_induction with
  | base => exact begins
  | succ time later ih =>
    rcases (late.above time later).eq_or_lt with here | above
    · have filled := late.fills later ih here.symm
      rw [here]
      exact (workers.fills (schedule.steps time) filled).2.2
    · exact workers.keepsSound (schedule.steps time) level above ih

/-- **A place at which steps go on becomes sound**: a worker that leaves its cell idle does not do so twice. -/
theorem becomes [Finite ι] (late : Late schedule level start)
    (goes : ∃ᶠ time in atTop, workers.place (schedule.worker time) = level) :
    ∃ time ≥ start, workers.sound (schedule.state time) level := by
  by_contra never
  have empties (time : Nat) (later : start ≤ time) (here : workers.place (schedule.worker time) = level) :
      workers.cell (schedule.state (time + 1)) (schedule.worker time) = .idle := by
    cases after : workers.cell (schedule.state (time + 1)) (schedule.worker time) with
    | idle => rfl
    | filled =>
      refine absurd ⟨time + 1, Nat.le_succ_of_le later, ?_⟩ never
      rw [← here]
      exact (workers.fills (schedule.steps time) after).2.2
    | failed => exact absurd after (late.unfailed time later)
  have ended (worker : ι) : ∀ᶠ time in atTop, schedule.worker time = worker →
      workers.place worker ≠ level := by
    by_cases steps : ∃ time ≥ start, schedule.worker time = worker
    · obtain ⟨first, since, rfl⟩ := steps
      refine eventually_atTop.mpr ⟨first + 1, fun time later again here => ?_⟩
      have idle : workers.cell (schedule.state time) (schedule.worker first) = .idle :=
        schedule.lasts (schedule.worker first)
          (fun state => workers.cell state (schedule.worker first) = .idle) (empties first since here)
          (fun time later again _ => again ▸ empties time (by omega) (again ▸ here))
          (fun time _ other now => (workers.others (schedule.steps time) _ other).trans now) later
      rw [← again] at idle here
      exact workers.leaves (schedule.steps time) idle (empties time (by omega) here)
    · exact eventually_atTop.mpr ⟨start, fun time later here => absurd ⟨time, later, here⟩ steps⟩
  exact goes ((eventually_all.mpr ended).mono fun time all => all _ rfl)

/-- A worker that steps again and again at a sound place holds its cell. -/
theorem holds (late : Late schedule level start) (sound : workers.sound (schedule.state start) level)
    (recurs : Recurs schedule level worker) :
    ∀ᶠ time in atTop, workers.cell (schedule.state time) worker = .filled ∧
      workers.owns (schedule.state time) worker := by
  have fills (time : Nat) (later : start ≤ time) (steps : schedule.worker time = worker) :
      workers.cell (schedule.state (time + 1)) worker = .filled ∧
        workers.owns (schedule.state (time + 1)) worker := by
    subst steps
    have filled := late.fills later (late.sound sound later) recurs.1
    exact ⟨filled, (workers.fills (schedule.steps time) filled).2.1⟩
  obtain ⟨first, since, steps⟩ := frequently_atTop.mp recurs.2 start
  refine eventually_atTop.mpr ⟨first + 1, fun time later => schedule.lasts worker
    (fun state => workers.cell state worker = .filled ∧ workers.owns state worker) (fills first since steps)
    (fun time later steps _ => fills time (by omega) steps) (fun time _ other before => ?_) later⟩
  rw [workers.others (schedule.steps time) worker other]
  exact ⟨before.1, workers.keepsOwned (schedule.steps time) worker other before.2⟩

/-- **A worker that steps again and again reads another that does**, at its place: what it is bound to changes
again and again. -/
theorem serial [Finite ι] (late : Late schedule level start)
    (sound : workers.sound (schedule.state start) level) (recurs : Recurs schedule level worker) :
    ∃ other, workers.reads worker other ∧ Recurs schedule level other := by
  obtain ⟨here, again⟩ := recurs
  by_contra none
  have unread (other : ι) : ∀ᶠ time in atTop, schedule.worker time = other → ¬ workers.reads worker other := by
    by_cases reads : workers.reads worker other
    · by_cases goes : ∃ᶠ time in atTop, schedule.worker time = other
      · obtain ⟨time, later, steps⟩ := frequently_atTop.mp goes start
        have above := late.above time later
        rw [steps] at above
        exact absurd ⟨other, reads, Nat.le_antisymm (here ▸ workers.below reads) above, goes⟩ none
      · exact (not_frequently.mp goes).mono fun time different same => absurd same different
    · exact .of_forall fun _ _ => reads
  obtain ⟨last, ended⟩ := eventually_atTop.mp (eventually_all.mpr unread)
  obtain ⟨first, since, steps⟩ := frequently_atTop.mp again (max start last)
  have fills (time : Nat) (later : first ≤ time) (steps : schedule.worker time = worker) :
      workers.cell (schedule.state (time + 1)) worker = .filled ∧
        workers.bound (schedule.state (time + 1)) worker := by
    subst steps
    have later : start ≤ time := by omega
    have filled := late.fills later (late.sound sound later) here
    exact ⟨filled, (workers.fills (schedule.steps time) filled).1⟩
  obtain ⟨next, later, steps'⟩ := frequently_atTop.mp again (first + 1)
  have bound : workers.cell (schedule.state next) worker = .filled ∧
      workers.bound (schedule.state next) worker :=
    schedule.lasts worker
      (fun state => workers.cell state worker = .filled ∧ workers.bound state worker)
      (fills first le_rfl steps) (fun time later steps _ => fills time (by omega) steps)
      (fun time later other before => ⟨(workers.others (schedule.steps time) worker other).trans before.1,
        workers.keepsBound (schedule.steps time) worker other (ended time (by omega) _ rfl) before.2⟩) later
  subst steps'
  exact workers.outdated (schedule.steps next) bound.1 bound.2

end Late

/-! ### No endless run -/

/-- A relation without circles on finitely many elements has an element of every set that is related to none
of the set. -/
theorem exists_last [Finite ι] {link : ι → ι → Prop} (acyclic : ∀ one, ¬ Relation.TransGen link one one)
    {among : ι → Prop} {one : ι} (member : among one) :
    ∃ last, among last ∧ ∀ other, among other → ¬ link last other := by
  have : IsTrans ι (Relation.TransGen (Function.swap link)) := ⟨fun _ _ _ => Relation.TransGen.trans⟩
  have : Std.Irrefl (Relation.TransGen (Function.swap link)) :=
    ⟨fun one circle => acyclic one (Relation.transGen_swap.mp circle)⟩
  obtain ⟨last, inside, least⟩ := (Finite.wellFounded_of_trans_of_irrefl
    (Relation.TransGen (Function.swap link))).has_min {one | among one} ⟨one, member⟩
  exact ⟨last, inside, fun other among linked => least other among (.single linked)⟩

/-- Of finitely many workers, one steps again and again where steps go on. -/
theorem recurs [Finite ι] (goes : ∃ᶠ time in atTop, workers.place (schedule.worker time) = level) :
    ∃ worker, Recurs schedule level worker := by
  by_contra none
  have ended (worker : ι) : ∀ᶠ time in atTop, schedule.worker time = worker →
      workers.place worker ≠ level := by
    by_cases here : workers.place worker = level
    · have rare := not_frequently.mp fun again => none ⟨worker, here, again⟩
      exact rare.mono fun time different same => absurd same different
    · exact .of_forall fun _ _ => here
  exact goes ((eventually_all.mpr ended).mono fun time all => all _ rfl)

/-- **At every place the steps are over at some time.** -/
theorem spent [Finite ι] (level : Nat) :
    ∀ᶠ time in atTop, workers.place (schedule.worker time) ≠ level := by
  induction level using Nat.strong_induction_on with
  | _ level ih =>
    by_contra goes
    have goes : ∃ᶠ time in atTop, workers.place (schedule.worker time) = level :=
      (not_eventually.mp goes).mono fun _ => not_not.mp
    obtain ⟨_, late⟩ := schedule.late ih
    obtain ⟨start, later, sound⟩ := late.becomes goes
    have late : Late schedule level start := ⟨fun time since => late.unfailed time (later.trans since),
      fun time since => late.owned time (later.trans since),
      fun time since => late.above time (later.trans since)⟩
    obtain ⟨worker, member⟩ := schedule.recurs goes
    -- Those that step again and again hold their cells, and each reads another.
    have holds : ∀ᶠ time in atTop, ∀ worker, Recurs schedule level worker →
        workers.cell (schedule.state time) worker = .filled ∧ workers.owns (schedule.state time) worker := by
      refine eventually_all.mpr fun worker => ?_
      by_cases recurs : Recurs schedule level worker
      · exact (late.holds sound recurs).mono fun _ holds _ => holds
      · exact .of_forall fun _ same => absurd same recurs
    obtain ⟨time, all, since⟩ := (holds.and (eventually_ge_atTop start)).exists
    obtain ⟨last, inside, none⟩ := exists_last (workers.acyclic (late.sound sound since)) member
    obtain ⟨other, reads, recurs⟩ := late.serial sound inside
    refine none other recurs ⟨fun each same => ?_, reads⟩
    rcases same with rfl | rfl
    · exact ⟨inside.1, all each inside⟩
    · exact ⟨recurs.1, all each recurs⟩

end Schedule

/-- **Every run of workers ends.** -/
theorem Workers.acc [Finite ι] (workers : Workers σ ι) (state : σ) :
    Acc (fun next state => ∃ worker, workers.step state worker next) state := by
  by_contra endless
  obtain ⟨run, _, steps⟩ := not_acc_iff_exists_descending_chain.mp endless
  choose worker steps using steps
  have schedule : Schedule workers := ⟨run, worker, steps⟩
  obtain ⟨time, all⟩ := (eventually_all.mpr fun worker =>
    schedule.spent (workers.place worker)).exists
  exact all (schedule.worker time) rfl

end Kernis
