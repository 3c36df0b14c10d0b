/-
**The disposal of a fiber.**

A disposal waits for the lock, unloads the fiber, takes it out of its plugin runtime and answers with what
went wrong in that cleanup. A load that is under way may end the fiber before it.

* `Concludes` — what one event does to the end of a fiber; `concludes_step`.
* `Listed`, `Stray` — whether a fiber that was disposed of is still listed. `Heard`, `Missed` — whether its
  disposals reported the cleanup errors of its last epoch.
* `Intact` — a fiber among the other users of its scopes; `Intact.step`.
* `disposal_complete_iff` — what holds once a disposal has returned, and when.
-/

import Kernis.Capability.Context
import Kernis.Capability.Owns

namespace Kernis

open Std

/-- Whether a disposal is under way. -/
def Transition.disposing {ν : Type} : Transition ν → Bool
  | .cleaning _ _ .disposal _ _ => true
  | _ => false

namespace CapabilityFiber

variable {ν : Type} {fiber next : CapabilityFiber ν} {tree : ScopeTree ν}

/-! ### The end of a fiber -/

/-- The answer of a disposal that has something to report, or nothing. -/
def report (errors : List EffectError) : FiberAnswer :=
  if errors = [] then .done else .failed (.cleanup errors)

/-- **What one event does to the end of a fiber.** -/
inductive Concludes (fiber : CapabilityFiber ν) : FiberEvent ν → CapabilityFiber ν → Prop
  /-- The fiber lives on. -/
  | goes {event : FiberEvent ν} {next : CapabilityFiber ν} (before : fiber.state ≠ .disposed)
      (after : next.state ≠ .disposed) (listed : next.registered = fiber.registered)
      (disposing : next.transition.disposing = fiber.transition.disposing)
      (epoch : fiber.transition.disposing = true → next.epochErrors = fiber.epochErrors) :
      Concludes fiber event next
  /-- A disposal has the lock. -/
  | begins {index : Nat} {next : CapabilityFiber ν} (before : fiber.state ≠ .disposed)
      (free : fiber.transition = .free) (found : fiber.waiting[index]? = some (some .dispose))
      (after : next.state ≠ .disposed) (listed : next.registered = fiber.registered)
      (disposing : next.transition.disposing = true)
      (epoch : next.epochErrors = fiber.epochErrors) : Concludes fiber (.acquire index) next
  /-- The disposal ends. -/
  | disposes {next : CapabilityFiber ν} (disposing : fiber.transition.disposing = true)
      (errors : List EffectError) (after : next.state = .disposed)
      (unlisted : next.registered = false)
      (answers : next.answers = fiber.answers ++ [(.dispose, report errors)])
      (epoch : next.epochErrors = fiber.epochErrors ++ errors) : Concludes fiber .go next
  /-- A load whose factory failed ends the fiber. -/
  | strays {call : FiberCall} {force : Bool} {errors : List EffectError} {next : CapabilityFiber ν}
      (cleaning : fiber.transition = .cleaning call force .staleError [] errors)
      (after : next.state = .disposed) (listed : next.registered = fiber.registered)
      (other : call ≠ .dispose) (answers : next.answers = fiber.answers ++ [(call, .failed .disposed)]) :
      Concludes fiber .go next
  /-- The fiber was disposed of before. -/
  | rests {event : FiberEvent ν} {next : CapabilityFiber ν} (before : fiber.state = .disposed)
      (after : next.state = .disposed) (listed : next.registered = fiber.registered)
      (epoch : next.epochErrors = fiber.epochErrors)
      (answers : ∀ answer, (.dispose, answer) ∈ next.answers → (.dispose, answer) ∈ fiber.answers)
      (kept : ∀ answer, (.dispose, answer) ∈ fiber.answers → (.dispose, answer) ∈ next.answers) :
      Concludes fiber event next
  /-- Another disposal of it has the lock. -/
  | repeats {index : Nat} {next : CapabilityFiber ν} (before : fiber.state = .disposed)
      (free : fiber.transition = .free) (found : fiber.waiting[index]? = some (some .dispose))
      (after : next.state = .disposed) (listed : next.registered = fiber.registered)
      (epoch : next.epochErrors = fiber.epochErrors)
      (answers : next.answers = fiber.answers ++ [(.dispose, .done)]) :
      Concludes fiber (.acquire index) next

/-- An event that leaves the end alone. -/
theorem Concludes.still {event : FiberEvent ν} (state : next.state = fiber.state) (listed : next.registered = fiber.registered)
    (transition : next.transition.disposing = fiber.transition.disposing)
    (epoch : next.epochErrors = fiber.epochErrors)
    (answers : next.answers = fiber.answers ∨
      ∃ call answer, next.answers = fiber.answers ++ [(call, answer)] ∧ call ≠ .dispose) :
    Concludes fiber event next := by
  by_cases disposed : fiber.state = .disposed
  · refine .rests disposed (state.trans disposed) listed epoch (fun answer member => ?_)
      fun answer member => ?_
    · rcases answers with same | ⟨call, other, same, apart⟩
      · exact same ▸ member
      · rw [same] at member
        rcases List.mem_append.mp member with before | now
        · exact before
        · cases List.mem_singleton.mp now
          exact absurd rfl apart
    · rcases answers with same | ⟨call, other, same, _⟩
      · exact same ▸ member
      · rw [same]
        exact List.mem_append_left _ member
  · exact .goes disposed (state ▸ disposed) listed transition fun _ => epoch

theorem concludes_request (fiber : CapabilityFiber ν) (call : FiberCall) :
    Concludes fiber (.call call) (fiber.request call) := by
  cases call with
  | start => exact .still rfl rfl rfl rfl (.inl rfl)
  | restart =>
    simp only [CapabilityFiber.request]
    split
    · exact .still rfl rfl rfl rfl (.inr ⟨_, _, rfl, fun same => by cases same⟩)
    · exact .still rfl rfl rfl rfl (.inl rfl)
  | update config =>
    simp only [CapabilityFiber.request]
    split
    · exact .still rfl rfl rfl rfl (.inr ⟨_, _, rfl, fun same => by cases same⟩)
    · split
      · exact .still rfl rfl rfl rfl (.inr ⟨_, _, rfl, fun same => by cases same⟩)
      · exact .still rfl rfl rfl rfl (.inl rfl)
  | deactivateForWithdrawal detached => exact .still rfl rfl rfl rfl (.inl rfl)
  | dispose => exact .still rfl rfl rfl rfl (.inl rfl)

theorem concludes_startDrive {index : Nat} (free : fiber.transition = .free) (call : FiberCall) (force : Bool)
    (waiting : List (Option FiberCall)) (other : call ≠ .dispose) :
    Concludes fiber (.acquire index) ({ fiber with waiting := waiting }.startDrive call force) := by
  have idle : (Transition.free : Transition ν).disposing = fiber.transition.disposing := by
    rw [free]
  unfold CapabilityFiber.startDrive
  split
  · exact .still rfl rfl idle rfl (.inr ⟨_, _, rfl, other⟩)
  · split
    · exact .still rfl rfl idle rfl (.inr ⟨_, _, rfl, other⟩)
    · exact .still rfl rfl idle rfl (.inl rfl)

theorem concludes_acquire {index : Nat} (free : fiber.transition = .free)
    {call : FiberCall} (found : fiber.waiting[index]? = some (some call)) :
    Concludes fiber (.acquire index)
      ({ fiber with waiting := fiber.waiting.set index none }.acquire call) := by
  have idle : (Transition.free : Transition ν).disposing = fiber.transition.disposing := by
    rw [free]
  cases call with
  | start => exact concludes_startDrive free .start false _ fun same => by cases same
  | restart => exact concludes_startDrive free .restart true _ fun same => by cases same
  | update config => exact concludes_startDrive free (.update config) true _ fun same => by cases same
  | deactivateForWithdrawal detached =>
    simp only [CapabilityFiber.acquire]
    split
    · rename_i loaded
      have before : fiber.state ≠ .disposed := by
        rcases loaded with active | failed
        · rw [show fiber.state = _ from active]
          exact fun same => by cases same
        · rw [show fiber.state = _ from failed]
          exact fun same => by cases same
      exact .goes before (fun same => by cases same) rfl idle fun _ => rfl
    · exact .still rfl rfl idle rfl (.inr ⟨_, _, rfl, fun same => by cases same⟩)
  | dispose =>
    simp only [CapabilityFiber.acquire]
    split
    · rename_i disposed
      exact .repeats disposed free found disposed rfl rfl rfl
    · rename_i undisposed
      exact .begins undisposed free found (fun same => by cases same) rfl rfl rfl

theorem concludes_drive (settled : Settled fiber) {call : FiberCall} {force : Bool}
    (driving : fiber.transition = .driving call force) (tree : ScopeTree ν) :
    Concludes fiber .go (drive tree fiber call force).2 := by
  have before : fiber.state ≠ .disposed := settled.held (by rw [driving]; nofun)
  have idle {transition : Transition ν} (other : transition.disposing = false) :
      transition.disposing = fiber.transition.disposing := by
    rw [driving, other]
    rfl
  unfold CapabilityFiber.drive
  split
  · simp only
    split
    · exact .goes before nofun rfl (idle rfl) fun _ => rfl
    · exact .goes before nofun rfl (idle rfl) fun _ => rfl
  · split
    · exact .goes before before rfl (idle rfl) fun _ => rfl
    · split
      · exact .goes before nofun rfl (idle rfl) fun _ => rfl
      · split
        · exact .goes before before rfl (idle rfl) fun _ => rfl
        · refine .goes before nofun rfl (idle rfl) fun disposing => ?_
          rw [driving] at disposing
          cases disposing

theorem concludes_publish (settled : Settled fiber) {call : FiberCall} {force : Bool}
    {publication : Nat} {dependencies : ResolvedDependencies ν} {value : ν}
    (publishing : fiber.transition = .publishing call force publication dependencies value)
    (tree : ScopeTree ν) :
    Concludes fiber .go (publish tree fiber call force publication dependencies value).2 := by
  have before : fiber.state ≠ .disposed := settled.held (by rw [publishing]; nofun)
  have idle {transition : Transition ν} (other : transition.disposing = false) :
      transition.disposing = fiber.transition.disposing := by
    rw [publishing, other]
    rfl
  unfold CapabilityFiber.publish
  split
  · exact .goes before nofun rfl (idle rfl) fun _ => rfl
  · exact .goes before before rfl (idle rfl) fun _ => rfl
  · exact .goes before before rfl (idle rfl) fun _ => rfl
  · exact .goes before before rfl rfl fun _ => rfl

theorem concludes_returned (settled : Settled fiber) {call : FiberCall} {force : Bool}
    {publication : Nat} {dependencies : ResolvedDependencies ν}
    (loading : fiber.transition = .loading call force publication dependencies)
    (tree : ScopeTree ν) (result : Except Text ν) :
    Concludes fiber (.returned result)
      (returned tree fiber call force publication dependencies result).2 := by
  have before : fiber.state ≠ .disposed := settled.held (by rw [loading]; nofun)
  have idle {transition : Transition ν} (other : transition.disposing = false) :
      transition.disposing = fiber.transition.disposing := by
    rw [loading, other]
    rfl
  unfold CapabilityFiber.returned
  simp only
  split
  · split
    · exact .goes before before rfl (idle rfl) fun _ => rfl
    · exact .goes before before rfl (idle rfl) fun _ => rfl
  · refine .goes before before rfl (idle ?_) fun _ => rfl
    split
    · rfl
    · rfl

theorem concludes_finish (settled : Settled fiber) {call : FiberCall} {force : Bool}
    {purpose : Cleanup} {errors : List EffectError}
    (cleaning : fiber.transition = .cleaning call force purpose [] errors) (tree : ScopeTree ν) :
    Concludes fiber .go (finish tree fiber call force errors purpose).2 := by
  have before : fiber.state ≠ .disposed := settled.held (by rw [cleaning]; exact fun same => by cases same)
  have proper := settled.proper
  rw [cleaning] at proper
  have goes {next : CapabilityFiber ν} (other : purpose ≠ .disposal) (after : next.state ≠ .disposed)
      (listed : next.registered = fiber.registered) (idle : next.transition.disposing = false) :
      Concludes fiber .go next := by
    have busy : fiber.transition.disposing = false := by
      rw [cleaning]
      cases purpose <;> first | rfl | exact absurd rfl other
    refine .goes before after listed (idle.trans busy.symm) fun disposing => ?_
    rw [busy] at disposing
    cases disposing
  have agains {next : CapabilityFiber ν} (other : purpose ≠ .disposal)
      (listed : next.registered = fiber.registered)
      (alive : next.disposeRequested = true → next.state ≠ .disposed) :
      Concludes fiber .go (next.again call force .pending) := by
    unfold again
    split
    · exact goes other (alive ‹_›) listed rfl
    · exact goes other (fun same => by cases same) listed rfl
  cases purpose with
  | reload =>
    obtain ⟨binding, effects, _, same⟩ := unloaded_eq tree fiber none errors
    simp only [CapabilityFiber.finish]
    rw [same]
    exact agains (fun same => by cases same) rfl fun _ same => by cases same
  | missing =>
    obtain ⟨binding, effects, _, same⟩ := unloaded_eq tree fiber none errors
    simp only [CapabilityFiber.finish]
    rw [same]
    exact goes (fun same => by cases same) (fun same => by cases same) rfl rfl
  | withdrawal detached =>
    obtain ⟨binding, effects, _, same⟩ := unloaded_eq tree fiber detached errors
    simp only [CapabilityFiber.finish]
    rw [same]
    exact goes (fun same => by cases same) (fun same => by cases same) rfl rfl
  | disposal =>
    obtain ⟨binding, effects, _, same⟩ := unloaded_eq tree fiber none errors
    obtain rfl : call = .dispose := proper.1.mpr rfl
    simp only [CapabilityFiber.finish]
    rw [same]
    refine .disposes ?_ (unloaded tree fiber none errors).1 rfl rfl rfl rfl
    rw [cleaning]
    rfl
  | changed => exact goes (fun same => by cases same) (fun same => by cases same) rfl rfl
  | refused error => exact goes (fun same => by cases same) (fun same => by cases same) rfl rfl
  | staleValue => exact agains (fun same => by cases same) rfl fun _ => before
  | staleError =>
    simp only [CapabilityFiber.finish]
    by_cases asked : fiber.disposeRequested = true
    · have other : call ≠ .dispose := fun same => by
        have disposal := proper.1.mp same
        cases disposal
      unfold again
      rw [if_pos (show _ from asked)]
      exact .strays cleaning (if_pos asked) rfl other rfl
    · exact agains (fun same => by cases same) rfl fun other => absurd other asked
  | failed reason => exact goes (fun same => by cases same) (fun same => by cases same) rfl rfl

/-- **Every event of a fiber** does one of these things to its end. -/
theorem concludes_step (settled : Settled fiber) (tree : ScopeTree ν) {event : FiberEvent ν}
    (whole : event.Whole) : Concludes fiber event (fiber.step tree event).2 := by
  have same {event : FiberEvent ν} : Concludes fiber event fiber :=
    .still rfl rfl rfl rfl (.inl rfl)
  have registers {event : FiberEvent ν} (stack : Nat) (label : Text) :
      Concludes fiber event (fiber.register stack label) := by
    unfold CapabilityFiber.register
    split
    · exact .still rfl rfl rfl rfl (.inl rfl)
    · exact same
  cases whole with
  | call call => exact concludes_request fiber call
  | acquire index =>
    simp only [CapabilityFiber.step]
    split
    · exact concludes_acquire ‹_› ‹_›
    · exact same
  | effect label =>
    simp only [CapabilityFiber.step, CapabilityFiber.effect]
    split
    · exact registers _ label
    · exact same
  | works works =>
    cases works with
    | go =>
      simp only [CapabilityFiber.step]
      split
      · exact concludes_drive settled ‹_› tree
      · exact concludes_publish settled ‹_› tree
      · exact concludes_finish settled ‹_› tree
      · exact same
    | returned result =>
      simp only [CapabilityFiber.step]
      split
      · exact concludes_returned settled ‹_› tree result
      · exact same
    | cleaned result =>
      simp only [CapabilityFiber.step]
      split
      · rename_i call force purpose effect rest errors cleaning
        refine .still rfl rfl ?_ rfl (.inl rfl)
        rw [cleaning]
        cases purpose <;> rfl
      · exact same
    | register stack label => exact registers stack label

/-! ### Who lists a fiber, and who hears of its cleanup -/

/-- A fiber is listed until it is disposed of. -/
def Listed (fiber : CapabilityFiber ν) : Prop := fiber.registered = true ↔ fiber.state ≠ .disposed

/-- A fiber that was disposed of and is listed still. -/
def Stray (fiber : CapabilityFiber ν) : Prop := fiber.state = .disposed ∧ fiber.registered = true

/-- **Every disposal reports the last epoch**, and one that is under way has all of it to report. -/
structure Heard (fiber : CapabilityFiber ν) : Prop where
  reported : ∀ answer, (.dispose, answer) ∈ fiber.answers → answer = report fiber.epochErrors
  fresh : fiber.transition.disposing = true → fiber.epochErrors = []

/-- A disposal has missed an error of the last epoch, or is about to. -/
def Missed (fiber : CapabilityFiber ν) : Prop :=
  fiber.epochErrors ≠ [] ∧ (fiber.transition.disposing = true ∨
    ∃ answer, (.dispose, answer) ∈ fiber.answers ∧ answer ≠ report fiber.epochErrors)

variable {event : FiberEvent ν}

theorem Settled.undisposing (settled : Settled fiber) (disposed : fiber.state = .disposed) :
    fiber.transition.disposing = false := by
  rw [settled.freed disposed]
  rfl

theorem Settled.unanswered (settled : Settled fiber) (alive : fiber.state ≠ .disposed)
    (answer : FiberAnswer) : (.dispose, answer) ∉ fiber.answers :=
  fun member => alive (settled.answered answer member)

theorem Concludes.disposed (concludes : Concludes fiber event next)
    (disposed : fiber.state = .disposed) : next.state = .disposed := by
  cases concludes with
  | goes before => exact absurd disposed before
  | begins before => exact absurd disposed before
  | disposes _ _ after => exact after
  | strays _ after => exact after
  | rests _ after => exact after
  | repeats _ _ _ after => exact after

theorem Concludes.listed (concludes : Concludes fiber event next) (listed : Listed fiber)
    (spared : ∀ call force errors, event = .go →
      fiber.transition = .cleaning call force .staleError [] errors → next.state ≠ .disposed) :
    Listed next := by
  unfold Listed at listed ⊢
  cases concludes with
  | goes before after same =>
    rw [same]
    exact ⟨fun _ => after, fun _ => listed.mpr before⟩
  | begins before _ _ after same =>
    rw [same]
    exact ⟨fun _ => after, fun _ => listed.mpr before⟩
  | disposes _ _ after unlisted =>
    rw [unlisted, after]
    exact ⟨nofun, fun other => absurd rfl other⟩
  | strays cleaning after => exact absurd after (spared _ _ _ rfl cleaning)
  | rests before after same => rw [same, after, listed, before]
  | repeats before _ _ after same => rw [same, after, listed, before]

theorem Stray.concludes (stray : Stray fiber) (settled : Settled fiber)
    (concludes : Concludes fiber event next) : Stray next := by
  obtain ⟨disposed, listed⟩ := stray
  have free := settled.freed disposed
  refine ⟨concludes.disposed disposed, ?_⟩
  cases concludes with
  | goes before => exact absurd disposed before
  | begins before => exact absurd disposed before
  | disposes disposing =>
    rw [settled.undisposing disposed] at disposing
    cases disposing
  | strays cleaning =>
    rw [free] at cleaning
    cases cleaning
  | rests _ _ same => exact same.trans listed
  | repeats _ _ _ _ same => exact same.trans listed

theorem Heard.concludes (heard : Heard fiber) (settled : Settled fiber) (after : Settled next)
    (concludes : Concludes fiber event next)
    (unmarred : ∀ index, event = .acquire index → fiber.transition = .free →
      fiber.waiting[index]? = some (some .dispose) → fiber.epochErrors = []) : Heard next := by
  cases concludes with
  | goes _ alive _ disposing epoch =>
    refine ⟨fun answer member => absurd member (after.unanswered alive answer), fun running => ?_⟩
    rw [disposing] at running
    exact (epoch running).trans (heard.fresh running)
  | begins _ free found alive _ _ epoch =>
    exact ⟨fun answer member => absurd member (after.unanswered alive answer),
      fun _ => epoch.trans (unmarred _ rfl free found)⟩
  | disposes disposing errors disposed _ answers epoch =>
    have alive : fiber.state ≠ .disposed := fun same => by
      rw [settled.undisposing same] at disposing
      cases disposing
    refine ⟨fun answer member => ?_, fun running => ?_⟩
    · rw [answers] at member
      rw [epoch, heard.fresh disposing, List.nil_append]
      rcases List.mem_append.mp member with before | now
      · exact absurd before (settled.unanswered alive answer)
      · cases List.mem_singleton.mp now
        rfl
    · rw [after.undisposing disposed] at running
      cases running
  | strays cleaning disposed _ other answers =>
    have alive : fiber.state ≠ .disposed := settled.held (by rw [cleaning]; nofun)
    refine ⟨fun answer member => ?_, fun running => ?_⟩
    · rw [answers] at member
      rcases List.mem_append.mp member with before | now
      · exact absurd before (settled.unanswered alive answer)
      · cases List.mem_singleton.mp now
        exact absurd rfl other
    · rw [after.undisposing disposed] at running
      cases running
  | rests before disposed _ epoch answers =>
    refine ⟨fun answer member => ?_, fun running => ?_⟩
    · rw [epoch]
      exact heard.reported answer (answers answer member)
    · rw [after.undisposing disposed] at running
      cases running
  | repeats before free found disposed _ epoch answers =>
    refine ⟨fun answer member => ?_, fun running => ?_⟩
    · rw [answers] at member
      rcases List.mem_append.mp member with earlier | now
      · rw [epoch]
        exact heard.reported answer earlier
      · cases List.mem_singleton.mp now
        rw [epoch, unmarred _ rfl free found]
        rfl
    · rw [after.undisposing disposed] at running
      cases running

theorem done_ne_report {errors : List EffectError} (failed : errors ≠ []) : .done ≠ report errors := by
  unfold report
  rw [if_neg failed]
  nofun

/-- A report of a part is not the report of the whole. -/
theorem report_append {errors more : List EffectError} (failed : errors ≠ []) :
    report more ≠ report (errors ++ more) := by
  have nonempty : errors ++ more ≠ [] := fun none => failed (List.append_eq_nil_iff.mp none).1
  by_cases nothing : more = []
  · rw [nothing] at nonempty ⊢
    exact done_ne_report nonempty
  · unfold report
    rw [if_neg nothing, if_neg nonempty]
    intro same
    injection same with same
    injection same with same
    exact failed (List.append_left_eq_self.mp same.symm)

theorem Missed.concludes (missed : Missed fiber) (settled : Settled fiber)
    (concludes : Concludes fiber event next) : Missed next := by
  obtain ⟨failed, running | ⟨answer, member, wrong⟩⟩ := missed
  · have alive : fiber.state ≠ .disposed := fun same => by
      rw [settled.undisposing same] at running
      cases running
    cases concludes with
    | goes _ _ _ disposing epoch =>
      exact ⟨(epoch running).symm ▸ failed, .inl (disposing.trans running)⟩
    | begins _ free =>
      rw [free] at running
      cases running
    | disposes disposing errors _ _ answers epoch =>
      rw [Missed, epoch, answers]
      exact ⟨fun none => failed (List.append_eq_nil_iff.mp none).1, .inr ⟨_,
        List.mem_append_right _ (List.mem_singleton_self _), report_append failed⟩⟩
    | strays cleaning =>
      rw [cleaning] at running
      cases running
    | rests before => exact absurd before alive
    | repeats before => exact absurd before alive
  · have disposed := settled.answered answer member
    cases concludes with
    | goes before => exact absurd disposed before
    | begins before => exact absurd disposed before
    | disposes disposing =>
      rw [settled.undisposing disposed] at disposing
      cases disposing
    | strays cleaning =>
      rw [settled.freed disposed] at cleaning
      cases cleaning
    | rests _ _ _ epoch _ kept =>
      rw [Missed, epoch]
      exact ⟨failed, .inr ⟨answer, kept answer member, wrong⟩⟩
    | repeats _ _ _ _ _ epoch answers =>
      rw [Missed, epoch, answers]
      exact ⟨failed, .inr ⟨answer, List.mem_append_left _ member, wrong⟩⟩

end CapabilityFiber

/-! ### Runs -/

/-- What happens to a fiber none of whose calls is dropped, or to the scopes. -/
inductive FiberSystemEvent.Whole {ν : Type} : FiberSystemEvent ν → Prop
  | fiber {event : FiberEvent ν} (whole : event.Whole) : Whole (.fiber event)
  | scope (call : ScopeCall ν) : Whole (.scope call)

namespace FiberSystem

open CapabilityFiber (Attended Kept Owns Listed Stray Heard Missed report)

variable {ν : Type} {system : FiberSystem ν} {event : FiberSystemEvent ν}

/-- **What holds of a fiber among others**, none of whose calls is dropped. -/
structure Intact (system : FiberSystem ν) : Prop where
  sound : system.tree.Sound
  attended : Attended system.fiber
  kept : Kept system.fiber
  owns : Owns system.tree system.fiber

/-- A call of another on the scopes. -/
theorem Intact.call (intact : Intact system) {call : ScopeCall ν} (foreign : system.foreign call = true) :
    Owns (system.tree.step call).2 system.fiber := by
  refine intact.owns.call intact.sound ?_ ?_
  · rintro rfl
    obtain ⟨view, member, same⟩ := List.mem_map.mp intact.owns.placed
    have apart := List.all_eq_true.mp foreign view member
    exact of_decide_eq_true apart same
  · rintro publication dependencies loads result rfl
    exact of_decide_eq_true foreign (CapabilityFiber.begun_of_loads loads)

/-- **Every event leaves it intact.** -/
theorem Intact.step (intact : Intact system) (whole : event.Whole) : Intact (system.step event) := by
  unfold FiberSystem.step
  split
  · exact intact
  rename_i unpoisoned
  have unpoisoned := Bool.eq_false_iff.mpr unpoisoned
  obtain ⟨sound, attended, kept, owns⟩ := intact
  cases whole with
  | @fiber event whole =>
    refine ⟨?_, attended.whole system.tree whole,
      kept.step attended.tended.settled system.tree whole, owns.step sound kept unpoisoned whole⟩
    rcases system.fiber.step_tree system.tree event with same | ⟨call, same⟩
    · simp only
      rw [same]
      exact sound
    · simp only
      rw [same]
      exact sound.step call
  | scope call =>
    simp only
    split
    · exact ⟨sound.step call, attended, kept, Intact.call ⟨sound, attended, kept, owns⟩ ‹_›⟩
    · exact ⟨sound, attended, kept, owns⟩

theorem Intact.run (intact : Intact system) {events : List (FiberSystemEvent ν)}
    (whole : ∀ event ∈ events, event.Whole) : Intact (system.run events) := by
  induction events generalizing system with
  | nil => exact intact
  | cons event rest ih =>
    obtain ⟨first, others⟩ := List.forall_mem_cons.mp whole
    exact ih (intact.step first) others

/-- A new fiber in a context over its scopes is intact. -/
theorem intact_new {contexts : ContextTree ν} (rooted : contexts.Rooted)
    {context : List ContextState} (member : some context ∈ contexts.contexts)
    (definition : PluginDefinition) (config : Text) :
    Intact ⟨contexts.tree, .new definition context config⟩ := by
  obtain ⟨scope, live, views⟩ := rooted.chained context member
  have own : (CapabilityFiber.new definition context config : CapabilityFiber ν).scope = scope := by
    cases context with
    | nil => cases views
    | cons view rest => exact (List.cons.inj views).1
  refine ⟨rooted.sound, CapabilityFiber.attended_new definition context config,
    CapabilityFiber.kept_new definition context config, ?_, ?_, nofun, ?_, ?_⟩
  · rw [own]
    show scope ∈ context.map ContextState.scope
    rw [views]
    exact List.mem_cons_self
  · rw [own]
    exact live
  · exact fun _ member => absurd member List.not_mem_nil
  · exact fun _ member => absurd member List.not_mem_nil

/-- **What an event does to the end of an intact fiber**, unless it changes nothing. -/
theorem Intact.concludes (intact : Intact system) (whole : event.Whole) :
    (system.step event).fiber = system.fiber ∨ system.tree.poisoned = false ∧
      ∃ inner, event = .fiber inner ∧ system.fiber.Concludes inner (system.step event).fiber := by
  unfold FiberSystem.step
  split
  · exact .inl rfl
  · rename_i unpoisoned
    cases whole with
    | @fiber event whole =>
      exact .inr ⟨Bool.eq_false_iff.mpr unpoisoned, event, rfl,
        CapabilityFiber.concludes_step intact.attended.tended.settled system.tree whole⟩
    | scope call =>
      simp only
      split
      · exact .inl rfl
      · exact .inl rfl

/-- **A disposed fiber is disposed forever.** -/
theorem Intact.forever (intact : Intact system) (disposed : system.fiber.state = .disposed)
    {events : List (FiberSystemEvent ν)} (whole : ∀ event ∈ events, event.Whole) :
    (system.run events).fiber.state = .disposed := by
  induction events generalizing system with
  | nil => exact disposed
  | cons event rest ih =>
    obtain ⟨first, others⟩ := List.forall_mem_cons.mp whole
    refine ih (intact.step first) ?_ others
    rcases intact.concludes first with same | ⟨_, _, _, concludes⟩
    · rw [same]
      exact disposed
    · exact concludes.disposed disposed

/-! ### When a disposal is complete -/

/-- **Whether a load does not end the fiber itself**: its factory did not fail after a disposal was
requested. -/
def spared (system : FiberSystem ν) : FiberSystemEvent ν → Bool
  | .fiber .go =>
    match system.fiber.transition with
    | .cleaning _ _ .staleError [] _ => system.tree.poisoned || !system.fiber.disposeRequested
    | _ => true
  | _ => true

/-- **Whether a disposal takes the lock before a cleanup of the last epoch failed.** -/
def unmarred (system : FiberSystem ν) : FiberSystemEvent ν → Bool
  | .fiber (.acquire index) =>
    match system.fiber.transition, system.fiber.waiting[index]? with
    | .free, some (some .dispose) => system.tree.poisoned || system.fiber.epochErrors.isEmpty
    | _, _ => true
  | _ => true

/-- A load that ends the fiber leaves it listed. -/
theorem stray_of_unspared (intact : Intact system) (listed : Listed system.fiber)
    (unspared : ¬ system.spared event = true) : Stray (system.step event).fiber := by
  unfold spared at unspared
  split at unspared
  · split at unspared
    · rename_i call force errors cleaning
      simp only [Bool.or_eq_true, Bool.not_eq_true', not_or, Bool.not_eq_true, Bool.not_eq_false]
        at unspared
      obtain ⟨unpoisoned, asked⟩ := unspared
      have alive := intact.attended.tended.settled.held (by rw [cleaning]; nofun)
      unfold FiberSystem.step
      rw [if_neg (by rw [unpoisoned]; nofun)]
      simp only [CapabilityFiber.step, cleaning, CapabilityFiber.finish, CapabilityFiber.again, asked,
        if_true]
      exact ⟨rfl, listed.mpr alive⟩
    · exact absurd rfl unspared
  · exact absurd rfl unspared

/-- A disposal misses the errors of an earlier cleanup. -/
theorem missed_of_marred (marred : ¬ system.unmarred event = true) :
    Missed (system.step event).fiber := by
  unfold unmarred at marred
  split at marred
  · rename_i index
    split at marred
    · rename_i free found
      simp only [Bool.or_eq_true, not_or, Bool.not_eq_true] at marred
      obtain ⟨unpoisoned, nonempty⟩ := marred
      have failed : system.fiber.epochErrors ≠ [] := by
        intro none
        rw [none] at nonempty
        cases nonempty
      unfold FiberSystem.step
      rw [if_neg (by rw [unpoisoned]; nofun)]
      simp only [CapabilityFiber.step, free, found, CapabilityFiber.acquire]
      split
      · exact ⟨failed, .inr ⟨.done, List.mem_append_right _ (List.mem_singleton_self _),
          CapabilityFiber.done_ne_report failed⟩⟩
      · exact ⟨failed, .inl rfl⟩
    · exact absurd rfl marred
  · exact absurd rfl marred

theorem stray_run (intact : Intact system) (stray : Stray system.fiber)
    {events : List (FiberSystemEvent ν)} (whole : ∀ event ∈ events, event.Whole) :
    Stray (system.run events).fiber := by
  induction events generalizing system with
  | nil => exact stray
  | cons event rest ih =>
    obtain ⟨first, others⟩ := List.forall_mem_cons.mp whole
    refine ih (intact.step first) ?_ others
    rcases intact.concludes first with same | ⟨_, _, _, concludes⟩
    · rw [same]
      exact stray
    · exact stray.concludes intact.attended.tended.settled concludes

theorem missed_run (intact : Intact system) (missed : Missed system.fiber)
    {events : List (FiberSystemEvent ν)} (whole : ∀ event ∈ events, event.Whole) :
    Missed (system.run events).fiber := by
  induction events generalizing system with
  | nil => exact missed
  | cons event rest ih =>
    obtain ⟨first, others⟩ := List.forall_mem_cons.mp whole
    refine ih (intact.step first) ?_ others
    rcases intact.concludes first with same | ⟨_, _, _, concludes⟩
    · rw [same]
      exact missed
    · exact missed.concludes intact.attended.tended.settled concludes

/-- **A disposed fiber is listed no more** if and only if no load ended it. -/
theorem unlisted_iff (intact : Intact system) (listed : Listed system.fiber)
    {events : List (FiberSystemEvent ν)} (whole : ∀ event ∈ events, event.Whole)
    (disposed : (system.run events).fiber.state = .disposed) :
    (system.run events).fiber.registered = false ↔ Checked spared system events := by
  induction events generalizing system with
  | nil =>
    refine ⟨fun _ => trivial, fun _ => Bool.eq_false_iff.mpr fun still => ?_⟩
    exact listed.mp still disposed
  | cons event rest ih =>
    obtain ⟨first, others⟩ := List.forall_mem_cons.mp whole
    by_cases fine : system.spared event = true
    · have next : Listed (system.step event).fiber := by
        rcases intact.concludes first with same | ⟨unpoisoned, inner, rfl, concludes⟩
        · rw [same]
          exact listed
        · refine concludes.listed listed fun call force errors going cleaning => ?_
          subst going
          simp only [spared, cleaning, unpoisoned, Bool.false_or, Bool.not_eq_true'] at fine
          have alive := intact.attended.tended.settled.held (by rw [cleaning]; exact fun same => by cases same)
          unfold FiberSystem.step
          rw [if_neg (by rw [unpoisoned]; exact fun same => by cases same)]
          simp only [CapabilityFiber.step, cleaning, CapabilityFiber.finish, CapabilityFiber.again, fine]
          exact fun same => by cases same
      exact (ih (intact.step first) next others disposed).trans
        ⟨fun later => ⟨fine, later⟩, fun both => both.2⟩
    · have stray := stray_run (intact.step first) (stray_of_unspared intact listed fine) others
      refine ⟨fun gone => ?_, fun both => absurd both.1 fine⟩
      exact absurd (gone.symm.trans stray.2) Bool.false_ne_true

/-- **The disposals of a fiber report its last epoch** if and only if none took the lock after a cleanup of
that epoch failed. -/
theorem reported_iff (intact : Intact system) (heard : Heard system.fiber)
    {events : List (FiberSystemEvent ν)} (whole : ∀ event ∈ events, event.Whole)
    (disposed : (system.run events).fiber.state = .disposed) :
    (∀ answer, (.dispose, answer) ∈ (system.run events).fiber.answers →
      answer = report (system.run events).fiber.epochErrors) ↔ Checked unmarred system events := by
  induction events generalizing system with
  | nil => exact ⟨fun _ => trivial, fun _ => heard.reported⟩
  | cons event rest ih =>
    obtain ⟨first, others⟩ := List.forall_mem_cons.mp whole
    by_cases fine : system.unmarred event = true
    · have next : Heard (system.step event).fiber := by
        rcases intact.concludes first with same | ⟨unpoisoned, inner, rfl, concludes⟩
        · rw [same]
          exact heard
        · refine heard.concludes intact.attended.tended.settled
            (intact.step first).attended.tended.settled concludes fun index going free found => ?_
          subst going
          simp only [unmarred, free, found, unpoisoned, Bool.false_or, List.isEmpty_iff] at fine
          exact fine
      exact (ih (intact.step first) next others disposed).trans
        ⟨fun later => ⟨fine, later⟩, fun both => both.2⟩
    · have after := (intact.step first).run others
      obtain ⟨_, running | ⟨answer, member, wrong⟩⟩ :=
        missed_run (intact.step first) (missed_of_marred fine) others
      · rw [after.attended.tended.settled.undisposing disposed] at running
        cases running
      · exact ⟨fun all => absurd (all answer member) wrong, fun both => absurd both.1 fine⟩

/-- **What a disposal that has returned leaves.** -/
structure Disposed (system : FiberSystem ν) : Prop where
  final : ∀ later : List (FiberSystemEvent ν), (∀ event ∈ later, event.Whole) →
    (system.run later).fiber.state = .disposed
  invisible : ∀ handle ∈ system.fiber.published, ∀ (id : Id) (entry : CapabilityHandle ν),
    (system.tree.topology.view system.fiber.scope).get id = some entry →
      entry.entryId ≠ handle.entryId
  effects : ∀ number < system.fiber.effectCount, number ∈ system.fiber.ran
  unlisted : system.fiber.registered = false
  reported : ∀ answer, (.dispose, answer) ∈ system.fiber.answers →
    answer = report system.fiber.epochErrors

/-- What a scope sees is an entry of a scope. -/
theorem held_of_get {topology : Topology ν} {scope : Nat} {id : Id} {entry : CapabilityHandle ν}
    (found : (topology.view scope).get id = some entry) :
    ∃ other, (topology.level other).entries[id]? = some entry := by
  obtain ⟨level, member, held⟩ := Topology.lookupLevels_held found
  rcases List.mem_cons.mp member with rfl | above
  · exact ⟨scope, held⟩
  · obtain ⟨other, _, rfl⟩ := List.mem_map.mp above
    exact ⟨other, held⟩

/-- **A disposal is final and complete** if and only if no load ended the fiber itself and no cleanup of
its last epoch failed before a disposal took the lock: once a disposal has returned, the fiber is disposed
of for ever, nothing that it published is visible in its scope, every effect of it was run, its plugin
runtime lists it no more, and every disposal has reported the cleanup errors of the last epoch. -/
theorem disposal_complete_iff (calls : List (ContextCall ν)) (context : List ContextState)
    (member : some context ∈ ((ContextTree.root : ContextTree ν).run calls).contexts)
    (definition : PluginDefinition) (config : Text) (events : List (FiberSystemEvent ν))
    (whole : ∀ event ∈ events, event.Whole) (answer : FiberAnswer)
    (returned : (.dispose, answer) ∈ (run ⟨((ContextTree.root : ContextTree ν).run calls).tree,
      .new definition context config⟩ events).fiber.answers) :
    Disposed (run ⟨((ContextTree.root : ContextTree ν).run calls).tree,
        .new definition context config⟩ events) ↔
      Checked spared ⟨((ContextTree.root : ContextTree ν).run calls).tree,
          .new definition context config⟩ events ∧
        Checked unmarred ⟨((ContextTree.root : ContextTree ν).run calls).tree,
          .new definition context config⟩ events := by
  have begun := intact_new (ContextTree.rooted_root.run calls) member definition config
  have listed : Listed (CapabilityFiber.new definition context config : CapabilityFiber ν) :=
    ⟨fun _ => nofun, fun _ => rfl⟩
  have heard : Heard (CapabilityFiber.new definition context config : CapabilityFiber ν) :=
    ⟨fun _ member => absurd member List.not_mem_nil, nofun⟩
  have after := begun.run whole
  have disposed := after.attended.tended.settled.answered answer returned
  have unlisted := unlisted_iff begun listed whole disposed
  have reported := reported_iff begun heard whole disposed
  constructor
  · intro complete
    exact ⟨unlisted.mp complete.unlisted, reported.mp complete.reported⟩
  · rintro ⟨spared, unmarred⟩
    refine ⟨fun later rest => after.forever disposed rest, fun handle published id entry found same => ?_,
      after.attended.tended.ran_once.2 answer returned, unlisted.mpr spared, reported.mpr unmarred⟩
    obtain ⟨other, there⟩ := held_of_get found
    have held := after.owns.current handle published other id entry there same
    rcases after.kept.held handle held with state | state
    · rw [disposed] at state
      cases state
    · rw [disposed] at state
      cases state

/-- The sample plugin is loaded with an effect and restarted. A disposal is requested during the second
load, which has registered an effect too. -/
def disposedRestart : List (FiberSystemEvent Unit) :=
  [.fiber (.call .start), .fiber (.acquire 0), .fiber .go, .fiber (.register 0 []),
    .fiber (.returned (.ok ())), .fiber .go, .fiber (.call .restart), .fiber (.acquire 1), .fiber .go,
    .fiber (.cleaned (.ok ())), .fiber .go, .fiber .go, .fiber (.register 1 []), .fiber (.call .dispose),
    .fiber (.returned (.ok ())), .fiber .go, .fiber (.cleaned (.ok ())), .fiber .go,
    .fiber (.acquire 2), .fiber .go]

theorem whole_disposedRestart : ∀ event ∈ disposedRestart, event.Whole := by
  unfold disposedRestart
  simp only [List.forall_mem_cons, List.not_mem_nil, false_imp_iff, implies_true, and_true]
  exact ⟨.fiber (.call .start nofun), .fiber (.acquire 0), .fiber (.works .go),
    .fiber (.works (.register 0 [])), .fiber (.works (.returned _)), .fiber (.works .go),
    .fiber (.call .restart nofun), .fiber (.acquire 1), .fiber (.works .go),
    .fiber (.works (.cleaned _)), .fiber (.works .go), .fiber (.works .go),
    .fiber (.works (.register 1 [])), .fiber (.call .dispose nofun), .fiber (.works (.returned _)),
    .fiber (.works .go), .fiber (.works (.cleaned _)), .fiber (.works .go), .fiber (.acquire 2),
    .fiber (.works .go)⟩

/-- The load that was overtaken runs its effect and leaves the rest to the disposal. -/
theorem disposal_complete_iff_restarted :
    (sampleSystem.run disposedRestart).fiber.effectCount = 2 ∧
      Disposed (sampleSystem.run disposedRestart) := by
  have returned : (FiberCall.dispose, FiberAnswer.done) ∈
      (sampleSystem.run disposedRestart).fiber.answers := by decide +kernel
  refine ⟨by decide +kernel, (disposal_complete_iff [] _ (List.mem_singleton_self _) samplePlugin []
    disposedRestart whole_disposedRestart .done returned).mpr ⟨?_, ?_⟩⟩
  · unfold disposedRestart
    simp only [Checked]
    decide +kernel
  · unfold disposedRestart
    simp only [Checked]
    decide +kernel

/-- A disposal is requested while the factory runs, and the factory fails. -/
def disposedLoad : List (FiberSystemEvent Unit) :=
  [.fiber (.call .start), .fiber (.acquire 0), .fiber .go, .fiber (.call .dispose),
    .fiber (.returned (.error [])), .fiber .go, .fiber (.acquire 1)]

theorem whole_disposedLoad : ∀ event ∈ disposedLoad, event.Whole := by
  unfold disposedLoad
  simp only [List.forall_mem_cons, List.not_mem_nil, false_imp_iff, implies_true, and_true]
  exact ⟨.fiber (.call .start nofun), .fiber (.acquire 0), .fiber (.works .go),
    .fiber (.call .dispose nofun), .fiber (.works (.returned _)), .fiber (.works .go),
    .fiber (.acquire 1)⟩

/-- **A disposal returns for a fiber that its plugin runtime still lists.** -/
theorem disposed_load_listed : ¬ ∀ events : List (FiberSystemEvent Unit),
    (∀ event ∈ events, event.Whole) → ∀ answer,
      (.dispose, answer) ∈ (sampleSystem.run events).fiber.answers →
        Disposed (sampleSystem.run events) := by
  intro all
  have returned : (FiberCall.dispose, FiberAnswer.done) ∈
      (sampleSystem.run disposedLoad).fiber.answers := by decide +kernel
  have listed : (sampleSystem.run disposedLoad).fiber.registered = true := by decide +kernel
  have unlisted := (all disposedLoad whole_disposedLoad .done returned).unlisted
  rw [listed] at unlisted
  cases unlisted

end FiberSystem

end Kernis
