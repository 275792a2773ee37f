import Mathlib.Algebra.Order.Ring.Nat
import Mathlib.Data.List.Basic
import StepFlow.Control.Methods

/-!
# Timers in the course of time

What happens to a timer is a sequence of calls and of stretches of time that pass between them.
Every call is written down with its moment and its outcome, and what the timer has to do is said in
terms of these notes alone: a start that was granted begins a run, a run is on until a cancellation,
and a pause lasts until a resumption or until the next run begins.

A call at the very moment when a tick is due comes before the tick.
-/

namespace StepFlow

namespace Timer

inductive Call where
  | start
  | pause
  | resume
  | reset
  | cancel
deriving DecidableEq, Repr

structure Called where
  time : Nat
  call : Call
  /-- The count of ticks at that time. -/
  ticks : Nat
  /-- Whether the call returned `true`. -/
  granted : Bool
deriving DecidableEq, Repr

inductive Happening where
  | call (c : Call)
  | pass (ms : Nat)

/-- A timer under a clock, with the calls made to it, the latest first. -/
structure Course where
  now : Nat
  timer : Timer
  calls : List Called
deriving Repr

namespace Call

def name : Call → String
  | .start => "start"
  | .pause => "pause"
  | .resume => "resume"
  | .reset => "reset"
  | .cancel => "cancel"

/-- Makes a call: whether it returns `true`, and what becomes of the timer. A start that is an error
leaves the timer as it is. -/
def make (now : Nat) (t : Timer) : Call → Bool × Timer
  | .start =>
    match t.start now with
    | .ok r => r
    | .error _ => (false, t)
  | .pause => (false, t.pause)
  | .resume => (false, t.resume)
  | .reset => (false, t.reset)
  | .cancel => t.cancel

/-- What a method returns that returned `true` or not: only starting and cancelling tell. -/
def returned (granted : Bool) : Call → Value
  | .start | .cancel => .bool granted
  | .pause | .resume | .reset => .null

variable {now : Nat} {t : Timer}

/-- A start either begins a run or changes nothing. -/
theorem make_start_cases (now : Nat) (t : Timer) :
    make now t .start = (false, t) ∨
      t.isRunning = false ∧
        make now t .start = (true, { t with paused := false, due := some (now + t.period) }) := by
  rw [make, Timer.start]
  by_cases zero : t.period = 0
  · rw [if_pos zero]
    exact .inl rfl
  · rw [if_neg zero]
    cases running : t.isRunning with
    | true => exact .inl rfl
    | false => exact .inr ⟨rfl, rfl⟩

/-- The calls are what the registered methods of a timer do, whatever arguments they get. -/
theorem call_builtIn (c : Call) (args : Object) (hp : 0 < t.period) :
    Methods.builtIn.call now (.ofState .timer t) c.name args =
      .ok (c.returned (c.make now t).1, .ofState .timer (c.make now t).2) := by
  cases c with
  | start =>
    have accepted : ∃ r, t.start now = .ok r := by
      rw [Timer.start, if_neg (Nat.ne_of_gt hp)]
      split
      · exact ⟨_, rfl⟩
      · exact ⟨_, rfl⟩
    obtain ⟨r, hr⟩ := accepted
    show ((t.start now).map fun r => (Value.bool r.1, r.2)).map _ = _
    rw [make, hr]
    rfl
  | pause | resume | reset | cancel => rfl

end Call

namespace Called

/-- The call began a run. -/
def Begins (e : Called) : Prop := e.call = .start ∧ e.granted = true

/-- The call ended a pause. -/
def Resumes (e : Called) : Prop := e.call = .resume ∨ e.Begins

instance (e : Called) : Decidable e.Begins := inferInstanceAs (Decidable (_ ∧ _))

theorem not_begins {e : Called} (h : e.call ≠ .start) : ¬e.Begins := fun begins => h begins.1

end Called

namespace Course

/-- A timer at time zero that was never called. -/
def ofPeriod (period : Nat) (maxTicks : Option Nat) : Course :=
  ⟨0, Timer.ofPeriod period maxTicks, []⟩

def step (c : Course) : Happening → Course
  | .call call =>
    { c with
      timer := (call.make c.now c.timer).2
      calls := ⟨c.now, call, c.timer.ticks, (call.make c.now c.timer).1⟩ :: c.calls }
  | .pass ms => { c with now := c.now + ms, timer := c.timer.advance (c.now + ms) }

def run (c : Course) (happenings : List Happening) : Course := happenings.foldl step c

theorem run_induction {P : Course → Prop} (step : ∀ c h, P c → P (c.step h))
    {c : Course} (start : P c) (happenings : List Happening) : P (c.run happenings) := by
  induction happenings generalizing c with
  | nil => exact start
  | cons h rest ih => exact ih (step c h start)

end Course

/-! ## How time changes a timer -/

section Advance

variable {t : Timer} {due now : Nat}

theorem advance_of_idle (h : t.due = none) : t.advance now = t := by
  rw [advance, h]

theorem advance_of_paused (h : t.due = some due) (hp : t.paused = true) :
    t.advance now = { t with due := some (due + dueBefore t.period due now * t.period) } := by
  rw [advance, h]
  exact if_pos hp

theorem advance_of_unlimited (h : t.due = some due) (hp : t.paused = false)
    (hm : t.maxTicks = none) :
    t.advance now =
      { t with
        due := some (due + dueBefore t.period due now * t.period)
        ticks := t.ticks + dueBefore t.period due now
        version := t.version + dueBefore t.period due now } := by
  simp only [advance, h, hp, remaining, hm, Option.map_none, Bool.false_eq_true, if_false]

theorem advance_of_limited {limit : Nat} (h : t.due = some due) (hp : t.paused = false)
    (hm : t.maxTicks = some limit) :
    t.advance now =
      if max 1 (limit - t.ticks) ≤ dueBefore t.period due now then
        { t with
          ticks := t.ticks + max 1 (limit - t.ticks)
          version := t.version + max 1 (limit - t.ticks)
          due := none }
      else
        { t with
          due := some (due + dueBefore t.period due now * t.period)
          ticks := t.ticks + dueBefore t.period due now
          version := t.version + dueBefore t.period due now } := by
  simp only [advance, h, hp, remaining, hm, Option.map_some, Bool.false_eq_true, if_false]

end Advance

/-! ## What the calls say -/

/-- The run that was begun at a moment is on at another: it was not cancelled in between. -/
def RunOn (calls : List Called) (begun moment : Nat) : Prop :=
  ∃ later e earlier, calls = later ++ e :: earlier ∧ e.Begins ∧ e.time = begun ∧ begun ≤ moment ∧
    ∀ c ∈ later, c.call = .cancel → moment < c.time

/-- The timer is paused at a moment: nothing has ended the pause by then. -/
def PausedAt (calls : List Called) (moment : Nat) : Prop :=
  ∃ later e earlier, calls = later ++ e :: earlier ∧ e.call = .pause ∧ e.time ≤ moment ∧
    ∀ c ∈ later, c.time ≤ moment → ¬c.Resumes

/-- The count was not reset after a moment. -/
def SinceReset (calls : List Called) (moment : Nat) : Prop :=
  ∀ c ∈ calls, c.call = .reset → c.time ≤ moment

variable {e : Called} {calls : List Called} {begun moment now : Nat}

@[simp] theorem not_runOn_nil : ¬RunOn [] begun moment := by
  rintro ⟨later, e, earlier, split, -⟩
  exact List.append_ne_nil_of_right_ne_nil later (List.cons_ne_nil e earlier) split.symm

@[simp] theorem not_pausedAt_nil : ¬PausedAt [] moment := by
  rintro ⟨later, e, earlier, split, -⟩
  exact List.append_ne_nil_of_right_ne_nil later (List.cons_ne_nil e earlier) split.symm

@[simp] theorem sinceReset_nil : SinceReset [] moment := fun _ h => nomatch h

theorem runOn_cons : RunOn (e :: calls) begun moment ↔
    (e.Begins ∧ e.time = begun ∧ begun ≤ moment) ∨
      RunOn calls begun moment ∧ (e.call = .cancel → moment < e.time) := by
  constructor
  · rintro ⟨later, b, earlier, split, begins, at_begun, le, uncancelled⟩
    cases later with
    | nil =>
      cases split
      exact .inl ⟨begins, at_begun, le⟩
    | cons first later =>
      cases split
      obtain ⟨hfirst, hlater⟩ := List.forall_mem_cons.1 uncancelled
      exact .inr ⟨⟨later, b, earlier, rfl, begins, at_begun, le, hlater⟩, hfirst⟩
  · rintro (⟨begins, at_begun, le⟩ |
      ⟨⟨later, b, earlier, rfl, begins, at_begun, le, uncancelled⟩, first⟩)
    · exact ⟨[], e, calls, rfl, begins, at_begun, le, fun _ h => nomatch h⟩
    · exact ⟨e :: later, b, earlier, rfl, begins, at_begun, le,
        List.forall_mem_cons.2 ⟨first, uncancelled⟩⟩

theorem pausedAt_cons : PausedAt (e :: calls) moment ↔
    (e.call = .pause ∧ e.time ≤ moment) ∨
      PausedAt calls moment ∧ (e.time ≤ moment → ¬e.Resumes) := by
  constructor
  · rintro ⟨later, b, earlier, split, pauses, le, kept⟩
    cases later with
    | nil =>
      cases split
      exact .inl ⟨pauses, le⟩
    | cons first later =>
      cases split
      obtain ⟨hfirst, hlater⟩ := List.forall_mem_cons.1 kept
      exact .inr ⟨⟨later, b, earlier, rfl, pauses, le, hlater⟩, hfirst⟩
  · rintro (⟨pauses, le⟩ | ⟨⟨later, b, earlier, rfl, pauses, le, kept⟩, first⟩)
    · exact ⟨[], e, calls, rfl, pauses, le, fun _ h => nomatch h⟩
    · exact ⟨e :: later, b, earlier, rfl, pauses, le, List.forall_mem_cons.2 ⟨first, kept⟩⟩

theorem sinceReset_cons : SinceReset (e :: calls) moment ↔
    (e.call = .reset → e.time ≤ moment) ∧ SinceReset calls moment :=
  List.forall_mem_cons

/-! What was called by now decides about every later moment. -/

theorem runOn_later (past : ∀ e ∈ calls, e.time ≤ now) (hle : now ≤ moment) :
    RunOn calls begun moment ↔ RunOn calls begun now := by
  constructor
  · rintro ⟨later, e, earlier, rfl, begins, rfl, -, uncancelled⟩
    exact ⟨later, e, earlier, rfl, begins, rfl, past e (by simp),
      fun c hc cancels => hle.trans_lt (uncancelled c hc cancels)⟩
  · rintro ⟨later, e, earlier, rfl, begins, rfl, le, uncancelled⟩
    refine ⟨later, e, earlier, rfl, begins, rfl, le.trans hle, fun c hc cancels => ?_⟩
    have cancelled := uncancelled c hc cancels
    exact absurd (past c (by simp [hc])) (Nat.not_le.2 cancelled)

theorem pausedAt_later (past : ∀ e ∈ calls, e.time ≤ now) (hle : now ≤ moment) :
    PausedAt calls moment ↔ PausedAt calls now := by
  constructor
  · rintro ⟨later, e, earlier, rfl, pauses, -, kept⟩
    exact ⟨later, e, earlier, rfl, pauses, past e (by simp), fun c hc le =>
      kept c hc (le.trans hle)⟩
  · rintro ⟨later, e, earlier, rfl, pauses, le, kept⟩
    exact ⟨later, e, earlier, rfl, pauses, le.trans hle, fun c hc _ =>
      kept c hc (past c (by simp [hc]))⟩

theorem sinceReset_later (past : ∀ e ∈ calls, e.time ≤ now) (hle : now ≤ moment) :
    SinceReset calls moment :=
  fun e he _ => (past e he).trans hle

/-! A call says nothing about the time before it. -/

theorem runOn_before (h : moment < e.time) :
    RunOn (e :: calls) begun moment ↔ RunOn calls begun moment := by
  rw [runOn_cons]
  constructor
  · rintro (⟨-, rfl, le⟩ | ⟨on, -⟩)
    · exact absurd le (Nat.not_le.2 h)
    · exact on
  · exact fun on => .inr ⟨on, fun _ => h⟩

theorem pausedAt_before (h : moment < e.time) :
    PausedAt (e :: calls) moment ↔ PausedAt calls moment := by
  rw [pausedAt_cons]
  constructor
  · rintro (⟨-, le⟩ | ⟨paused, -⟩)
    · exact absurd le (Nat.not_le.2 h)
    · exact paused
  · exact fun paused => .inr ⟨paused, fun le => absurd le (Nat.not_le.2 h)⟩

theorem sinceReset_before (h : moment < e.time) :
    SinceReset (e :: calls) moment ↔ e.call ≠ .reset ∧ SinceReset calls moment := by
  rw [sinceReset_cons]
  exact and_congr_left' (imp_congr_right fun _ => iff_of_false (Nat.not_le.2 h) id)

/-- A call that neither begins a run nor cancels one leaves the run that is on. -/
theorem runOn_cons_of_not (begins : ¬e.Begins) (cancels : e.call ≠ .cancel) :
    RunOn (e :: calls) begun moment ↔ RunOn calls begun moment := by
  rw [runOn_cons]
  exact ⟨fun h => (h.resolve_left fun h => begins h.1).1, fun on =>
    .inr ⟨on, fun h => absurd h cancels⟩⟩

end Timer

end StepFlow
