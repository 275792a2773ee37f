import Mathlib.Data.Set.Card
import Mathlib.Order.Interval.Finset.Nat
import Mathlib.Tactic.Ring
import StepFlow.Proofs.Timer.Course

/-!
# A timer counts every tick once

A timer keeps no list of its ticks, but a count, a pause and the moment of the next tick. These
agree with what the calls say, whatever is called and however time passes: `Course.Sound` says
how, one call or one stretch of time keeps it, and so the count is the number of moments at
which the calls put a tick.
-/

namespace StepFlow

namespace Timer

/-- There is a tick at a moment: it is one or more full periods after the beginning of a run that is
on, and the timer is not paused. -/
def TicksAt (period : Nat) (calls : List Called) (moment : Nat) : Prop :=
  ∃ begun, RunOn calls begun moment ∧ (∃ k, 1 ≤ k ∧ moment = begun + k * period) ∧
    ¬PausedAt calls moment

/-- The moments of ticks before a moment that no reset has followed. -/
def ticksBefore (period : Nat) (calls : List Called) (now : Nat) : Set Nat :=
  {moment | moment < now ∧ TicksAt period calls moment ∧ SinceReset calls moment}

/-- The first full period that ends at a moment or later ends at `due`. -/
def NextTick (period begun now due : Nat) : Prop :=
  now ≤ due ∧ ∃ k, due = begun + (k + 1) * period ∧ (k = 0 ∨ begun + k * period < now)

variable {period begun now due later moment : Nat} {calls : List Called}

theorem finite_ticksBefore : (ticksBefore period calls now).Finite :=
  (Set.finite_Iio now).subset fun _ h => h.1

/-! ## Ticks that are due -/

theorem lt_dueBefore (hp : 0 < period) {j : Nat} :
    j < dueBefore period due now ↔ due + j * period < now := by
  unfold dueBefore
  split
  · rw [Nat.lt_succ_iff, Nat.le_div_iff_mul_le hp]
    omega
  · constructor
    · intro hj
      cases hj
    · intro hj
      omega

theorem nextTick_start : NextTick period now now (now + period) :=
  ⟨Nat.le_add_right _ _, 0, by ring, .inl rfl⟩

theorem NextTick.advance (hp : 0 < period) (h : NextTick period begun now due) (hle : now ≤ later) :
    NextTick period begun later (due + dueBefore period due later * period) := by
  obtain ⟨-, k, hk, first⟩ := h
  have reached : ¬due + dueBefore period due later * period < later :=
    fun hlt => Nat.lt_irrefl _ ((lt_dueBefore hp).2 hlt)
  refine ⟨Nat.not_lt.1 reached, k + dueBefore period due later, by rw [hk]; ring, ?_⟩
  cases hn : dueBefore period due later with
  | zero => exact first.imp_right fun hlt => hlt.trans_le hle
  | succ n =>
    have last : due + n * period < later := (lt_dueBefore hp).1 (by omega)
    right
    calc begun + (k + (n + 1)) * period = due + n * period := by rw [hk]; ring
      _ < later := last

/-- Ticks from a moment on are those that come whole periods after the next one. -/
theorem NextTick.tick_iff (h : NextTick period begun now due) (hle : now ≤ moment) :
    (∃ k, 1 ≤ k ∧ moment = begun + k * period) ↔ ∃ j, moment = due + j * period := by
  obtain ⟨-, k, rfl, first⟩ := h
  constructor
  · rintro ⟨i, hi, rfl⟩
    have enough : k + 1 ≤ i := by
      rcases first with rfl | hlt
      · exact hi
      · by_contra hlt'
        have : i * period ≤ k * period := Nat.mul_le_mul_right _ (by omega)
        omega
    obtain ⟨j, rfl⟩ := Nat.exists_eq_add_of_le enough
    exact ⟨j, by ring⟩
  · rintro ⟨j, rfl⟩
    exact ⟨k + 1 + j, by omega, by ring⟩

theorem ncard_due (hp : 0 < period) :
    {moment | moment < later ∧ ∃ j, moment = due + j * period}.ncard =
      dueBefore period due later := by
  have same : {moment | moment < later ∧ ∃ j, moment = due + j * period} =
      (fun j => due + j * period) '' Set.Iio (dueBefore period due later) := by
    ext moment
    constructor
    · rintro ⟨hlt, j, rfl⟩
      exact ⟨j, (lt_dueBefore hp).2 hlt, rfl⟩
    · rintro ⟨j, hj, rfl⟩
      exact ⟨(lt_dueBefore hp).1 hj, j, rfl⟩
  have injective : Function.Injective fun j => due + j * period := fun i j h =>
    Nat.eq_of_mul_eq_mul_right hp (Nat.add_left_cancel h)
  rw [same, Set.ncard_image_of_injective _ injective, ← Finset.coe_Iio,
    Set.ncard_coe_finset, Nat.card_Iio]

/-! ## What a timer holds and what the calls say -/

/-- A timer without a limit holds what its calls say. -/
structure Course.Sound (period : Nat) (c : Course) : Prop where
  period_eq : c.timer.period = period
  unlimited : c.timer.maxTicks = none
  past : ∀ e ∈ c.calls, e.time ≤ c.now
  /-- Runs do not overlap. -/
  alone : ∀ {moment begun begun'},
    RunOn c.calls begun moment → RunOn c.calls begun' moment → begun = begun'
  paused : c.timer.paused = true ↔ PausedAt c.calls c.now
  idle : c.timer.due = none → ∀ begun, ¬RunOn c.calls begun c.now
  running : ∀ due, c.timer.due = some due →
    ∃ begun, RunOn c.calls begun c.now ∧ NextTick period begun c.now due
  ticks : c.timer.ticks = (ticksBefore period c.calls c.now).ncard

namespace Course

variable {c : Course}

theorem sound_ofPeriod (period : Nat) : Sound period (ofPeriod period none) where
  period_eq := rfl
  unlimited := rfl
  past _ h := nomatch h
  alone h := absurd h not_runOn_nil
  paused := iff_of_false Bool.false_ne_true not_pausedAt_nil
  idle _ _ := not_runOn_nil
  running _ h := nomatch h
  ticks := by
    have none_before : ticksBefore period [] 0 = ∅ :=
      Set.eq_empty_of_forall_notMem fun _ h => nomatch h.1
    show 0 = (ticksBefore period [] 0).ncard
    rw [none_before, Set.ncard_empty]

namespace Sound

theorem running_iff (s : Sound period c) :
    c.timer.isRunning = true ↔ ∃ begun, RunOn c.calls begun c.now := by
  cases hdue : c.timer.due with
  | none =>
    rw [isRunning, hdue]
    exact iff_of_false Bool.false_ne_true fun ⟨begun, on⟩ => s.idle hdue begun on
  | some due =>
    obtain ⟨begun, on, -⟩ := s.running due hdue
    rw [isRunning, hdue]
    exact iff_of_true rfl ⟨begun, on⟩

/-- The ticks from now on are those that the timer waits for. -/
theorem ticksAt_iff (s : Sound period c) (hle : c.now ≤ moment) :
    TicksAt period c.calls moment ↔
      ∃ due, c.timer.due = some due ∧ c.timer.paused = false ∧ ∃ j, moment = due + j * period := by
  have unpaused : ¬PausedAt c.calls moment ↔ c.timer.paused = false := by
    rw [pausedAt_later s.past hle, ← s.paused, Bool.not_eq_true]
  constructor
  · rintro ⟨begun, on, tick, hpause⟩
    have on := (runOn_later s.past hle).1 on
    cases hdue : c.timer.due with
    | none => exact absurd on (s.idle hdue begun)
    | some due =>
      obtain ⟨begun', on', next⟩ := s.running due hdue
      obtain rfl := s.alone on on'
      exact ⟨due, rfl, unpaused.1 hpause, (next.tick_iff hle).1 tick⟩
  · rintro ⟨due, hdue, hpause, tick⟩
    obtain ⟨begun, on, next⟩ := s.running due hdue
    exact ⟨begun, (runOn_later s.past hle).2 on, (next.tick_iff hle).2 tick, unpaused.2 hpause⟩

/-! ### Time passes -/

theorem ticks_advance (hp : 0 < period) (s : Sound period c) (later : Nat) :
    (c.timer.advance later).ticks =
      c.timer.ticks +
        {moment | c.now ≤ moment ∧ moment < later ∧ TicksAt period c.calls moment}.ncard := by
  have no_tick (none_due : ∀ due, c.timer.due = some due → c.timer.paused = true) :
      {moment | c.now ≤ moment ∧ moment < later ∧ TicksAt period c.calls moment}.ncard = 0 := by
    have empty :
        {moment | c.now ≤ moment ∧ moment < later ∧ TicksAt period c.calls moment} = ∅ := by
      refine Set.eq_empty_of_forall_notMem fun moment h => ?_
      obtain ⟨due, hdue, unpaused, -⟩ := (s.ticksAt_iff h.1).1 h.2.2
      exact Bool.false_ne_true (unpaused.symm.trans (none_due due hdue))
    rw [empty, Set.ncard_empty]
  cases hdue : c.timer.due with
  | none =>
    have none_due : ∀ due, c.timer.due = some due → c.timer.paused = true :=
      fun due h => nomatch hdue.symm.trans h
    rw [advance_of_idle hdue, no_tick none_due, Nat.add_zero]
  | some due =>
    cases hpause : c.timer.paused with
    | true => rw [advance_of_paused hdue hpause, no_tick fun _ _ => hpause, Nat.add_zero]
    | false =>
      obtain ⟨begun, -, next⟩ := s.running due hdue
      have same : {moment | c.now ≤ moment ∧ moment < later ∧ TicksAt period c.calls moment} =
          {moment | moment < later ∧ ∃ j, moment = due + j * period} := by
        ext moment
        constructor
        · rintro ⟨hle, hlt, tick⟩
          obtain ⟨due', hdue', -, hj⟩ := (s.ticksAt_iff hle).1 tick
          obtain rfl : due = due' := Option.some.inj (hdue.symm.trans hdue')
          exact ⟨hlt, hj⟩
        · rintro ⟨hlt, j, rfl⟩
          have hle : c.now ≤ due + j * period := next.1.trans (Nat.le_add_right _ _)
          exact ⟨hle, hlt, (s.ticksAt_iff hle).2 ⟨due, hdue, hpause, j, rfl⟩⟩
      rw [advance_of_unlimited hdue hpause s.unlimited, same, ncard_due hp, s.period_eq]

theorem ncard_ticksBefore (s : Sound period c) {later : Nat} (hle : c.now ≤ later) :
    (ticksBefore period c.calls later).ncard =
      c.timer.ticks +
        {moment | c.now ≤ moment ∧ moment < later ∧ TicksAt period c.calls moment}.ncard := by
  have split : ticksBefore period c.calls later = ticksBefore period c.calls c.now ∪
      {moment | c.now ≤ moment ∧ moment < later ∧ TicksAt period c.calls moment} := by
    ext moment
    constructor
    · rintro ⟨hlt, tick, kept⟩
      rcases Nat.lt_or_ge moment c.now with h | h
      · exact .inl ⟨h, tick, kept⟩
      · exact .inr ⟨h, hlt, tick⟩
    · rintro (⟨hlt, tick, kept⟩ | ⟨h, hlt, tick⟩)
      · exact ⟨hlt.trans_le hle, tick, kept⟩
      · exact ⟨hlt, tick, sinceReset_later s.past h⟩
  have disjoint : Disjoint (ticksBefore period c.calls c.now)
      {moment | c.now ≤ moment ∧ moment < later ∧ TicksAt period c.calls moment} :=
    Set.disjoint_left.2 fun moment h h' => Nat.not_lt.2 h'.1 h.1
  rw [split, Set.ncard_union_eq disjoint finite_ticksBefore
    ((Set.finite_Iio later).subset fun _ h => h.2.1), ← s.ticks]

theorem pass (hp : 0 < period) (s : Sound period c) (ms : Nat) :
    Sound period (c.step (.pass ms)) := by
  have hle : c.now ≤ c.now + ms := Nat.le_add_right _ _
  have kept : (c.timer.advance (c.now + ms)).period = c.timer.period ∧
      (c.timer.advance (c.now + ms)).maxTicks = c.timer.maxTicks ∧
      (c.timer.advance (c.now + ms)).paused = c.timer.paused ∧
      (c.timer.advance (c.now + ms)).due =
        c.timer.due.map fun due => due + dueBefore period due (c.now + ms) * period := by
    cases hdue : c.timer.due with
    | none =>
      rw [advance_of_idle hdue]
      exact ⟨rfl, rfl, rfl, hdue⟩
    | some due =>
      cases hpause : c.timer.paused with
      | true =>
        rw [advance_of_paused hdue hpause, s.period_eq]
        exact ⟨rfl, rfl, hpause, rfl⟩
      | false =>
        rw [advance_of_unlimited hdue hpause s.unlimited, s.period_eq]
        exact ⟨rfl, rfl, hpause, rfl⟩
  obtain ⟨hperiod, hmax, hpause, hdue⟩ := kept
  refine ⟨hperiod.trans s.period_eq, hmax.trans s.unlimited, fun e h => (s.past e h).trans hle,
    s.alone, ?_, ?_, ?_, ?_⟩
  · show (c.timer.advance (c.now + ms)).paused = true ↔ PausedAt c.calls (c.now + ms)
    rw [hpause, pausedAt_later s.past hle, s.paused]
  · intro idle begun on
    have idle : c.timer.due = none := Option.map_eq_none_iff.1 (hdue.symm.trans idle)
    exact s.idle idle begun ((runOn_later s.past hle).1 on)
  · intro later running
    obtain ⟨due, waiting, rfl⟩ := Option.map_eq_some_iff.1 (hdue.symm.trans running)
    obtain ⟨begun, on, next⟩ := s.running due waiting
    exact ⟨begun, (runOn_later s.past hle).2 on, next.advance hp hle⟩
  · show (c.timer.advance (c.now + ms)).ticks = (ticksBefore period c.calls (c.now + ms)).ncard
    rw [s.ticks_advance hp, s.ncard_ticksBefore hle]

/-! ### Calls -/

theorem ticksBefore_cons {e : Called} :
    ticksBefore period (e :: calls) e.time =
      if e.call = .reset then ∅ else ticksBefore period calls e.time := by
  have same : ∀ moment < e.time,
    (TicksAt period (e :: calls) moment ∧ SinceReset (e :: calls) moment ↔
      e.call ≠ .reset ∧ TicksAt period calls moment ∧ SinceReset calls moment) := by
    intro moment h
    simp only [TicksAt, runOn_before h, pausedAt_before h, sinceReset_before h]
    exact and_left_comm
  split
  · next resets => exact Set.eq_empty_of_forall_notMem fun moment h =>
      ((same moment h.1).1 h.2).1 resets
  · next resets =>
    ext moment
    exact and_congr_right fun h => (same moment h).trans (and_iff_right resets)

/-- What a call has to come to, said of the state that it leaves. -/
theorem called (s : Sound period c) {e : Called} {t : Timer} (now : e.time = c.now)
    (period_eq : t.period = period) (unlimited : t.maxTicks = none)
    (fresh : e.Begins → c.timer.isRunning = false)
    (paused : t.paused = true ↔ e.call = .pause ∨ c.timer.paused = true ∧ ¬e.Resumes)
    (idle : t.due = none → ∀ begun, ¬RunOn (e :: c.calls) begun c.now)
    (running : ∀ due, t.due = some due →
      ∃ begun, RunOn (e :: c.calls) begun c.now ∧ NextTick period begun c.now due)
    (ticks : t.ticks = if e.call = .reset then 0 else c.timer.ticks) :
    Sound period ⟨c.now, t, e :: c.calls⟩ where
  period_eq := period_eq
  unlimited := unlimited
  past := List.forall_mem_cons.2 ⟨now.le, s.past⟩
  alone := by
    have not_both : ∀ {moment begun}, e.Begins → e.time ≤ moment → ¬RunOn c.calls begun moment := by
      intro moment begun begins le on
      have running := s.running_iff.2 ⟨begun, (runOn_later s.past (now ▸ le)).1 on⟩
      exact Bool.false_ne_true ((fresh begins).symm.trans running)
    intro moment begun begun' on on'
    rcases runOn_cons.1 on with ⟨begins, rfl, le⟩ | ⟨on, -⟩
    · rcases runOn_cons.1 on' with ⟨-, rfl, -⟩ | ⟨on', -⟩
      · rfl
      · exact absurd on' (not_both begins le)
    · rcases runOn_cons.1 on' with ⟨begins, rfl, le⟩ | ⟨on', -⟩
      · exact absurd on (not_both begins le)
      · exact s.alone on on'
  paused := by
    rw [paused, pausedAt_cons, s.paused, now]
    simp only [le_refl, and_true, true_imp_iff]
  idle := idle
  running := running
  ticks := by
    rw [ticks, ← now, ticksBefore_cons]
    split
    · rw [Set.ncard_empty]
    · rw [now, s.ticks]

theorem call (s : Sound period c) (call : Call) : Sound period (c.step (.call call)) := by
  have same_run {e : Called} (begins : ¬e.Begins) (cancels : e.call ≠ .cancel) :
      (c.timer.due = none → ∀ begun, ¬RunOn (e :: c.calls) begun c.now) ∧
        ∀ due, c.timer.due = some due →
          ∃ begun, RunOn (e :: c.calls) begun c.now ∧ NextTick period begun c.now due := by
    simp only [runOn_cons_of_not begins cancels]
    exact ⟨s.idle, s.running⟩
  cases call with
  | start =>
    rcases Call.make_start_cases c.now c.timer with refused | ⟨idle, granted⟩
    · have same : c.step (.call .start) =
          ⟨c.now, c.timer, ⟨c.now, .start, c.timer.ticks, false⟩ :: c.calls⟩ := by
        rw [step, refused]
      rw [same]
      have begins : ¬(Called.mk c.now .start c.timer.ticks false).Begins := fun h =>
        Bool.false_ne_true h.2
      obtain ⟨idle, running⟩ := same_run begins (by simp)
      refine s.called rfl s.period_eq s.unlimited (fun h => absurd h begins) ?_ idle running rfl
      simp [Called.Resumes, begins]
    · have begun : c.step (.call .start) =
          ⟨c.now, { c.timer with paused := false, due := some (c.now + c.timer.period) },
            ⟨c.now, .start, c.timer.ticks, true⟩ :: c.calls⟩ := by
        rw [step, granted]
      rw [begun]
      have begins : (Called.mk c.now .start c.timer.ticks true).Begins := ⟨rfl, rfl⟩
      refine s.called rfl s.period_eq s.unlimited (fun _ => idle) ?_ ?_ ?_ rfl
      · simp [Called.Resumes, begins]
      · intro h
        cases h
      · rintro due ⟨⟩
        exact ⟨c.now, runOn_cons.2 (.inl ⟨begins, rfl, Nat.le_refl _⟩),
          s.period_eq ▸ nextTick_start⟩
  | pause =>
    have begins := Called.not_begins (e := ⟨c.now, .pause, c.timer.ticks, false⟩) (by simp)
    obtain ⟨idle, running⟩ := same_run begins (by simp)
    exact s.called rfl s.period_eq s.unlimited (absurd · begins) (iff_of_true rfl (.inl rfl))
      idle running rfl
  | resume =>
    have begins := Called.not_begins (e := ⟨c.now, .resume, c.timer.ticks, false⟩) (by simp)
    obtain ⟨idle, running⟩ := same_run begins (by simp)
    refine s.called rfl s.period_eq s.unlimited (absurd · begins)
      (iff_of_false Bool.false_ne_true ?_) idle running rfl
    simp [Called.Resumes]
  | reset =>
    have begins := Called.not_begins (e := ⟨c.now, .reset, c.timer.ticks, false⟩) (by simp)
    obtain ⟨idle, running⟩ := same_run begins (by simp)
    refine s.called rfl s.period_eq s.unlimited (absurd · begins) ?_ idle running rfl
    simp [Call.make, Timer.reset, Called.Resumes, Called.Begins]
  | cancel =>
    refine s.called rfl s.period_eq s.unlimited
      (absurd · (Called.not_begins (by simp))) ?_ ?_ ?_ rfl
    · simp [Call.make, Timer.cancel, Called.Resumes, Called.Begins]
    · intro _ begun on
      rcases runOn_cons.1 on with ⟨begins, -⟩ | ⟨-, uncancelled⟩
      · cases begins.1
      · exact Nat.lt_irrefl _ (uncancelled rfl)
    · intro due h
      cases h

theorem step (hp : 0 < period) (s : Sound period c) (h : Happening) : Sound period (c.step h) := by
  cases h with
  | call call => exact s.call call
  | pass ms => exact s.pass hp ms

end Sound

theorem sound_run (hp : 0 < period) (happenings : List Happening) :
    Sound period ((ofPeriod period none).run happenings) :=
  run_induction (fun _ h s => s.step hp h) (sound_ofPeriod period) happenings

end Course

/-- Whatever is called and however time passes, the count of a timer without a limit is the number
of moments at which there was a tick since the latest reset: whole periods after a granted start,
before that run was cancelled and while the timer was not paused. Runs never overlap, and a start is
granted if and only if no run is on. -/
theorem ticks_counted (hp : 0 < period) (happenings : List Happening) :
    let c := (Course.ofPeriod period none).run happenings
    c.timer.ticks =
        {moment | moment < c.now ∧ TicksAt period c.calls moment ∧
          SinceReset c.calls moment}.ncard ∧
      (∀ begun begun' moment,
        RunOn c.calls begun moment → RunOn c.calls begun' moment → begun = begun') ∧
      ∃ granted t, c.timer.start c.now = .ok (granted, t) ∧
        (granted = true ↔ ¬∃ begun, RunOn c.calls begun c.now) := by
  intro c
  have s := Course.sound_run hp happenings
  refine ⟨s.ticks, fun _ _ _ => s.alone, ?_⟩
  have positive : c.timer.period ≠ 0 := by
    rw [s.period_eq]
    exact Nat.ne_of_gt hp
  rw [← s.running_iff, start, if_neg positive]
  split
  · next h => exact ⟨false, _, rfl, iff_of_false Bool.false_ne_true (not_not.2 h)⟩
  · next h => exact ⟨true, _, rfl, iff_of_true rfl h⟩

/-- A tick falls into a pause, and the timer is started again twice: once while it runs and once
after it was cancelled. -/
theorem ticks_counted_restarted :
    let c := (Course.ofPeriod 100 none).run
      [.call .start, .pass 150, .call .pause, .pass 100, .call .start, .call .resume, .pass 100,
        .call .cancel, .pass 30, .call .start, .pass 120]
    0 < 100 ∧ c.timer.ticks = 3 ∧
      {moment | moment < c.now ∧ TicksAt 100 c.calls moment ∧ SinceReset c.calls moment}.ncard = 3 ∧
      ∃ begun, RunOn c.calls begun c.now := by
  intro c
  obtain ⟨count, -, granted, t, started, idle⟩ := ticks_counted (show 0 < 100 by decide)
    [.call .start, .pass 150, .call .pause, .pass 100, .call .start, .call .resume, .pass 100,
      .call .cancel, .pass 30, .call .start, .pass 120]
  have refused : granted = false := by
    cases started
    rfl
  have three : c.timer.ticks = 3 := by decide
  refine ⟨by decide, three, count.symm.trans three, not_not.1 fun h => ?_⟩
  exact Bool.false_ne_true (refused.symm.trans (idle.2 h))

end Timer

end StepFlow
