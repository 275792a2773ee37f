import StepFlow.Proofs.Timer.Course

/-!
# A timer with a limit

A timer with a limit stops by itself at the tick that brings its count there. It looks at the limit
only after it has counted, so a run that is begun when the count is already at the limit makes one
more tick before it stops. These late starts are all that carries a count beyond the limit.
-/

namespace StepFlow

namespace Timer

/-- A granted start at which the count had reached the limit. -/
def Called.Late (limit : Nat) (e : Called) : Prop := e.Begins ∧ limit ≤ e.ticks

instance (limit : Nat) (e : Called) : Decidable (e.Late limit) :=
  inferInstanceAs (Decidable (_ ∧ _))

def lateStarts (limit : Nat) (calls : List Called) : Nat := calls.countP fun e => e.Late limit

variable {limit period : Nat}

theorem lateStarts_cons {e : Called} {calls : List Called} :
    lateStarts limit (e :: calls) = lateStarts limit calls + if e.Late limit then 1 else 0 := by
  simp only [lateStarts, List.countP_cons, decide_eq_true_eq]

theorem lateStarts_eq_zero {calls : List Called} :
    lateStarts limit calls = 0 ↔ ∀ e ∈ calls, e.Begins → e.ticks < limit := by
  rw [lateStarts, List.countP_eq_zero]
  refine forall₂_congr fun e _ => ?_
  rw [decide_eq_true_eq, Called.Late, not_and, Nat.not_le]

/-- The count of a timer with a limit is beyond it by no more than there were late starts.
While the timer runs, one tick more is still allowed, also after a reset: that matters
where the limit is zero. -/
structure Course.Limited (limit : Nat) (c : Course) : Prop where
  limited : c.timer.maxTicks = some limit
  bounded : c.timer.ticks ≤ limit + lateStarts limit c.calls
  spare : c.timer.isRunning = true →
    ∀ n ≤ c.timer.ticks, limit ≤ n → n < limit + lateStarts limit c.calls

namespace Course

variable {c : Course}

theorem limited_ofPeriod (period limit : Nat) : Limited limit (ofPeriod period (some limit)) where
  limited := rfl
  bounded := Nat.zero_le _
  spare h := nomatch h

namespace Limited

/-- Time passes: the timer stops at the limit, or at the next tick where it has
reached the limit before. -/
theorem pass (s : Limited limit c) (ms : Nat) : Limited limit (c.step (.pass ms)) := by
  have unchanged {t : Timer} (same : c.timer.advance (c.now + ms) = t)
    (maxTicks : t.maxTicks = c.timer.maxTicks)
      (ticks : t.ticks = c.timer.ticks) (running : t.isRunning = c.timer.isRunning) :
      Limited limit (c.step (.pass ms)) := by
    rw [step, same]
    exact ⟨maxTicks.trans s.limited, ticks ▸ s.bounded, fun h => ticks ▸ s.spare (running ▸ h)⟩
  cases hdue : c.timer.due with
  | none => exact unchanged (advance_of_idle hdue) rfl rfl rfl
  | some due =>
    have running : c.timer.isRunning = true := by rw [isRunning, hdue]; rfl
    cases hpause : c.timer.paused with
    | true => exact unchanged (advance_of_paused hdue hpause) rfl rfl running.symm
    | false =>
      have bounded := s.bounded
      have spare := s.spare running c.timer.ticks (Nat.le_refl _)
      rw [step, advance_of_limited hdue hpause s.limited]
      split
      · refine ⟨s.limited, ?_, nofun⟩
        show c.timer.ticks + max 1 (limit - c.timer.ticks) ≤ limit + lateStarts limit c.calls
        omega
      · next more =>
        refine ⟨s.limited, ?_, fun _ n hn hlimit => ?_⟩
        · show c.timer.ticks + dueBefore c.timer.period due (c.now + ms) ≤
            limit + lateStarts limit c.calls
          omega
        · have hn : n ≤ c.timer.ticks + dueBefore c.timer.period due (c.now + ms) := hn
          exact s.spare running n (by omega) hlimit

/-- A call that begins no run can only lower the count and end a run. -/
theorem called (s : Limited limit c) (e : Called) {t : Timer}
    (limited : t.maxTicks = c.timer.maxTicks)
    (ticks : t.ticks ≤ c.timer.ticks) (running : t.isRunning = true → c.timer.isRunning = true) :
    Limited limit ⟨c.now, t, e :: c.calls⟩ := by
  have more : lateStarts limit c.calls ≤ lateStarts limit (e :: c.calls) := by
    rw [lateStarts_cons]
    exact Nat.le_add_right _ _
  have bounded := s.bounded
  refine ⟨limited.trans s.limited, ?_, fun h n hn hlimit => ?_⟩
  · show t.ticks ≤ limit + lateStarts limit (e :: c.calls)
    omega
  · have spare := s.spare (running h) n (Nat.le_trans hn ticks) hlimit
    show n < limit + lateStarts limit (e :: c.calls)
    omega

theorem call (s : Limited limit c) (call : Call) : Limited limit (c.step (.call call)) := by
  cases call with
  | start =>
    rcases Call.make_start_cases c.now c.timer with refused | ⟨-, granted⟩
    · rw [step, refused]
      exact s.called _ rfl (Nat.le_refl _) id
    · rw [step, granted]
      have bounded := s.bounded
      refine ⟨s.limited, ?_, fun _ n hn hlimit => ?_⟩
      · show c.timer.ticks ≤ _
        rw [lateStarts_cons]
        omega
      · have hn : n ≤ c.timer.ticks := hn
        have late : (Called.mk c.now .start c.timer.ticks true).Late limit :=
          ⟨⟨rfl, rfl⟩, Nat.le_trans hlimit hn⟩
        show n < _
        rw [lateStarts_cons, if_pos late]
        omega
  | pause => exact s.called _ rfl (Nat.le_refl _) id
  | resume => exact s.called _ rfl (Nat.le_refl _) id
  | reset => exact s.called _ rfl (Nat.zero_le _) id
  | cancel => exact s.called _ rfl (Nat.le_refl _) nofun

theorem step (s : Limited limit c) (h : Happening) : Limited limit (c.step h) := by
  cases h with
  | call call => exact s.call call
  | pass ms => exact s.pass ms

end Limited

theorem limited_run (period limit : Nat) (happenings : List Happening) :
    Limited limit ((ofPeriod period (some limit)).run happenings) :=
  run_induction (fun _ h s => s.step h) (limited_ofPeriod period limit) happenings

end Course

/-- Whatever is called and however time passes, late starts are all that carries the count of a
timer beyond its limit, each by one tick: where every granted start is made below the limit, the
count never exceeds it, and once it is there the timer does not run. -/
theorem limit_kept (period limit : Nat) (happenings : List Happening) :
    let c := (Course.ofPeriod period (some limit)).run happenings
    c.timer.ticks ≤ limit + c.calls.countP (fun e => e.Begins ∧ limit ≤ e.ticks) ∧
      ((∀ e ∈ c.calls, e.Begins → e.ticks < limit) →
        c.timer.ticks ≤ limit ∧ (c.timer.ticks = limit → c.timer.isRunning = false)) := by
  intro c
  have s := Course.limited_run period limit happenings
  refine ⟨s.bounded, fun early => ?_⟩
  have none_late := lateStarts_eq_zero.2 early
  have bounded := s.bounded
  rw [none_late] at bounded
  refine ⟨bounded, fun reached => Bool.eq_false_iff.2 fun running => ?_⟩
  have spare := s.spare running limit (Nat.le_of_eq reached.symm) (Nat.le_refl _)
  rw [none_late] at spare
  exact Nat.lt_irrefl _ spare

/-- The timer reaches its limit, is reset, and reaches it again. -/
theorem limit_kept_reset :
    let c := (Course.ofPeriod 10 (some 2)).run
      [.call .start, .pass 15, .call .start, .pass 20, .call .reset, .call .start, .pass 50]
    (∀ e ∈ c.calls, e.Begins → e.ticks < 2) ∧ c.timer.ticks = 2 ∧ c.timer.isRunning = false := by
  intro c
  have early : ∀ e ∈ c.calls, e.Begins → e.ticks < 2 := by decide
  have reached : c.timer.ticks = 2 := by decide
  exact ⟨early, reached, ((limit_kept 10 2 _).2 early).2 reached⟩

/-- A timer that has stopped at its limit of two is started again: it runs, and counts a third tick.
And a timer with a limit of zero runs and counts one. -/
theorem limit_exceeded :
    let started := (Course.ofPeriod 10 (some 2)).run [.call .start, .pass 25, .call .start]
    started.timer.ticks = 2 ∧ started.timer.isRunning = true ∧
      (started.step (.pass 15)).timer.ticks = 3 ∧
      ((Course.ofPeriod 10 (some 0)).run [.call .start, .pass 15]).timer.ticks = 1 := by
  decide

end Timer

end StepFlow
