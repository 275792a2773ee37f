import StepFlow.Proofs.Run.Atomic
import StepFlow.Proofs.Run.Clock
import StepFlow.Proofs.Run.Compare

/-!
# Time limits of steps

A step is attempted within the time limit of its processor or, where that has none of its own,
within the one in the settings. How a step goes is decided by what its attempt would come to if it
were left alone, and after how long: if this is within the limit, the step goes like that, and
otherwise it fails when the limit has passed. The flows in a step are part of the attempt, each step
in them with a limit of its own.

Either way the next step comes up at once, so that a flow takes no longer than
the limits of its steps.
-/

namespace StepFlow

namespace Executor

variable {ex : Executor} {setting : Setting}

/-! ## Steps are on time -/

section OnTime

variable {inv : Invocation} {p : Processor} {a : Action} {w : World}
variable {nested : Slot → Scope World → Task World Unit}

theorem attempt_onTime (hp : p.OnTime) (hnested : ∀ slot scope u, (nested slot scope).OnTime u) :
    (attempt inv p a nested).OnTime w := by
  refine (hp inv a w).bind ?_
  intro result u
  match result with
  | .error e => exact .pure _ u
  | .ok none => exact .pure _ u
  | .ok (some launch) => exact (hnested launch.slot _ u).mapResult

theorem within_onTime {t : Task World (Except ActionError Unit)} (limit : Option Nat)
    (h : t.OnTime w) :
    (within limit t).OnTime w := by
  cases limit with
  | none => exact h
  | some ms => exact (h.limit ms).mapResult

theorem dispatch_onTime (hp : p.OnTime) (step : StepRef)
    (hnested : ∀ slot scope u, (nested slot scope).OnTime u) :
    (ex.dispatch inv p step a nested).OnTime w := by
  apply Task.OnTime.after (Task.settle_modify _ _) (.emit _ w)
  apply Task.OnTime.after (Task.settle_read _ _) (.refl _)
  refine (within_onTime _ (attempt_onTime hp hnested)).bind ?_
  intro result u
  apply Task.OnTime.after (Task.settle_read _ _) (.refl u)
  cases result <;> exact .ended rfl (.emit _ u)

theorem step_onTime (hp : ∀ p ∈ ex.registry, p.OnTime) (scope : Scope World) (index : Nat)
    (hnested : ∀ slot scope u, (nested slot scope).OnTime u) :
    (ex.step setting scope index a nested).OnTime w := by
  apply Task.OnTime.after (Task.settle_modifyGet _ _) (.freshId w)
  apply Task.OnTime.after (Task.settle_read _ _) (.refl _)
  split
  · exact .ended rfl (.emit _ _)
  · split
    · exact .ended rfl (.emit _ _)
    · next p hresolve => exact dispatch_onTime (hp p (mem_of_resolve hresolve)) _ hnested

theorem runNested_onTime {setting : Setting} {a : Action} {slot : Slot}
    (flows : ∀ flow, a.flowIn slot = some flow → ∀ scope w,
      (ex.runSteps setting scope 0 flow.steps).OnTime w) (scope : Scope World) (w : World) :
    (ex.runNested setting a slot scope).OnTime w := by
  rw [runNested_eq]
  cases owned : a.flowIn slot with
  | none => exact .pure _ w
  | some flow => exact (flows flow owned scope w).mapResult

theorem runSteps_onTime (hp : ∀ p ∈ ex.registry, p.OnTime) (setting : Setting) (steps : List Action)
    (scope : Scope World) (index : Nat) (w : World) :
    (ex.runSteps setting scope index steps).OnTime w := by
  induction steps using Action.steps_induction generalizing scope index w with
  | nil => exact .pure _ w
  | cons a rest flows ih =>
    have first : (ex.runStep setting scope index a).OnTime w := by
      rw [runStep_eq]
      exact step_onTime hp scope index fun slot =>
        runNested_onTime fun flow owned scope => flows slot flow owned scope 0
    exact first.bind fun _ u => (ih scope (index + 1) u).mapResult

theorem process_onTime (hp : ∀ p ∈ ex.registry, p.OnTime) (hmem : p ∈ ex.registry) :
    (ex.process inv p a).OnTime w :=
  attempt_onTime (hp p hmem) fun _ =>
    runNested_onTime fun flow _ scope => runSteps_onTime hp _ flow.steps scope 0

end OnTime

/-! ## How a step goes in time -/

/-- When a step came up and when it ended, how it came out, how long its attempt takes if it is left
alone, and the limit that cut it off, if one did. -/
structure Timing where
  outcome : Outcome
  began : Nat
  ended : Nat
  needed : Nat
  cut : Option Nat

/-- What is reported at the end of an attempt, and how the step came out. -/
def verdict (step : StepRef) (ms : Nat) : Except ActionError Unit → Event × Outcome
  | .ok () => (.actionCompleted step ms, .completed)
  | .error e => (.actionFailed step e, .failed)

/-- The name under which the events of a flow tell of a step that comes up in a world. -/
def nameOf (setting : Setting) (index : Nat) (a : Action) (w : World) : StepRef :=
  ⟨setting.executionId, w.freshId.1, a.type.name, index⟩

/-- What the attempt of a step would come to if it were left alone, and in which world. -/
def leftAlone (ex : Executor) (setting : Setting) (scope : Scope World) (index : Nat) (a : Action)
    (p : Processor) (w : World) : Except ActionError Unit × World :=
  (ex.process ⟨setting.host, scope, setting.region, setting.executionId, w.freshId.1⟩ p a).run
    World.pass (w.freshId.2.emit (.actionStarted (nameOf setting index a w)))

section Timed

variable (ex : Executor) (setting : Setting) (scope : Scope World)

/-- How a step goes that comes up in a world: its timing, its events with their times, the latest
first, and the world in which the next step comes up. -/
inductive TimedStep (index : Nat) (a : Action) (w : World) :
    Timing → List (Nat × Event) → World → Prop
  | skipped (cause : a.isDisabled (scope.lookup w.freshId.2) = true ∨ ex.resolve a.type = none) :
    TimedStep index a w ⟨.skipped, w.clock, w.clock, 0, none⟩
      [(w.clock, .actionSkipped (nameOf setting index a w))]
      (w.freshId.2.emit (.actionSkipped (nameOf setting index a w)))
  /-- The limit, if there is one, allows for all that the attempt does. -/
  | inTime {p result ms inner} {v : World}
    (enabled : a.isDisabled (scope.lookup w.freshId.2) = false)
    (resolved : ex.resolve a.type = some p)
    (alone : ex.leftAlone setting scope index a p w = (result, v)) (needed : v.clock = w.clock + ms)
    (events : v.events = inner ++ (w.clock, .actionStarted (nameOf setting index a w)) :: w.events)
    (times : ∀ entry ∈ inner, w.clock ≤ entry.1 ∧ entry.1 ≤ v.clock)
    (allowed : ∀ limit, ex.limitFor p = some limit → ms ≤ limit) :
    TimedStep index a w
      ⟨(verdict (nameOf setting index a w) ms result).2, w.clock, w.clock + ms, ms, none⟩
      ((w.clock + ms, (verdict (nameOf setting index a w) ms result).1) ::
        (inner ++ [(w.clock, .actionStarted (nameOf setting index a w))]))
      (v.emit (verdict (nameOf setting index a w) ms result).1)
  /-- The attempt would go on when the limit has passed. -/
  | cutOff {p ms limit inner} {u : World}
    (enabled : a.isDisabled (scope.lookup w.freshId.2) = false)
    (resolved : ex.resolve a.type = some p)
    (needed : (ex.leftAlone setting scope index a p w).2.clock = w.clock + ms)
    (limited : ex.limitFor p = some limit) (late : limit < ms) (stopped : u.clock = w.clock + limit)
    (events : u.events = inner ++ (w.clock, .actionStarted (nameOf setting index a w)) :: w.events)
    (times : ∀ entry ∈ inner, w.clock ≤ entry.1 ∧ entry.1 ≤ u.clock) :
    TimedStep index a w ⟨.failed, w.clock, w.clock + limit, ms, some limit⟩
      ((w.clock + limit, .actionFailed (nameOf setting index a w) (.timeout limit)) ::
        (inner ++ [(w.clock, .actionStarted (nameOf setting index a w))]))
      (u.emit (.actionFailed (nameOf setting index a w) (.timeout limit)))

/-- How steps go, the first one at an index: one after the other, and none is left out. -/
inductive TimedSteps : Nat → List Action → World → List Timing → List (Nat × Event) → World → Prop
  | nil {index w} : TimedSteps index [] w [] [] w
  | cons {index a rest w u v timing timings events more}
    (first : TimedStep ex setting scope index a w timing events u)
    (others : TimedSteps (index + 1) rest u timings more v) :
    TimedSteps index (a :: rest) w (timing :: timings) (more ++ events) v

end Timed

section Timed

variable {scope : Scope World} {index : Nat} {a : Action} {steps : List Action} {w u : World}
variable {timing : Timing} {timings : List Timing} {events : List (Nat × Event)}

theorem TimedStep.events_eq (h : TimedStep ex setting scope index a w timing events u) :
    u.events = events ++ w.events := by
  cases h with
  | skipped => rfl
  | inTime _ _ _ needed grown =>
    rw [World.emit, needed, grown, List.cons_append, List.append_assoc, List.singleton_append]
  | cutOff _ _ _ _ _ stopped grown =>
    rw [World.emit, stopped, grown, List.cons_append, List.append_assoc, List.singleton_append]

theorem TimedSteps.events_eq (h : TimedSteps ex setting scope index steps w timings events u) :
    u.events = events ++ w.events := by
  induction h with
  | nil => rfl
  | cons first _ ih => rw [ih, first.events_eq, List.append_assoc]

theorem TimedSteps.length_timings (h : TimedSteps ex setting scope index steps w timings events u) :
    timings.length = steps.length := by
  induction h with
  | nil => rfl
  | cons _ _ ih => rw [List.length_cons, List.length_cons, ih]

/-- A step begins when it comes up, and the next one comes up when it has ended. -/
theorem TimedStep.clock (h : TimedStep ex setting scope index a w timing events u) :
    timing.began = w.clock ∧ timing.ended = u.clock := by
  cases h with
  | skipped => exact ⟨rfl, rfl⟩
  | inTime _ _ _ needed => exact ⟨rfl, needed.symm⟩
  | cutOff _ _ _ _ _ stopped => exact ⟨rfl, stopped.symm⟩

/-- A step takes no longer than its time limit. -/
theorem TimedStep.ended_le {bound : Nat} (h : TimedStep ex setting scope index a w timing events u)
    (limits : ∀ p, ex.resolve a.type = some p →
      ∃ limit, ex.limitFor p = some limit ∧ limit ≤ bound) :
    timing.ended ≤ timing.began + bound := by
  cases h with
  | skipped => exact Nat.le_add_right _ _
  | inTime _ resolved _ _ _ _ allowed =>
    obtain ⟨limit, hlimit, hle⟩ := limits _ resolved
    exact Nat.add_le_add_left (Nat.le_trans (allowed limit hlimit) hle) _
  | cutOff _ resolved _ limited =>
    obtain ⟨limit, hlimit, hle⟩ := limits _ resolved
    cases limited.symm.trans hlimit
    exact Nat.add_le_add_left hle _

/-- A step that needs no longer than its time limit is not cut off. -/
theorem TimedStep.cut_eq_none {bound : Nat}
    (h : TimedStep ex setting scope index a w timing events u)
    (limits : ∀ p, ex.resolve a.type = some p → ∃ limit, ex.limitFor p = some limit ∧ bound ≤ limit)
    (needed : timing.needed ≤ bound) : timing.cut = none := by
  cases h with
  | skipped => rfl
  | inTime => rfl
  | cutOff _ resolved _ limited late =>
    obtain ⟨limit, hlimit, hle⟩ := limits _ resolved
    cases limited.symm.trans hlimit
    exact absurd (Nat.le_trans needed hle) (Nat.not_le_of_lt late)

/-- Steps that take no longer than some time each end in that time, one after the other. -/
theorem TimedSteps.clock_le {bound : Nat}
    (h : TimedSteps ex setting scope index steps w timings events u)
    (bounded : ∀ timing ∈ timings, timing.ended ≤ timing.began + bound) :
    u.clock ≤ w.clock + steps.length * bound := by
  induction h with
  | nil => exact Nat.le_add_right _ _
  | cons first _ ih =>
    obtain ⟨began, ended⟩ := first.clock
    have hfirst := bounded _ List.mem_cons_self
    have hothers := ih fun timing mem => bounded timing (List.mem_cons_of_mem _ mem)
    rw [List.length_cons, Nat.add_one_mul]
    omega

/-- What holds of the timing of each step holds of all timings. -/
theorem TimedSteps.forall_timings {P : Timing → Prop}
    (h : TimedSteps ex setting scope index steps w timings events u)
    (each : ∀ a ∈ steps, ∀ index w timing events u,
      TimedStep ex setting scope index a w timing events u → P timing) :
    ∀ timing ∈ timings, P timing := by
  induction h with
  | nil => exact List.forall_mem_nil _
  | cons first _ ih =>
    refine List.forall_mem_cons.2 ⟨each _ List.mem_cons_self _ _ _ _ _ first, ?_⟩
    exact ih fun a mem => each a (List.mem_cons_of_mem _ mem)

end Timed

/-! ## Every run goes like that -/

/-- An attempt within a time limit comes to what it would come to alone, or is cut off. -/
theorem run_within {t : Task World (Except ActionError Unit)} {result : Except ActionError Unit}
    {w v : World} {ms : Nat} (h : t.OnTime w) (limit : Option Nat)
    (alone : t.run World.pass w = (result, v)) (needed : v.clock = w.clock + ms) :
    ((∀ l, limit = some l → ms ≤ l) ∧ (within limit t).run World.pass w = (result, v)) ∨
      ∃ l u, limit = some l ∧ l < ms ∧
        (within limit t).run World.pass w = (.error (.timeout l), u) ∧ w.Later u l := by
  cases limit with
  | none => exact .inl ⟨nofun, alone⟩
  | some l =>
    have hclock : (t.run World.pass w).2.clock = w.clock + ms := by rw [alone, needed]
    by_cases hms : ms ≤ l
    · refine .inl ⟨?_, ?_⟩
      · rintro _ ⟨⟩
        exact hms
      · rw [within, Task.run_mapResult, h.run_limit_of_le l (by omega), alone]
        rfl
    · obtain ⟨u, hrun, hlater⟩ := h.run_limit_of_lt l (by omega)
      refine .inr ⟨l, u, rfl, by omega, ?_, hlater⟩
      rw [within, Task.run_mapResult, hrun]
      rfl

/-- A step that is handed to its processor is in time or cut off. -/
theorem timed_dispatch (hp : ∀ p ∈ ex.registry, p.OnTime) {scope : Scope World} {index : Nat}
    {a : Action} {p : Processor} {w : World}
    (enabled : a.isDisabled (scope.lookup w.freshId.2) = false)
    (resolved : ex.resolve a.type = some p) :
    ∃ timing events u, TimedStep ex setting scope index a w timing events u ∧
      (ex.dispatch ⟨setting.host, scope, setting.region, setting.executionId, w.freshId.1⟩ p
        (nameOf setting index a w) a (ex.runNested setting a)).run World.pass w.freshId.2 =
          (.tally [timing.outcome], u) := by
  have hattempt :
      (ex.process ⟨setting.host, scope, setting.region, setting.executionId, w.freshId.1⟩
      p a).OnTime (w.freshId.2.emit (.actionStarted (nameOf setting index a w))) :=
    process_onTime hp (mem_of_resolve resolved)
  obtain ⟨result, v, alone⟩ : ∃ result v, ex.leftAlone setting scope index a p w = (result, v) :=
    ⟨_, _, rfl⟩
  obtain ⟨ms, hlater⟩ := hattempt.run
  rw [← leftAlone, alone] at hlater
  obtain ⟨needed, inner, hinner, times⟩ := hlater
  have hneeded : v.clock - w.clock = ms := by
    rw [needed]
    exact Nat.add_sub_cancel_left _ _
  rw [run_dispatch]
  rcases run_within hattempt (ex.limitFor p) alone needed with
    ⟨allowed, hrun⟩ | ⟨limit, u, limited, late, hrun, stopped, inner', hinner', times'⟩
  · refine ⟨_, _, _, .inTime enabled resolved alone needed hinner times allowed, ?_⟩
    unfold process at hrun
    rw [hrun]
    cases result with
    | ok done =>
      show (Counts.oneCompleted, v.emit (.actionCompleted _ (v.clock - w.clock))) = _
      rw [hneeded]
      rfl
    | error e => rfl
  · refine ⟨_, _, _, .cutOff enabled resolved ?_ limited late stopped hinner' times', ?_⟩
    · rw [alone]
      exact needed
    · unfold process at hrun
      rw [hrun]
      rfl

theorem timed_runStep (hp : ∀ p ∈ ex.registry, p.OnTime) (setting : Setting) (scope : Scope World)
    (index : Nat) (a : Action) (w : World) :
    ∃ timing events u, TimedStep ex setting scope index a w timing events u ∧
      (ex.runStep setting scope index a).run World.pass w = (.tally [timing.outcome], u) := by
  rw [runStep_eq]
  cases hresolve : ex.resolve a.type with
  | none =>
    refine ⟨_, _, _, .skipped (.inr hresolve), ?_⟩
    show Task.run World.pass (if _ then _ else _) _ = _
    rw [hresolve, ite_self]
    rfl
  | some p =>
    rw [run_step hresolve]
    split
    · next hdisabled => exact ⟨_, _, _, .skipped (.inl hdisabled), rfl⟩
    · next henabled => exact timed_dispatch hp (Bool.eq_false_iff.2 henabled) hresolve

theorem timed_runSteps (hp : ∀ p ∈ ex.registry, p.OnTime) (setting : Setting) (scope : Scope World)
    (steps : List Action) (index : Nat) (w : World) :
    ∃ timings events u, TimedSteps ex setting scope index steps w timings events u ∧
      (ex.runSteps setting scope index steps).run World.pass w =
        (.tally (timings.map Timing.outcome), u) := by
  induction steps generalizing index w with
  | nil => exact ⟨[], [], w, .nil, rfl⟩
  | cons a rest ih =>
    obtain ⟨timing, events, u, hfirst, hrun⟩ := timed_runStep hp setting scope index a w
    obtain ⟨timings, more, v, hothers, hrest⟩ := ih (index + 1) u
    refine ⟨_, _, v, .cons hfirst hothers, ?_⟩
    refine (Task.run_bind World.pass (ex.runStep setting scope index a) _ w).trans ?_
    rw [hrun]
    refine (Task.run_mapResult World.pass _ (ex.runSteps setting scope (index + 1) rest) u).trans ?_
    rw [hrest]
    exact Prod.ext (Counts.tally_cons _ _).symm rfl

/-! ## The limit in the settings -/

/-- What holds of the time limits that the processors of some steps have of their own. -/
def OwnLimits (ex : Executor) (steps : List Action) (P : Nat → Prop) : Prop :=
  ∀ a ∈ steps, ∀ p, ex.resolve a.type = some p → ∀ own, p.timeout = some own → P own

/-- A step has the limit in the settings, or one of its own. -/
theorem OwnLimits.exists_limit {steps : List Action} {P : Nat → Prop} {L : Nat} {a : Action}
    {p : Processor} (own : ex.OwnLimits steps P) (hL : P L)
    (configured : ex.config.actionTimeout = some L) (mem : a ∈ steps)
    (resolved : ex.resolve a.type = some p) :
    ∃ limit, ex.limitFor p = some limit ∧ P limit := by
  rw [limitFor, configured]
  cases hp : p.timeout with
  | none => exact ⟨L, rfl, hL⟩
  | some limit => exact ⟨limit, rfl, own a mem p resolved limit hp⟩

/-- In an execution of a flow every step comes up, each when the one before it has ended, and goes
as its time limit says. Where a limit is set, each step ends within it, and the flow with `n` steps
within `n` times the limit, if no processor of these steps has a longer one of its own; and no step
that needs no longer is cut off if none of them has a shorter one. -/
theorem steps_end_in_time (ex : Executor) (host : Host) (flow : Flow)
    (caller : Option (Scope World)) (region : Option RegionId) (w : World)
    (hosts : ∀ p ∈ ex.registry, (∃ type, p = Processor.ofBuiltIn type) ∨ p.OnTime) :
    ∃ timings events u,
      TimedSteps ex ⟨host, region, w.freshId.1⟩ (flowScope host caller region) 0 flow.steps
        (w.freshId.2.emit (.flowStarted w.freshId.1 flow.steps.length)) timings events u ∧
      ((ex.execute host flow caller region).run World.pass w).2 =
        u.emit (.flowCompleted w.freshId.1 (.tally (timings.map Timing.outcome))) ∧
      u.events = events ++ (w.clock, .flowStarted w.freshId.1 flow.steps.length) :: w.events ∧
      timings.length = flow.steps.length ∧
      ∀ L, ex.config.actionTimeout = some L →
        (ex.OwnLimits flow.steps (· ≤ L) →
          (∀ timing ∈ timings, timing.ended ≤ timing.began + L) ∧
            ((ex.execute host flow caller region).run World.pass w).2.clock ≤
              w.clock + flow.steps.length * L) ∧
        (ex.OwnLimits flow.steps (L ≤ ·) →
          ∀ timing ∈ timings, timing.needed ≤ L → timing.cut = none) := by
  have hp : ∀ p ∈ ex.registry, p.OnTime := by
    intro p hp
    rcases hosts p hp with ⟨type, rfl⟩ | hp
    · exact Processor.ofBuiltIn_onTime type
    · exact hp
  obtain ⟨timings, events, u, timed, hrun⟩ := timed_runSteps hp ⟨host, region, w.freshId.1⟩
    (flowScope host caller region) flow.steps 0
    (w.freshId.2.emit (.flowStarted w.freshId.1 flow.steps.length))
  have hend : ((ex.execute host flow caller region).run World.pass w).2 =
      u.emit (.flowCompleted w.freshId.1 (.tally (timings.map Timing.outcome))) := by
    show (Task.run World.pass ((ex.runSteps _ _ 0 flow.steps).bind _) _).2 = _
    rw [Task.run_bind, hrun]
    rfl
  refine ⟨timings, events, u, timed, hend, timed.events_eq, timed.length_timings, ?_⟩
  intro L configured
  refine ⟨fun own => ?_, fun own => ?_⟩
  · have bounded : ∀ timing ∈ timings, timing.ended ≤ timing.began + L :=
      timed.forall_timings fun a mem _ _ _ _ _ step =>
        step.ended_le fun _ resolved => own.exists_limit (Nat.le_refl L) configured mem resolved
    rw [hend]
    exact ⟨bounded, timed.clock_le bounded⟩
  · exact timed.forall_timings fun a mem _ _ _ _ _ step =>
      step.cut_eq_none fun _ resolved => own.exists_limit (Nat.le_refl L) configured mem resolved

/-- Two steps whose processors have limits of their own, and a limit of 50 in the settings: the
first step takes 100, and the second one is cut off after 10, though it needs no more than 30. -/
theorem own_limits_override :
    let slow : Processor := .scripted (.ofHostTag "slow") 100 none (some 200)
    let hasty : Processor := .scripted (.ofHostTag "hasty") 30 none (some 10)
    let ex : Executor := ⟨slow :: hasty :: Registry.builtIn,
      { Config.default with actionTimeout := some 50 },
      Registry.missing?_cons (Registry.missing?_cons Registry.missing?_builtIn _) _, rfl⟩
    let first : Action := .simple (.custom "slow" []) none
    let second : Action := .simple (.custom "hasty" []) none
    let w : World := ⟨0, [], [], .ofCapacity 1, [], [], [], 0⟩
    let after (steps : List Action) : World :=
      ((ex.execute (.silent 0) ⟨steps, false⟩ none none).run World.pass w).2
    let alone :=
      ex.leftAlone ⟨.silent 0, none, "id-1"⟩ (flowScope (.silent 0) none none) 1 second hasty
      (after [first])
    (after [first, second]).events =
        [(110, .flowCompleted "id-1" ⟨1, 1, 0⟩),
          (110, .actionFailed ⟨"id-1", "id-3", "hasty", 1⟩ (.timeout 10)),
          (100, .actionStarted ⟨"id-1", "id-3", "hasty", 1⟩),
          (100, .actionCompleted ⟨"id-1", "id-2", "slow", 0⟩ 100),
          (0, .actionStarted ⟨"id-1", "id-2", "slow", 0⟩), (0, .flowStarted "id-1" 2)] ∧
      ¬ 100 ≤ 0 + 50 ∧ ¬ (after [first, second]).clock ≤ 0 + 2 * 50 ∧
      alone.1.isOk ∧ alone.2.clock = 100 + 30 ∧ 30 < 50 := by
  decide +kernel

/-- A step that would take 100 under a limit of 50, and then one that takes 30. -/
theorem steps_end_in_time_host :
    let slow : Processor := .scripted (.ofHostTag "slow") 100 none none
    let hasty : Processor := .scripted (.ofHostTag "hasty") 30 none none
    let ex : Executor := ⟨slow :: hasty :: Registry.builtIn,
      { Config.default with actionTimeout := some 50 },
      Registry.missing?_cons (Registry.missing?_cons Registry.missing?_builtIn _) _, rfl⟩
    let flow : Flow :=
      ⟨[.simple (.custom "slow" []) none, .simple (.custom "hasty" []) none], false⟩
    let w : World := ⟨0, [], [], .ofCapacity 1, [], [], [], 0⟩
    let after := ((ex.execute (.silent 0) flow none none).run World.pass w).2
    (∀ p ∈ ex.registry, (∃ type, p = Processor.ofBuiltIn type) ∨ p.OnTime) ∧
      ex.config.actionTimeout = some 50 ∧ (∀ P, ex.OwnLimits flow.steps P) ∧
      after.events =
        [(80, .flowCompleted "id-1" ⟨1, 1, 0⟩),
          (80, .actionCompleted ⟨"id-1", "id-3", "hasty", 1⟩ 30),
          (50, .actionStarted ⟨"id-1", "id-3", "hasty", 1⟩),
          (50, .actionFailed ⟨"id-1", "id-2", "slow", 0⟩ (.timeout 50)),
          (0, .actionStarted ⟨"id-1", "id-2", "slow", 0⟩), (0, .flowStarted "id-1" 2)] ∧
      after.clock ≤ 0 + 2 * 50 ∧
      ∃ timings : List Timing, timings.length = 2 ∧
        (∀ timing ∈ timings, timing.ended ≤ timing.began + 50) ∧
        ∀ timing ∈ timings, timing.needed ≤ 50 → timing.cut = none := by
  intro slow hasty ex flow w after
  have hosts : ∀ p ∈ ex.registry, (∃ type, p = Processor.ofBuiltIn type) ∨ p.OnTime := by
    intro p hp
    rcases List.mem_cons.1 hp with rfl | hp
    · exact .inr (Processor.scripted_onTime _ 100 none none)
    · rcases List.mem_cons.1 hp with rfl | hp
      · exact .inr (Processor.scripted_onTime _ 30 none none)
      · obtain ⟨type, -, rfl⟩ := List.mem_map.1 hp
        exact .inl ⟨type, rfl⟩
  have own (P : Nat → Prop) : ex.OwnLimits flow.steps P := by
    intro a _ p resolved own declared
    have mem : p ∈ slow :: hasty :: Registry.builtIn := mem_of_resolve resolved
    rcases List.mem_cons.1 mem with rfl | mem
    · cases declared
    · rcases List.mem_cons.1 mem with rfl | mem
      · cases declared
      · obtain ⟨type, -, rfl⟩ := List.mem_map.1 mem
        cases declared
  obtain ⟨timings, events, u, -, -, -, hlength, hlimits⟩ :=
    steps_end_in_time ex (.silent 0) flow none none w hosts
  obtain ⟨hbounded, hcut⟩ := hlimits 50 rfl
  obtain ⟨hends, hclock⟩ := hbounded (own _)
  exact ⟨hosts, rfl, own, by decide +kernel, hclock, timings, hlength, hends, hcut (own _)⟩

end Executor

end StepFlow
