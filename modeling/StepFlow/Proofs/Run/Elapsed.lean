import Mathlib.Algebra.Ring.Int.Defs
import StepFlow.Proofs.Run.Course

/-!
# Time passes in delays

A host that answers at once leaves only one thing for a built-in step to wait for: the end of its
delay. So a run of built-in steps without time limits takes as long as the delays in it that are
executed, in its own flow or in one inside, and each executed step begins when the delays of
those before it are over.

How long a delay is depends on the world in which it begins. `Executor.Spends` therefore follows the
run from step to step, with the course of the steps and the times at which they begin.
-/

namespace StepFlow

/-- The host answers every effect at once. -/
def Host.Prompt (host : Host) : Prop := ∀ before e, (host.perform before e).wait = 0

/-- The duration that a delay asks for in a world: what its field evaluates to there, or zero if
that cannot be used. Other steps ask for none. -/
def Action.duration? (inv : Invocation) (w : World) : Action → Option Int
  | .simple (.delay duration) _ =>
    match (duration.evaluate (inv.bindings w) : Option (IntKind.Carrier .signed64)) with
    | some n => some n.val
    | none => some 0
  | _ => none

theorem Action.duration?_eq_none {a : Action}
    (idle : a.type = .builtIn .noop ∨ a.type.isCustom = true)
    (inv : Invocation) (w : World) : a.duration? inv w = none := by
  cases a with
  | simple o c =>
    cases o with
    | delay duration => rcases idle with idle | idle <;> cases idle
    | _ => rfl
  | modal kind view onResult c => rfl
  | request source onSuccess onError c => rfl

/-! ## How long a step works by itself -/

namespace Deed

/-- How long a deed takes, where the host answers at once. -/
def span : Deed → Nat
  | .rest ms => ms
  | _ => 0

theorem clock_run {host : Host} (prompt : host.Prompt) (deed : Deed) (w : World) :
    ((deed.run host).run World.pass w).2.clock = w.clock + deed.span := by
  cases deed with
  | call object method args =>
    rw [Task.run_of_settle, settle_run_call]
    cases w.objects.call host.methods w.clock object method args <;> rfl
  | hand e answered =>
    rw [Task.run_of_settle, settle_run_hand, prompt w.performed e]
    rfl
  | nothing | modify | post | rest => rfl

/-- A delay takes as long as it asks for, but no time if that is negative; other steps take none. -/
theorem span_of (inv : Invocation) (w : World) (a : Action) :
    (of inv w a).span = ((a.duration? inv w).getD 0).toNat := by
  have atOnce (h : Finds (fun deed => deed.span = 0) (of? inv w a)) :
      (of inv w a).span = 0 := h.of rfl
  cases a with
  | simple o c =>
    cases o with
    | delay duration =>
      have found : (of inv w (.simple (.delay duration) c)).span =
          Processor.delayMillis (duration.evaluate (inv.bindings w)) := rfl
      rw [found, Action.duration?]
      cases (duration.evaluate (inv.bindings w) : Option (IntKind.Carrier .signed64)) <;> rfl
    | controlObject => exact atOnce (.bind fun _ => .bind fun _ => .bind fun _ => .pure rfl)
    | navigateBack | setAppState | noop | custom => rfl
    | _ => exact atOnce (.bind fun _ => .pure rfl)
  | modal kind view onResult c => exact atOnce (.bind fun _ => .pure rfl)
  | request source onSuccess onError c => exact atOnce (.bind fun _ => .pure rfl)

end Deed

namespace Processor

theorem clock_carryOut {inv : Invocation} (prompt : inv.host.Prompt) (a : Action) (w : World) :
    ((carryOut inv a).run.run World.pass w).2.clock = w.clock + (Deed.of inv w a).span := by
  rw [Task.run_of_settle, Deed.settle_carryOut, Deed.of]
  cases Deed.of? inv w a with
  | error e => rfl
  | ok deed =>
    have worked := deed.clock_run prompt w
    rwa [Task.run_of_settle] at worked

/-- A delay that a built-in processor carries out never fails. -/
theorem result_carryOut_delay (inv : Invocation) {a : Action} {w : World}
    (delay : a.duration? inv w ≠ none) :
    ((carryOut inv a).run.run World.pass w).1 = .ok none := by
  cases a with
  | simple o c =>
    cases o with
    | delay duration => rfl
    | _ => exact absurd rfl delay
  | modal kind view onResult c => exact absurd rfl delay
  | request source onSuccess onError c => exact absurd rfl delay

end Processor

namespace Executed

/-- The duration that a delay asks for when its processor begins. -/
def duration? (e : Executed) : Option Int := e.action.duration? e.invocation e.world

/-- How long the step waits: as long as it asks for, and no time if that is negative. -/
def pause (e : Executed) : Nat := (e.duration?.getD 0).toNat

/-- From one time to another each step begins when the pauses of those before it are over. -/
inductive Scheduled : Nat → List Executed → Nat → Prop
  | rest (time) : Scheduled time [] time
  | step {e executed time last} (begins : e.world.clock = time)
    (rest : Scheduled (time + e.pause) executed last) : Scheduled time (e :: executed) last

/-- The delays among some steps, those that are negative counting as nothing, added up. -/
def delays (executed : List Executed) : Int := ((executed.filterMap duration?).map (max 0)).sum

theorem delays_cons (e : Executed) (executed : List Executed) :
    delays (e :: executed) = e.pause + delays executed := by
  rw [delays, List.filterMap_cons, pause]
  cases e.duration? with
  | none => simp [delays]
  | some d =>
    simp only [delays, List.map_cons, List.sum_cons, Option.getD_some]
    omega

namespace Scheduled

variable {executed executed' before after : List Executed} {e : Executed} {time middle last : Nat}

theorem append (h : Scheduled time executed middle) (h' : Scheduled middle executed' last) :
    Scheduled time (executed ++ executed') last := by
  induction h with
  | rest => exact h'
  | step begins _ ih => exact .step begins (ih h')

/-- The pauses add up. -/
theorem elapsed (h : Scheduled time executed last) : (last : Int) = time + delays executed := by
  induction h with
  | rest => exact (Int.add_zero _).symm
  | step _ _ ih =>
    rw [ih, delays_cons]
    omega

/-- A step begins when the pauses before it are over. -/
theorem begins (h : Scheduled time (before ++ e :: after) last) :
    (e.world.clock : Int) = time + delays before := by
  induction before generalizing time with
  | nil =>
    cases h with
    | step begins _ => exact (congrArg Nat.cast begins).trans (Int.add_zero _).symm
  | cons first before ih =>
    cases h with
    | step _ rest =>
      rw [ih rest, delays_cons]
      omega

end Scheduled

end Executed

/-! ## How long a run takes -/

namespace Executor

variable {ex : Executor} {setting : Setting} {outer l : Level}

/-- From one world to another the time goes by in the steps that are executed on the way. -/
def Spends (ex : Executor) (setting : Setting) (outer : Level) (u v : World) : Prop :=
  ∃ executed, ex.Course setting outer u executed v ∧ Executed.Scheduled u.clock executed v.clock

namespace Spends

variable {u v v' : World}

theorem of_still (still : u.Still v) (clock : v.clock = u.clock) : ex.Spends setting outer u v :=
  ⟨[], .rest still, clock ▸ .rest u.clock⟩

theorem refl (w : World) : ex.Spends setting outer w w := of_still (World.Still.refl w) rfl

theorem trans (h : ex.Spends setting outer u v) (h' : ex.Spends setting outer v v') :
    ex.Spends setting outer u v' := by
  obtain ⟨executed, course, times⟩ := h
  obtain ⟨executed', course', times'⟩ := h'
  exact ⟨executed ++ executed', course.trans course', times.append times'⟩

theorem emit (h : ex.Spends setting outer u v) {e : Event} (other : e.startedStep? = none) :
    ex.Spends setting outer u (v.emit e) :=
  h.trans (of_still (World.Still.emit other v) rfl)

end Spends

/-- Every step that is handed to a processor on the way is handed to a built-in one,
without a time limit. -/
structure Unhurried (ex : Executor) (setting : Setting) (outer : Level) : Prop where
  builtIn : ∀ l index a p, ex.Enters setting outer l → ex.Hands setting l index a p →
    ∃ type, p = Processor.ofBuiltIn type
  unlimited : ex.config.actionTimeout = none
  prompt : setting.host.Prompt

/-- A built-in processor works as long as the pause of the step. -/
theorem clock_builtIn {a : Action} {type : BuiltIn}
    (resolved : ex.resolve a.type = some (.ofBuiltIn type))
    {inv : Invocation} (prompt : inv.host.Prompt) (w : World) :
    (((Processor.ofBuiltIn type).run inv a).run.run World.pass w).2.clock =
      w.clock + (Deed.of inv w a).span := by
  rcases run_builtIn_cases resolved inv with carried | ⟨nothing, idle⟩
  · rw [carried]
    exact Processor.clock_carryOut prompt a w
  · rw [nothing, Deed.of_eq_nothing idle]
    rfl

/-- The own work of a step, and then the flow in it. -/
theorem spends_attempt {e : Executed} {type : BuiltIn} {u : World}
    {nested : Slot → Scope World → Task World Unit} (executes : ex.Executes setting outer e)
    (resolved : ex.resolve e.action.type = some (.ofBuiltIn type)) (begins : e.Begins u)
    (clock : e.world.clock = u.clock) (prompt : e.invocation.host.Prompt)
    (hnested : ∀ launch v,
      ((Processor.ofBuiltIn type).run e.invocation e.action).run.run World.pass e.world =
      (.ok (some launch), v) →
        ex.Spends setting outer v
          ((nested launch.slot (e.invocation.scope.extend launch.bound)).run World.pass v).2) :
    ex.Spends setting outer u
      ((attempt e.invocation (.ofBuiltIn type) e.action nested).run World.pass e.world).2 := by
  have worked := clock_builtIn resolved prompt e.world
  have ended :
      (((Processor.ofBuiltIn type).run e.invocation e.action).run.run World.pass e.world).2 ∈
      ((Processor.ofBuiltIn type).run e.invocation e.action).run.moments World.pass e.world :=
    List.mem_of_getLast? (Task.getLast?_moments _ _)
  have done := done_builtIn resolved e.invocation e.world _ ended
  rw [attempt, Task.run_bind]
  rcases outcome : ((Processor.ofBuiltIn type).run e.invocation e.action).run.run World.pass e.world
    with ⟨result, v⟩
  rw [outcome] at worked done
  have here : ex.Spends setting outer u v := by
    have paused : v.clock = u.clock + e.pause := by
      rw [worked, clock, Deed.span_of]
      rfl
    exact ⟨[e], .step executes begins done (.rest (World.Still.refl v)),
      .step clock (paused ▸ .rest _)⟩
  cases result with
  | error error => exact here
  | ok launched =>
    cases launched with
    | none => exact here
    | some launch =>
      have inside := hnested launch v outcome
      rw [Task.run_mapResult]
      exact here.trans inside

/-- After an attempt without a time limit there is only a report of how it came out. -/
theorem run_dispatch_unlimited {p : Processor} (unlimited : ex.limitFor p = none) (inv : Invocation)
    (step : StepRef) (a : Action) (nested : Slot → Scope World → Task World Unit) (w : World) :
    ∃ report : Event, report.startedStep? = none ∧
      ((ex.dispatch inv p step a nested).run World.pass w).2 =
        ((attempt inv p a nested).run World.pass (w.emit (.actionStarted step))).2.emit report := by
  rw [run_dispatch, unlimited, within]
  rcases (attempt inv p a nested).run World.pass (w.emit (.actionStarted step)) with ⟨result, u⟩
  cases result with
  | ok done => exact ⟨_, rfl, rfl⟩
  | error e => exact ⟨_, rfl, rfl⟩

theorem spends_step (unhurried : ex.Unhurried setting outer) (entered : ex.Enters setting outer l)
    {index : Nat} {a : Action} (step : l.steps[index]? = some a)
    {nested : Slot → Scope World → Task World Unit}
    (hnested : ∀ p launch v, ex.Hands setting l index a p →
      ex.work setting l index a p = (.ok (some launch), v) →
      ex.Spends setting outer v
        ((nested launch.slot (l.scope.extend launch.bound)).run World.pass v).2) :
    ex.Spends setting outer (ex.worldAt setting l index)
      ((ex.step setting l.scope index a nested).run World.pass (ex.worldAt setting l index)).2 := by
  have fresh := World.Still.freshId (ex.worldAt setting l index)
  cases resolved : ex.resolve a.type with
  | none =>
    have skipped :
        ((ex.step setting l.scope index a nested).run World.pass (ex.worldAt setting l index)).2 =
        (ex.worldAt setting l index).freshId.2.emit
          (.actionSkipped (nameOf setting index a (ex.worldAt setting l index))) := by
      show (Task.run World.pass (if _ then _ else _) _).2 = _
      rw [resolved]
      split <;> rfl
    rw [skipped]
    exact .of_still (fresh.trans (World.Still.emit rfl _)) rfl
  | some p =>
    rw [run_step resolved]
    cases disabled : a.isDisabled (l.scope.lookup (ex.worldAt setting l index).freshId.2) with
    | true => exact .of_still (fresh.trans (World.Still.emit rfl _)) rfl
    | false =>
      have hands : ex.Hands setting l index a p := ⟨step, disabled, resolved⟩
      obtain ⟨type, rfl⟩ := unhurried.builtIn l index a p entered hands
      have attempted := spends_attempt
        (e := ⟨index, a, invocation setting l.scope (ex.worldAt setting l index),
          started setting index a (ex.worldAt setting l index)⟩)
        ⟨l, _, entered, hands, rfl, rfl⟩
        resolved (.of_still fresh (.of_emit rfl)) rfl unhurried.prompt
        fun launch v outcome => hnested _ launch v hands outcome
      have unlimited : ex.limitFor (.ofBuiltIn type) = none := unhurried.unlimited
      obtain ⟨report, other, ended⟩ :=
        run_dispatch_unlimited unlimited _ (nameOf setting index a _) a nested
        (ex.worldAt setting l index).freshId.2
      rw [if_neg Bool.false_ne_true]
      exact ended ▸ attempted.emit other

/-- The steps of a level are executed from the world in which the first of them comes up. -/
theorem spends_runSteps (unhurried : ex.Unhurried setting outer)
    (entered : ex.Enters setting outer l) :
    ex.Spends setting outer l.world
      ((ex.runSteps setting l.scope 0 l.steps).run World.pass l.world).2 := by
  refine entered.steps_induction (P := fun l index rest =>
    ex.Spends setting outer (ex.worldAt setting l index)
      ((ex.runSteps setting l.scope index rest).run World.pass
        (ex.worldAt setting l index)).2) ?_ ?_
  · intro l index _
    exact .refl _
  · intro l index a rest entered step flows others
    have first : ex.Spends setting outer (ex.worldAt setting l index)
        (ex.worldAt setting l (index + 1)) := by
      rw [worldAt_succ step, runStep_eq]
      apply spends_step unhurried entered step
      intro p launch v hands work
      rw [runNested_eq]
      cases owned : a.flowIn launch.slot with
      | none => exact .refl v
      | some flow =>
        rw [Task.run_mapResult]
        exact flows p launch flow v hands work owned
    rw [runSteps_cons, Task.run_bind, Task.run_mapResult, ← worldAt_succ step]
    exact first.trans others

theorem spends_execute {host : Host} {flow : Flow} {caller : Option (Scope World)}
    {region : Option RegionId} {w : World}
    (unhurried : ex.Unhurried ⟨host, region, w.freshId.1⟩ (topLevel host flow caller region w)) :
    ex.Spends ⟨host, region, w.freshId.1⟩ (topLevel host flow caller region w) w
      ((ex.execute host flow caller region).run World.pass w).2 := by
  have begins : w.Still (begun flow.steps.length w) :=
    (World.Still.freshId w).trans (World.Still.emit rfl _)
  have steps := spends_runSteps unhurried .refl
  have whole := (Spends.of_still begins rfl).trans steps
  have ended : ((ex.execute host flow caller region).run World.pass w).2 =
      ((ex.runSteps ⟨host, region, w.freshId.1⟩ (flowScope host caller region) 0 flow.steps).run
        World.pass (begun flow.steps.length w)).2.emit (.flowCompleted w.freshId.1
          ((ex.runSteps ⟨host, region, w.freshId.1⟩ (flowScope host caller region) 0 flow.steps).run
            World.pass (begun flow.steps.length w)).1) :=
    congrArg Prod.snd (Task.run_bind World.pass
      (ex.runSteps ⟨host, region, w.freshId.1⟩ (flowScope host caller region) 0 flow.steps) _
      (begun flow.steps.length w))
  rw [ended]
  exact whole.emit rfl

/-- What an executed step does by itself takes as long as its pause, and a step
that fails is no delay. -/
theorem Executes.takes {e : Executed} (h : ex.Executes setting outer e)
    (unhurried : ex.Unhurried setting outer) :
    ∃ p result u, ex.resolve e.action.type = some p ∧
      (p.run e.invocation e.action).run.run World.pass e.world = (result, u) ∧
      u.clock = e.world.clock + e.pause ∧ (e.duration? ≠ none → result = .ok none) := by
  obtain ⟨l, p, entered, hands, invocation, world⟩ := h
  obtain ⟨type, rfl⟩ := unhurried.builtIn l e.index e.action p entered hands
  have prompt : e.invocation.host.Prompt := by
    rw [invocation]
    exact unhurried.prompt
  refine ⟨_, _, _, hands.resolved, rfl, ?_, ?_⟩
  · rw [clock_builtIn hands.resolved prompt, Deed.span_of]
    rfl
  · intro delay
    rcases run_builtIn_cases hands.resolved e.invocation with carried | ⟨-, idle⟩
    · rw [carried]
      exact Processor.result_carryOut_delay e.invocation delay
    · exact absurd (Action.duration?_eq_none idle e.invocation e.world) delay

/-- Where no step has a time limit, the host answers at once, and every step of the flow, in the
flow itself or in one inside it, is left to a built-in processor or to none, a run of the flow takes
exactly as long as the delays that are executed. They are among the steps that are started, each of
which is executed on the level that it stands in. A delay counts with its duration in the world in
which it begins, or with nothing if that is negative or cannot be used; each step begins when the
delays of the steps before it are over, and by itself takes no longer than its own delay. A step
that fails is no delay, and takes no time. -/
theorem time_passes_in_delays (ex : Executor) (host : Host) (flow : Flow)
    (caller : Option (Scope World)) (region : Option RegionId) (w : World)
    (builtIn : ∀ a, flow.Holds a → ∀ p, ex.resolve a.type = some p →
      ∃ type, p = Processor.ofBuiltIn type)
    (unlimited : ex.config.actionTimeout = none) (prompt : host.Prompt) :
    let v : World := ((ex.execute host flow caller region).run World.pass w).2
    ∃ executed, ex.Course ⟨host, region, w.freshId.1⟩ (topLevel host flow caller region w)
      w executed v ∧
      v.startedSteps = w.startedSteps ++ executed.map Executed.name ∧
      (v.clock : Int) = w.clock + ((executed.filterMap Executed.duration?).map (max 0)).sum ∧
      (∀ before e after, executed = before ++ e :: after →
        (e.world.clock : Int) = w.clock + ((before.filterMap Executed.duration?).map (max 0)).sum) ∧
      ∀ e ∈ executed, ∃ p result u, ex.resolve e.action.type = some p ∧
        (p.run e.invocation e.action).run.run World.pass e.world = (result, u) ∧
        (u.clock : Int) = e.world.clock + max 0 (e.duration?.getD 0) ∧
        (∀ error, result = .error error → e.duration? = none) := by
  intro v
  have unhurried : ex.Unhurried ⟨host, region, w.freshId.1⟩
      (topLevel host flow caller region w) := by
    refine ⟨?_, unlimited, prompt⟩
    intro l index a p entered hands
    exact builtIn a (entered.holds rfl (List.mem_of_getElem? hands.step)) p hands.resolved
  obtain ⟨executed, course, times⟩ := spends_execute unhurried
  refine ⟨executed, course, course.startedSteps, times.elapsed, ?_, ?_⟩
  · rintro before e after rfl
    exact times.begins
  · intro e mem
    obtain ⟨p, result, u, resolved, worked, clock, done⟩ := (course.executes mem).takes unhurried
    refine ⟨p, result, u, resolved, worked, ?_, ?_⟩
    · rw [clock, Executed.pause]
      omega
    · rintro error rfl
      by_contra delay
      cases done delay

/-- The duration is looked up in the region, which the flow of a dialog changes. A negative duration
and one that cannot be used count for nothing, like the delay that is disabled, the step that fails,
and the flow for errors of a request that succeeds. -/
theorem time_passes_in_delays_dialog :
    let ex : Executor := ⟨Registry.builtIn, .default, Registry.missing?_builtIn, rfl⟩
    let delay (duration : ExprOr (.int .signed64)) : Action := .simple (.delay duration) none
    let answered : Flow := ⟨[.simple (.setState none [⟨"wait", .ofNat 50⟩] true) none,
      delay (.expression "wait"), delay (.literal ⟨-5, by decide⟩)], false⟩
    let right : Flow := ⟨[delay (.literal ⟨7, by decide⟩)], false⟩
    let wrong : Flow := ⟨[delay (.literal ⟨900, by decide⟩)], false⟩
    let flow : Flow := ⟨[delay (.expression "wait"),
      .modal .dialog ⟨.literal "ask", .null, true⟩ (some answered) none, delay (.expression "wait"),
      delay (.unresolved (.string "soon")),
      .simple (.delay (.literal ⟨1000, by decide⟩)) (some (.literal true)),
      .simple (.showToast (.unresolved .null) none) none,
      .request ⟨none, .literal "https://a", .null, .null⟩ (some right) (some wrong) none], false⟩
    let w : World :=
      ⟨10, [Region.make "page" none [("wait", .ofNat 30)]], [], .ofCapacity 1, [], [], [], 0⟩
    let v : World := ((ex.execute (.silent 0) flow none (some 0)).run World.pass w).2
    (∀ a, flow.Holds a → ∀ p, ex.resolve a.type = some p → ∃ type, p = Processor.ofBuiltIn type) ∧
      ex.config.actionTimeout = none ∧ (Host.silent 0).Prompt ∧
        v.clock = 10 + (30 + 50 + 0 + 50 + 0 + 7) ∧
      ∃ executed : List Executed, executed.map Executed.name = [⟨"id-1", "id-2", "delay", 0⟩,
          ⟨"id-1", "id-3", "showDialog", 1⟩, ⟨"id-1", "id-4", "setState", 0⟩,
          ⟨"id-1", "id-5", "delay", 1⟩, ⟨"id-1", "id-6", "delay", 2⟩, ⟨"id-1", "id-7", "delay", 2⟩,
          ⟨"id-1", "id-8", "delay", 3⟩, ⟨"id-1", "id-10", "showToast", 5⟩,
          ⟨"id-1", "id-11", "callRestApi", 6⟩, ⟨"id-1", "id-12", "delay", 0⟩] ∧
        (v.clock : Int) = 10 + ((executed.filterMap Executed.duration?).map (max 0)).sum := by
  intro ex delay answered right wrong flow w v
  have builtIn : ∀ a, flow.Holds a → ∀ p, ex.resolve a.type = some p →
      ∃ type, p = Processor.ofBuiltIn type := by
    intro a _ p resolved
    obtain ⟨type, -, same⟩ := List.mem_map.1 (mem_of_resolve resolved)
    exact ⟨type, same.symm⟩
  have prompt : (Host.silent 0).Prompt := fun _ _ => rfl
  obtain ⟨executed, -, started, clock, -⟩ :=
    time_passes_in_delays ex (.silent 0) flow none (some 0) w builtIn rfl prompt
  refine ⟨builtIn, rfl, prompt, by decide +kernel, executed, ?_, clock⟩
  rw [← List.nil_append (executed.map _)]
  exact started.symm.trans (by decide +kernel)

end Executor

end StepFlow
