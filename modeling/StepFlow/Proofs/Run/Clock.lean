import StepFlow.Processor.Scripted
import StepFlow.Proofs.Run.Deed

/-!
# Time passes only while a task waits

A task over the world could set the clock, or rewrite what is on the timeline. The processors and
the executor do neither: whatever they do at once is done at one time, and events are only added,
with that time. `Task.OnTime` says so of a task.

Of such a task it is known what a time limit does. Left alone, the task would end at some
time. If this is within the limit, it ends as if there were none; otherwise it is cut off
when the limit has passed.
-/

namespace StepFlow

namespace World

/-- A world is so many milliseconds later than another: events were added to the timeline, each with
a time from one to the other. -/
structure Later (w u : World) (ms : Nat) : Prop where
  clock : u.clock = w.clock + ms
  events : ∃ added, u.events = added ++ w.events ∧
    ∀ entry ∈ added, w.clock ≤ entry.1 ∧ entry.1 ≤ u.clock

namespace Later

variable {w u v : World} {ms span : Nat}

/-- What happens to the rest of the world takes no time. -/
theorem at_once (clock : u.clock = w.clock) (events : u.events = w.events) : Later w u 0 :=
  ⟨clock, [], events, by simp⟩

theorem refl (w : World) : Later w w 0 := at_once rfl rfl

theorem trans (h : Later w u ms) (h' : Later u v span) : Later w v (ms + span) := by
  obtain ⟨clock, added, events, times⟩ := h
  obtain ⟨clock', added', events', times'⟩ := h'
  refine ⟨by omega, added' ++ added, by rw [events', events, List.append_assoc], ?_⟩
  intro entry he
  rcases List.mem_append.1 he with he | he
  · have := times' entry he
    omega
  · have := times entry he
    omega

theorem now (h : Later w u 0) (h' : Later u v ms) : Later w v ms := by
  have both := h.trans h'
  rwa [Nat.zero_add] at both

theorem emit (e : Event) (w : World) : Later w (w.emit e) 0 := by
  refine ⟨rfl, [(w.clock, e)], rfl, ?_⟩
  intro entry he
  rw [List.mem_singleton.1 he]
  exact ⟨Nat.le_refl _, Nat.le_refl _⟩

theorem pass (ms : Nat) (w : World) : Later w (w.pass ms) ms :=
  ⟨rfl, [], rfl, by simp⟩

theorem freshId (w : World) : Later w w.freshId.2 0 := at_once rfl rfl

end Later

end World

namespace Task

variable {α β : Type}

/-- Each time that a task waits, and when it ends, it is still the time at which it went on. -/
inductive OnTime : Task World α → World → Prop
  | ended {t w a u} (stop : t.settle w = .ended a u) (now : w.Later u 0) : OnTime t w
  | waits {t w ms next u} (stop : t.settle w = .waits ms next u) (now : w.Later u 0)
    (rest : OnTime next (u.pass ms)) : OnTime t w

namespace OnTime

variable {t t' : Task World α} {w u : World} {ms : Nat}

theorem pure (a : α) (w : World) : OnTime (pure a) w := .ended rfl (.refl w)

/-- What a task does before it waits or ends may be put otherwise. -/
theorem congr (h : t.OnTime w) (same : t'.settle w = t.settle w) : t'.OnTime w := by
  cases h with
  | ended stop now => exact .ended (same.trans stop) now
  | waits stop now rest => exact .waits (same.trans stop) now rest

/-- What ends at once can be passed over. -/
theorem after {f : α → Task World β} {a : α} (stop : t.settle w = .ended a u) (now : w.Later u 0)
    (h : (f a).OnTime u) : (t.bind f).OnTime w := by
  cases h with
  | ended stop' now' => exact .ended ((settle_bind_of_ended stop).trans stop') (now.now now')
  | waits stop' now' rest =>
    exact .waits ((settle_bind_of_ended stop).trans stop') (now.now now') rest

theorem bind {f : α → Task World β} (h : t.OnTime w) (hf : ∀ a u, (f a).OnTime u) :
    (t.bind f).OnTime w := by
  induction h with
  | ended stop now => exact after stop now (hf _ _)
  | waits stop now _ ih => exact .waits (settle_bind_of_waits stop) now ih

theorem mapResult {f : α → β} (h : t.OnTime w) : (t.mapResult f).OnTime w :=
  h.bind fun a u => .pure (f a) u

theorem limit (h : t.OnTime w) (ms : Nat) : (t.limit ms).OnTime w := by
  induction h generalizing ms with
  | ended stop now => exact .ended (by rw [settle_limit, stop]) now
  | @waits t w span next u stop now _ ih =>
    by_cases hspan : span ≤ ms
    · exact .waits (by simp only [settle_limit, stop, if_pos hspan]) now (ih (ms - span))
    · have cut : (t.limit ms).settle w = .waits ms (.done none) u := by
        simp only [settle_limit, stop, if_neg hspan]
      exact .waits cut now (.pure none _)

theorem run (h : t.OnTime w) : ∃ ms, w.Later (t.run World.pass w).2 ms := by
  induction h with
  | ended stop now =>
    rw [run_of_settle, stop]
    exact ⟨0, now⟩
  | @waits t w span next u stop now _ ih =>
    obtain ⟨rest, later⟩ := ih
    rw [run_of_settle, stop]
    exact ⟨span + rest, now.now ((World.Later.pass span u).trans later)⟩

/-- A task that ends within a time limit ends as it does without. -/
theorem run_limit_of_le (h : t.OnTime w) (ms : Nat)
    (inTime : (t.run World.pass w).2.clock ≤ w.clock + ms) :
    (t.limit ms).run World.pass w =
      (some (t.run World.pass w).1, (t.run World.pass w).2) := by
  induction h generalizing ms with
  | ended stop now => simp only [run_of_settle, settle_limit, stop]
  | @waits t w span next u stop now rest ih =>
    obtain ⟨more, later⟩ := rest.run
    have passed := later.clock
    have start := now.clock
    rw [run_of_settle World.pass t, stop] at inTime ⊢
    simp only [World.pass] at passed start inTime ⊢
    have hspan : span ≤ ms := by omega
    simp only [run_of_settle World.pass (t.limit ms), settle_limit, stop, if_pos hspan]
    exact ih (ms - span) (by simp only [World.pass]; omega)

/-- A task that would end later than a time limit allows is cut off when the limit has passed. -/
theorem run_limit_of_lt (h : t.OnTime w) (ms : Nat)
    (late : w.clock + ms < (t.run World.pass w).2.clock) :
    ∃ u, (t.limit ms).run World.pass w = (none, u) ∧ w.Later u ms := by
  induction h generalizing ms with
  | ended stop now =>
    have start := now.clock
    rw [run_of_settle, stop] at late
    dsimp only at late
    omega
  | @waits t w span next u stop now rest ih =>
    have start := now.clock
    rw [run_of_settle World.pass t, stop] at late
    dsimp only at late
    by_cases hspan : span ≤ ms
    · have later := World.Later.pass span u
      obtain ⟨v, cut, rest⟩ := ih (ms - span) (by have := later.clock; omega)
      refine ⟨v, ?_, ?_⟩
      · simp only [run_of_settle World.pass (t.limit ms), settle_limit, stop, if_pos hspan, cut]
      · have whole := now.now (later.trans rest)
        rwa [Nat.add_sub_cancel' hspan] at whole
    · refine ⟨u.pass ms, ?_, now.now (.pass ms u)⟩
      simp only [run_of_settle World.pass (t.limit ms), settle_limit, stop, if_neg hspan]
      rfl

end OnTime

end Task

/-! ## Processors -/

/-- A processor does whatever it does at the time that it is, and waits in between. -/
def Processor.OnTime (p : Processor) : Prop := ∀ inv a w, Task.OnTime (p.run inv a).run w

theorem Deed.onTime (host : Host) (w : World) (deed : Deed) : (deed.run host).OnTime w := by
  cases deed with
  | nothing => exact .pure _ w
  | modify id change => exact .ended rfl (.at_once rfl rfl)
  | call object method args =>
    have stop := settle_run_call host w object method args
    cases hcall : w.objects.call host.methods w.clock object method args with
    | ok result =>
      rw [hcall] at stop
      exact .ended stop (.at_once rfl rfl)
    | error e =>
      rw [hcall] at stop
      exact .ended stop (.refl w)
  | post m => exact .ended rfl (.at_once rfl rfl)
  | rest ms => exact .waits rfl (.refl w) (.pure _ _)
  | hand e answered =>
    exact .waits (settle_run_hand host w e answered) (.at_once rfl rfl) (.pure _ _)

namespace Processor

theorem carryOut_onTime (inv : Invocation) (a : Action) (w : World) :
    Task.OnTime (carryOut inv a).run w := by
  have stop := Deed.settle_carryOut inv w a
  cases hdeed : Deed.of? inv w a with
  | ok deed =>
    rw [hdeed] at stop
    exact (deed.onTime inv.host w).congr stop
  | error e =>
    rw [hdeed] at stop
    exact .ended stop (.refl w)

theorem ofBuiltIn_onTime (type : BuiltIn) : (ofBuiltIn type).OnTime := by
  intro inv a w
  show Task.OnTime (ExceptT.run (if _ then _ else _)) w
  split
  · exact .pure _ w
  · split
    · exact carryOut_onTime inv a w
    · exact .pure _ w

theorem scripted_onTime (type : ActionType) (waitMs : Nat) (failure : Option String)
    (timeout : Option Nat) : (scripted type waitMs failure timeout).OnTime := by
  intro inv a w
  dsimp only [scripted]
  split
  · refine .waits rfl (.at_once rfl rfl) ?_
    cases failure <;> exact .pure _ _
  · exact .pure _ w

end Processor

end StepFlow
