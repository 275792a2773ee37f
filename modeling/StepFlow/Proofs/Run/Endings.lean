import StepFlow.Proofs.Run.Dispatch
import StepFlow.Proofs.Run.Execution

/-!
# Starts and ends of steps

Every step that is started ends once, after its start and before its execution ends, with one
exception. A time limit on a step that has launched a flow cuts that flow off where it waits; the
steps that wait there have been started, and nothing more is heard of them.

Two things are seen of the segments that make up an execution. No first part of one has more
ends of a step than starts of it; as the identifiers of steps are all different, no step ends
before it starts or ends twice. And after each start there is the end of the same step, or the
failure of a step around it.
-/

namespace StepFlow

namespace Event

/-- The identifier of the step whose end is reported. -/
def ended? : Event → Option String
  | .actionCompleted step _ | .actionFailed step _ => some step.actionId
  | _ => none

def starts (id : String) (events : List Event) : Nat := (events.filterMap started?).count id

def ends (id : String) (events : List Event) : Nat := (events.filterMap ended?).count id

variable {id : String} {e : Event} {step : StepRef} {x y events : List Event}

@[simp] theorem starts_append : starts id (x ++ y) = starts id x + starts id y := by
  rw [starts, List.filterMap_append, List.count_append]
  rfl

@[simp] theorem ends_append : ends id (x ++ y) = ends id x + ends id y := by
  rw [ends, List.filterMap_append, List.count_append]
  rfl

theorem ends_cons_of_none (h : e.ended? = none) : ends id (e :: x) = ends id x := by
  rw [ends, List.filterMap_cons_none h, ends]

/-! ## Ends follow on starts -/

/-- No first part of the events has more ends of a step than starts of it. -/
def EndsFollow (events : List Event) : Prop :=
  ∀ id first, first <+: events → ends id first ≤ starts id first

namespace EndsFollow

theorem nil : EndsFollow [] := by
  intro id first h
  rw [List.prefix_nil.1 h]
  exact Nat.zero_le _

theorem inert (h : e.ended? = none) : EndsFollow [e] := by
  intro id first hfirst
  rcases List.prefix_cons_iff.1 hfirst with rfl | ⟨rest, rfl, hrest⟩
  · exact Nat.zero_le _
  · rw [List.prefix_nil.1 hrest, ends_cons_of_none h]
    exact Nat.zero_le _

theorem cut (h : EndsFollow events) {first : List Event} (hfirst : first <+: events) :
    EndsFollow first :=
  fun id part hpart => h id part (hpart.trans hfirst)

theorem append (hx : EndsFollow x) (hy : EndsFollow y) : EndsFollow (x ++ y) := by
  rintro id first ⟨others, hsplit⟩
  rcases List.append_eq_append_iff.1 hsplit with ⟨part, hpart, -⟩ | ⟨part, rfl, hpart⟩
  · exact hx id first ⟨part, hpart.symm⟩
  · rw [ends_append, starts_append]
    exact Nat.add_le_add (hx id x List.prefix_rfl) (hy id part ⟨others, hpart.symm⟩)

/-- Around events of which that holds there may be the start and the end of one step. -/
theorem enclosed (h : EndsFollow events) (hended : e.ended? = some step.actionId) :
    EndsFollow (.actionStarted step :: events ++ [e]) := by
  have hone (id : String) : ends id [e] = starts id [.actionStarted step] := by
    rw [ends, List.filterMap_cons_some hended]
    rfl
  intro id first hfirst
  rw [List.cons_append] at hfirst
  rcases List.prefix_cons_iff.1 hfirst with rfl | ⟨rest, rfl, others, hsplit⟩
  · exact Nat.zero_le _
  · rw [ends_cons_of_none rfl, ← List.singleton_append, starts_append]
    rcases List.append_eq_append_iff.1 hsplit with ⟨part, hpart, -⟩ | ⟨part, rfl, hpart⟩
    · exact Nat.le_trans (h id rest ⟨part, hpart.symm⟩) (Nat.le_add_left _ _)
    · have hinner := h id events List.prefix_rfl
      have hpart : ends id part ≤ ends id [e] := by
        rw [hpart, ends_append]
        exact Nat.le_add_right _ _
      rw [ends_append, starts_append]
      have := hone id
      omega

end EndsFollow

end Event

/-! ## Starts are answered -/

/-- A member of an append is in the first part or in the second one. -/
theorem split_append {x y before after : List Event} {e : Event}
    (h : x ++ y = before ++ e :: after) :
    (∃ rest, x = before ++ e :: rest ∧ after = rest ++ y) ∨
      ∃ rest, before = x ++ rest ∧ y = rest ++ e :: after := by
  rcases List.append_eq_append_iff.1 h with ⟨part, hpart, hrest⟩ | ⟨part, hpart, hrest⟩
  · exact .inr ⟨part, hpart, hrest⟩
  · cases part with
    | nil =>
      rw [List.append_nil] at hpart
      exact .inr ⟨[], by rw [hpart, List.append_nil], hrest.symm⟩
    | cons first rest =>
      obtain ⟨rfl, rfl⟩ := List.cons.inj hrest
      exact .inl ⟨rest, hpart, rfl⟩

/-- A step around others was cut off: a step with flows of its own, of a type with a time limit,
that was started before and fails for want of time after. -/
def CutOff (terms : Terms) (held : Action → Prop) (before after : List Event) : Prop :=
  ∃ (outer : StepRef) (a : Action) (ms : Nat), .actionStarted outer ∈ before ∧
    .actionFailed outer (.timeout ms) ∈ after ∧ outer.actionType = a.type.name ∧
    held a ∧ a.nested ≠ [] ∧ terms a.type = some (some ms)

variable {terms : Terms} {held : Action → Prop}

theorem CutOff.mono {before after before' after' : List Event} (h : CutOff terms held before after)
    (hbefore : before ⊆ before') (hafter : after ⊆ after') : CutOff terms held before' after' := by
  obtain ⟨outer, a, ms, hstarted, hfailed, ha⟩ := h
  exact ⟨outer, a, ms, hbefore hstarted, hafter hfailed, ha⟩

/-- The step of a start ends after it, unless it was cut off. -/
def AnsweredAt (terms : Terms) (held : Action → Prop) (step : StepRef) (before after : List Event) :
    Prop :=
  step.actionId ∈ after.filterMap Event.ended? ∨ CutOff terms held before after

theorem AnsweredAt.within {step : StepRef} {before after : List Event}
    (h : AnsweredAt terms held step before after) (first last : List Event) :
    AnsweredAt terms held step (first ++ before) (after ++ last) := by
  rcases h with hended | hcut
  · left
    rw [List.filterMap_append]
    exact List.mem_append_left _ hended
  · exact .inr (hcut.mono (List.subset_append_right _ _) (List.subset_append_left _ _))

/-- Each start is answered: after it there is the end of the same step, or a step
around it is cut off. -/
def Answered (terms : Terms) (held : Action → Prop) (events : List Event) : Prop :=
  ∀ before step after, events = before ++ .actionStarted step :: after →
    AnsweredAt terms held step before after

namespace Answered

variable {x y events : List Event} {e : Event} {step : StepRef}

theorem nil : Answered terms held [] := by
  intro before step after h
  cases before <;> cases h

theorem inert (h : e.started? = none) : Answered terms held [e] := by
  intro before step after hsplit
  have hmem : .actionStarted step ∈ [e] := by
    rw [hsplit]
    exact List.mem_append_right _ List.mem_cons_self
  rw [← List.mem_singleton.1 hmem] at h
  cases h

theorem append (hx : Answered terms held x) (hy : Answered terms held y) :
    Answered terms held (x ++ y) := by
  intro before step after hsplit
  rcases split_append hsplit with ⟨rest, hpart, rfl⟩ | ⟨rest, rfl, hpart⟩
  · exact (hx _ _ _ hpart).within [] y
  · have h := (hy _ _ _ hpart).within x []
    rwa [List.append_nil] at h

/-- The start and the end of a step around events. -/
theorem enclosed (hended : e.ended? = some step.actionId) (hstarted : e.started? = none)
    (h : ∀ before step' after, events = before ++ .actionStarted step' :: after →
      AnsweredAt terms held step' (.actionStarted step :: before) (after ++ [e])) :
    Answered terms held (.actionStarted step :: events ++ [e]) := by
  intro before step' after hsplit
  rcases split_append hsplit with ⟨rest, hpart, rfl⟩ | ⟨rest, -, hpart⟩
  · cases before with
    | nil =>
      obtain ⟨hstep, rfl⟩ := List.cons.inj hpart
      cases hstep
      left
      rw [List.filterMap_append, List.filterMap_cons_some hended]
      exact List.mem_append_right _ List.mem_cons_self
    | cons first before =>
      obtain ⟨rfl, hinner⟩ := List.cons.inj hpart
      exact h _ _ _ hinner
  · -- the end of a step is no start
    have hmem : .actionStarted step' ∈ [e] := by
      rw [hpart]
      exact List.mem_append_right _ List.mem_cons_self
    rw [← List.mem_singleton.1 hmem] at hstarted
    cases hstarted

/-- A step whose flow was run to its end. -/
theorem completed (hended : e.ended? = some step.actionId) (hstarted : e.started? = none)
    (h : Answered terms held events) :
    Answered terms held (.actionStarted step :: events ++ [e]) := by
  apply enclosed hended hstarted
  intro before step' after hsplit
  exact (h _ _ _ hsplit).within [.actionStarted step] [e]

end Answered

/-! ## Segments of steps -/

/-- What is seen of a segment: ends follow on starts, and starts are answered. -/
structure Ordered (terms : Terms) (held : Action → Prop) (events : List Event) : Prop where
  follow : Event.EndsFollow events
  answered : Answered terms held events

namespace Ordered

theorem nil : Ordered terms held [] := ⟨.nil, .nil⟩

theorem append {x y : List Event} (hx : Ordered terms held x) (hy : Ordered terms held y) :
    Ordered terms held (x ++ y) :=
  ⟨hx.follow.append hy.follow, hx.answered.append hy.answered⟩

theorem inert {e : Event} (hs : e.started? = none) (he : e.ended? = none) :
    Ordered terms held [e] :=
  ⟨.inert he, .inert hs⟩

theorem completed {events : List Event} {e : Event} {step : StepRef} (h : Ordered terms held events)
    (hended : e.ended? = some step.actionId) (hstarted : e.started? = none) :
    Ordered terms held (.actionStarted step :: events ++ [e]) :=
  ⟨h.follow.enclosed hended, h.answered.completed hended hstarted⟩

/-- A step with a flow of which only a first part was run. -/
theorem cutOff {full inner : List Event} {step : StepRef} {a : Action} {ms : Nat}
    (h : Ordered terms held full) (hcut : inner <+: full) (hstep : step.actionType = a.type.name)
    (ha : held a) (howns : a.nested ≠ []) (hlimit : terms a.type = some (some ms)) :
    Ordered terms held (.actionStarted step :: inner ++ [.actionFailed step (.timeout ms)]) := by
  refine ⟨(h.follow.cut hcut).enclosed rfl, .enclosed rfl rfl ?_⟩
  intro before step' after hsplit
  exact .inr
    ⟨step, a, ms, List.mem_cons_self, List.mem_append_right _ List.mem_cons_self, hstep, ha,
    howns, hlimit⟩

end Ordered

/-- The steps of the flows that a step owns are held with it. -/
def Inherited (held : Action → Prop) : Prop :=
  ∀ a slot inner b, held a → (slot, some inner) ∈ a.nested → b ∈ inner.steps → held b

mutual

theorem StepTrace.ordered {executionId : String} {index : Nat} {a : Action} {events : List Event}
    {outcome : Outcome} (inherited : Inherited held) (ha : held a) :
    StepTrace terms executionId index a events outcome → Ordered terms held events
  | .skipped _ _ => .inert rfl rfl
  | .completed _ _ _ nested => (NestedTrace.ordered inherited ha nested).completed rfl rfl
  | .failed _ _ _ => Ordered.nil.completed rfl rfl
  | .cutOff _ _ limited nested cut => by
    have hfull := NestedTrace.ordered inherited ha nested
    cases nested with
    | none =>
      rw [List.prefix_nil.1 cut]
      exact Ordered.nil.completed rfl rfl
    | flow owned steps =>
      exact hfull.cutOff cut rfl ha (List.ne_nil_of_mem owned) limited

theorem NestedTrace.ordered {executionId : String} {a : Action} {events : List Event}
    (inherited : Inherited held) (ha : held a) :
    NestedTrace terms executionId a events → Ordered terms held events
  | .none => .nil
  | .flow owned steps =>
    StepsTrace.ordered inherited (fun b hb => inherited _ _ _ b ha owned hb) steps

theorem StepsTrace.ordered {executionId : String} {index : Nat} {actions : List Action}
    {events : List Event} {outcomes : List Outcome} (inherited : Inherited held)
    (h : ∀ a ∈ actions, held a) :
    StepsTrace terms executionId index actions events outcomes → Ordered terms held events
  | .nil => .nil
  | .cons first others =>
    (StepTrace.ordered inherited (h _ List.mem_cons_self) first).append
      (StepsTrace.ordered inherited (fun a ha => h a (List.mem_cons_of_mem _ ha)) others)

end

/-- The steps of a flow, with those of the flows in them. -/
theorem FlowOf.inherited_holds (flow : Flow) : Inherited fun a => flow.Holds a := by
  intro a slot inner b ha owned hb
  induction ha with
  | own mem => exact .nested mem owned (.own hb)
  | nested mem owned' within ih => exact .nested mem owned' ih

/-! ## Executions -/

/-- Where every step has an identifier of its own, none ends before it starts, or more than once. -/
theorem Event.EndsFollow.ends_le {events before after : List Event} {step : StepRef}
    (h : EndsFollow events) (distinct : (events.filterMap started?).Nodup)
    (hsplit : events = before ++ .actionStarted step :: after) :
    ends step.actionId before = 0 ∧ ends step.actionId after ≤ 1 := by
  have hstarts : starts step.actionId events ≤ 1 := List.nodup_iff_count_le_one.1 distinct _
  have hone : starts step.actionId [.actionStarted step] = 1 := by simp [starts, started?]
  have hall := h step.actionId events List.prefix_rfl
  have hbefore := h step.actionId before ⟨_, hsplit.symm⟩
  rw [hsplit, ← List.singleton_append] at hstarts hall
  simp only [starts_append, ends_append] at hstarts hall
  omega

namespace Executor

/-- Every step that an execution starts, in the flow or in the flows in it, ends after its start and
before the execution does, and once, or its end is missing because a step around it was cut off: one
that owns flows and is of a type with a time limit. Where no step that owns flows has such a limit,
every step that is started ends exactly once.

The processors of the host are only asked to do nothing that is the executor's to do. -/
theorem started_steps_end (ex : Executor) (host : Host) (flow : Flow)
    (caller : Option (Scope World)) (region : Option RegionId) (w : World)
    (hosts : ∀ p ∈ ex.registry, (∃ type, p = Processor.ofBuiltIn type) ∨ p.Quiet) :
    ∃ executionId events counts,
      ((ex.execute host flow caller region).run World.pass w).2.published = w.published ++
        (.flowStarted executionId flow.steps.length :: events ++
          [.flowCompleted executionId counts]) ∧
      (∀ before step after, events = before ++ .actionStarted step :: after →
        Event.ends step.actionId before = 0 ∧
          (Event.ends step.actionId after = 1 ∨
            Event.ends step.actionId after = 0 ∧ CutOff ex.terms flow.Holds before after)) ∧
      ((∀ a, flow.Holds a → a.nested ≠ [] → ∀ ms, ex.terms a.type ≠ some (some ms)) →
        ∀ before step after, events = before ++ .actionStarted step :: after →
          Event.ends step.actionId before = 0 ∧ Event.ends step.actionId after = 1) := by
  have hquiet : ∀ p ∈ ex.registry, p.NotesSteps fun _ => [] := by
    intro p hp
    rcases hosts p hp with ⟨type, rfl⟩ | hp
    · exact Processor.ofBuiltIn_quiet type
    · exact hp
  obtain ⟨⟨_, ⟨outcomes, @⟨events, _, executionId, steps⟩⟩, hrec⟩, -⟩ :=
    execute_publishes hquiet host flow caller region w
  have hordered := steps.ordered flow.inherited_holds fun a ha => .own ha
  have distinct : (events.filterMap Event.started?).Nodup := by
    have hall := hrec.announced_nodup.sublist (Event.started_sublist _)
    rw [List.nil_append, List.cons_append, List.filterMap_cons_none rfl, List.filterMap_append,
      List.filterMap_cons_none rfl] at hall
    exact hall.sublist (List.sublist_append_left _ _)
  have hends : ∀ before step after, events = before ++ .actionStarted step :: after →
      Event.ends step.actionId before = 0 ∧
        (Event.ends step.actionId after = 1 ∨
          Event.ends step.actionId after = 0 ∧ CutOff ex.terms flow.Holds before after) := by
    intro before step after hsplit
    obtain ⟨hbefore, hafter⟩ := hordered.follow.ends_le distinct hsplit
    refine ⟨hbefore, ?_⟩
    rcases hordered.answered before step after hsplit with hended | hcut
    · have hpositive : 0 < Event.ends step.actionId after := List.count_pos_iff.2 hended
      exact .inl (by omega)
    · cases hcount : Event.ends step.actionId after with
      | zero => exact .inr ⟨rfl, hcut⟩
      | succ n => exact .inl (by omega)
  refine ⟨executionId, events, _, hrec.published, hends, ?_⟩
  intro unlimited before step after hsplit
  obtain ⟨hbefore, hafter | ⟨-, outer, a, ms, -, -, -, ha, howns, hlimit⟩⟩ := hends _ _ _ hsplit
  · exact ⟨hbefore, hafter⟩
  · exact absurd hlimit (unlimited a ha howns ms)

/-- A dialog whose flow waits twice, with a time limit that ends the second wait: the delay that was
started last has no end. -/
theorem started_step_unended :
    let ex : Executor :=
      ⟨Registry.builtIn, { Config.default with actionTimeout := some 50 },
        Registry.missing?_builtIn, rfl⟩
    let pause : Action := .simple (.delay (.literal ⟨30, by decide⟩)) none
    let flow : Flow :=
      ⟨[.modal .dialog ⟨.literal "v", .null, true⟩ (some ⟨[pause, pause], false⟩) none], false⟩
    let w : World := ⟨0, [], [], .ofCapacity 1, [], [], [], 0⟩
    let after := ((ex.execute (.silent 0) flow none none).run World.pass w).2
    let dialog : StepRef := ⟨"id-1", "id-2", "showDialog", 0⟩
    let first : StepRef := ⟨"id-1", "id-3", "delay", 0⟩
    let second : StepRef := ⟨"id-1", "id-4", "delay", 1⟩
    after.published = [.flowStarted "id-1" 1, .actionStarted dialog, .actionStarted first,
        .actionCompleted first 30, .actionStarted second, .actionFailed dialog (.timeout 50),
        .flowCompleted "id-1" ⟨0, 1, 0⟩] ∧
      .actionStarted second ∈ after.published ∧ Event.ends second.actionId after.published = 0 := by
  decide +kernel

/-- The same flow with that limit, and without one. -/
theorem started_steps_end_dialog :
    let limited : Executor :=
      ⟨Registry.builtIn, { Config.default with actionTimeout := some 50 },
        Registry.missing?_builtIn, rfl⟩
    let unlimited : Executor := ⟨Registry.builtIn, .default, Registry.missing?_builtIn, rfl⟩
    let pause : Action := .simple (.delay (.literal ⟨30, by decide⟩)) none
    let flow : Flow :=
      ⟨[.modal .dialog ⟨.literal "v", .null, true⟩ (some ⟨[pause, pause], false⟩) none], false⟩
    let w : World := ⟨0, [], [], .ofCapacity 1, [], [], [], 0⟩
    let dialog : StepRef := ⟨"id-1", "id-2", "showDialog", 0⟩
    let first : StepRef := ⟨"id-1", "id-3", "delay", 0⟩
    let second : StepRef := ⟨"id-1", "id-4", "delay", 1⟩
    (∀ p ∈ Registry.builtIn, (∃ type, p = Processor.ofBuiltIn type) ∨ p.Quiet) ∧
      CutOff limited.terms flow.Holds
        [.actionStarted dialog, .actionStarted first, .actionCompleted first 30]
        [.actionFailed dialog (.timeout 50)] ∧
      (∀ a, flow.Holds a → a.nested ≠ [] → ∀ ms, unlimited.terms a.type ≠ some (some ms)) ∧
      ((unlimited.execute (.silent 0) flow none none).run World.pass w).2.published =
        [.flowStarted "id-1" 1, .actionStarted dialog, .actionStarted first,
          .actionCompleted first 30, .actionStarted second, .actionCompleted second 30,
          .actionCompleted dialog 60, .flowCompleted "id-1" ⟨1, 0, 0⟩] ∧
      Event.ends second.actionId [.actionCompleted second 30, .actionCompleted dialog 60] = 1 := by
  intro limited unlimited pause flow w dialog first second
  have hosts : ∀ p ∈ Registry.builtIn, (∃ type, p = Processor.ofBuiltIn type) ∨ p.Quiet := by
    intro p hp
    obtain ⟨type, -, rfl⟩ := List.mem_map.1 hp
    exact .inl ⟨type, rfl⟩
  have noLimit : ∀ a, flow.Holds a → a.nested ≠ [] → ∀ ms,
      unlimited.terms a.type ≠ some (some ms) := by
    intro a _ _ ms
    have htimeouts : ∀ p ∈ unlimited.registry, p.timeout = none := by
      intro p hp
      obtain ⟨type, -, rfl⟩ := List.mem_map.1 hp
      rfl
    rw [terms_eq_unlimited rfl htimeouts, Terms.unlimited]
    cases unlimited.terms a.type <;> simp
  have hcut : ((limited.execute (.silent 0) flow none none).run World.pass w).2.published =
      .flowStarted "id-1" 1 :: ([.actionStarted dialog, .actionStarted first,
        .actionCompleted first 30, .actionStarted second, .actionFailed dialog (.timeout 50)] ++
        [.flowCompleted "id-1" ⟨0, 1, 0⟩]) := by decide +kernel
  have hdone : ((unlimited.execute (.silent 0) flow none none).run World.pass w).2.published =
      .flowStarted "id-1" 1 :: ([.actionStarted dialog, .actionStarted first,
        .actionCompleted first 30, .actionStarted second, .actionCompleted second 30,
        .actionCompleted dialog 60] ++ [.flowCompleted "id-1" ⟨1, 0, 0⟩]) := by decide +kernel
  obtain ⟨id, events, counts, hpublished, hends, -⟩ :=
    started_steps_end limited (.silent 0) flow none none w hosts
  obtain ⟨id', events', counts', hpublished', -, hends'⟩ :=
    started_steps_end unlimited (.silent 0) flow none none w hosts
  obtain ⟨-, hevents⟩ := List.cons.inj (hcut.symm.trans hpublished)
  obtain ⟨rfl, -⟩ := List.append_inj' hevents rfl
  obtain ⟨-, hevents'⟩ := List.cons.inj (hdone.symm.trans hpublished')
  obtain ⟨rfl, -⟩ := List.append_inj' hevents' rfl
  refine ⟨hosts, ?_, noLimit, hdone, ?_⟩
  · obtain ⟨-, hended | ⟨-, hcutOff⟩⟩ := hends [.actionStarted dialog, .actionStarted first,
      .actionCompleted first 30] second [.actionFailed dialog (.timeout 50)] rfl
    · exact absurd hended (by decide)
    · exact hcutOff
  · exact (hends' noLimit [.actionStarted dialog, .actionStarted first, .actionCompleted first 30]
      second [.actionCompleted second 30, .actionCompleted dialog 60] rfl).2

end Executor

end StepFlow
