import StepFlow.Proofs.Registry
import StepFlow.Proofs.Run.Trace

/-!
# What an execution puts on record

An execution publishes its start, the segments of its steps, and its end with the tally of how the
steps came out. To see that each started step is handed to its processor exactly once, the
processors of an executor are made to note what they are handed: the notes are then the started
steps, in their order.
-/

namespace StepFlow

/-- The events of an execution of a flow, and how its own steps came out. -/
inductive ExecutionTrace (terms : Terms) (flow : Flow) :
    List Event → List Outcome → Prop
  | mk {events outcomes} (executionId : String)
    (steps : StepsTrace terms executionId 0 flow.steps events outcomes) :
    ExecutionTrace terms flow
      (.flowStarted executionId flow.steps.length :: events ++
        [.flowCompleted executionId (.tally outcomes)]) outcomes

theorem ExecutionTrace.total {terms : Terms} {flow : Flow} {events : List Event}
    {outcomes : List Outcome} (h : ExecutionTrace terms flow events outcomes) :
    (Counts.tally outcomes).completed + (Counts.tally outcomes).failed +
      (Counts.tally outcomes).skipped = flow.steps.length := by
  cases h with
  | mk executionId steps => rw [Counts.tally_total, steps.length_outcomes]

/-- The notes are those of processors that were called once for each started step, in the order of
the starts, and for no other step. -/
structure CalledOnce (events : List Event) (notes : List String) : Prop where
  inOrder : notes = events.filterMap Event.started?
  started : ∀ step, .actionStarted step ∈ events → notes.count step.actionId = 1
  skipped : ∀ step, .actionSkipped step ∈ events → notes.count step.actionId = 0

namespace Event

theorem announced?_of_started? {e : Event} {id : String} (h : e.started? = some id) :
    e.announced? = some id := by
  cases e <;> first | exact h | cases h

theorem started_sublist (events : List Event) :
    (events.filterMap started?).Sublist (events.filterMap announced?) := by
  induction events with
  | nil => exact .slnil
  | cons e rest ih =>
    cases hs : e.started? with
    | none =>
      rw [List.filterMap_cons_none hs]
      refine ih.trans ?_
      cases ha : e.announced? with
      | none => rw [List.filterMap_cons_none ha]
      | some id =>
        rw [List.filterMap_cons_some ha]
        exact List.sublist_cons_self _ _
    | some id =>
      rw [List.filterMap_cons_some hs, List.filterMap_cons_some (announced?_of_started? hs)]
      exact ih.cons_cons id

theorem skipped_not_started {events : List Event} {step : StepRef}
    (hnodup : (events.filterMap announced?).Nodup) (hskipped : .actionSkipped step ∈ events) :
    step.actionId ∉ events.filterMap started? := by
  induction events with
  | nil => cases hskipped
  | cons e rest ih =>
    rcases List.mem_cons.1 hskipped with rfl | hrest
    · rw [List.filterMap_cons_none rfl]
      intro hstarted
      exact (List.nodup_cons.1 hnodup).1 ((started_sublist rest).subset hstarted)
    · have hannounced : step.actionId ∈ rest.filterMap announced? :=
        List.mem_filterMap.2 ⟨_, hrest, rfl⟩
      cases hs : e.started? with
      | none =>
        rw [List.filterMap_cons_none hs]
        exact ih (hnodup.sublist ((List.sublist_cons_self e rest).filterMap _)) hrest
      | some id =>
        rw [List.filterMap_cons_some (announced?_of_started? hs)] at hnodup
        obtain ⟨hid, hnodup⟩ := List.nodup_cons.1 hnodup
        rw [List.filterMap_cons_some hs]
        intro hstarted
        rcases List.mem_cons.1 hstarted with rfl | hstarted
        · exact hid hannounced
        · exact ih hnodup hrest hstarted

end Event

theorem World.Recorded.calledOnce {w w' : World} {events : List Event}
    (h : World.Recorded (fun id => [id]) w w' events) :
    CalledOnce events (events.filterMap Event.started?) where
  inOrder := rfl
  started := by
    intro step hstarted
    refine List.count_eq_one_of_mem (h.announced_nodup.sublist (Event.started_sublist events)) ?_
    exact List.mem_filterMap.2 ⟨_, hstarted, rfl⟩
  skipped := by
    intro step hskipped
    exact List.count_eq_zero.2 (Event.skipped_not_started h.announced_nodup hskipped)

namespace Executor

variable {ex : Executor} {m : String → List String}

theorem execute_publishes (hp : ∀ p ∈ ex.registry, p.NotesSteps m) (host : Host) (flow : Flow)
    (caller : Option (Scope World)) (region : Option RegionId) (w : World) :
    Task.Publishes m w [] (fun events _ => ∃ outcomes, ExecutionTrace ex.terms flow events outcomes)
      (ex.execute host flow caller region) w := by
  have hstarted := World.Recorded.flowStarted m w flow.steps.length
  have hsteps := runSteps_publishes ⟨host, region, w.freshId.1⟩ hp
    (flowScope host caller region) 0 flow.steps
    (w.freshId.2.emit (.flowStarted w.freshId.1 flow.steps.length))
  apply Task.Publishes.modifyGet_iff.2
  apply Task.Publishes.modify_iff.2
  apply Task.Publishes.after [.flowStarted w.freshId.1 flow.steps.length]
  apply (Task.Publishes.rebase hstarted hsteps).bind
  rintro events counts w' ⟨outcomes, htrace, rfl⟩
  refine Task.Publishes.modify_iff.2 (.pure (World.Recorded.emit m w' rfl rfl) ?_)
  exact ⟨outcomes, .mk w.freshId.1 htrace⟩

/-! ## Watching the processors -/

theorem missing?_noting (registry : Registry) :
    Registry.missing? (registry.map Processor.noting) = registry.missing? :=
  registry.missing?_map Processor.noting fun _ => rfl

/-- The executor, with processors that note the identifiers of the steps that they are handed. -/
def noting (ex : Executor) : Executor where
  registry := ex.registry.map Processor.noting
  config := ex.config
  complete := (missing?_noting ex.registry).trans ex.complete
  valid := ex.valid

/-- Where no time limit is configured, no type of step has one. -/
theorem terms_eq_unlimited (hconfig : ex.config.actionTimeout = none)
    (htimeouts : ∀ p ∈ ex.registry, p.timeout = none) : ex.terms = ex.terms.unlimited := by
  funext type
  unfold Terms.unlimited terms
  cases hresolve : ex.resolve type with
  | none => rfl
  | some p =>
    have hlimit : ex.limitFor p = none := by
      rw [limitFor, htimeouts p (mem_of_resolve hresolve), hconfig]
      rfl
    rw [Option.map_some, Option.map_some, hlimit]

theorem resolve_noting (ex : Executor) (type : ActionType) :
    ex.noting.resolve type = (ex.resolve type).map Processor.noting :=
  resolve_map ex ex.noting Processor.noting (fun _ => rfl) rfl rfl type

theorem terms_noting (ex : Executor) : ex.noting.terms = ex.terms := by
  funext type
  unfold terms
  rw [resolve_noting, Option.map_map]
  rfl

/-- An execution publishes its start, one segment for each of its steps in order, and its end, where
the summary tallies how the steps came out. A segment is that of a skipped step, or has the start
and the end of the step around all steps of at most one of its flows; only a time limit can cut
these short. And if the processors note what they are handed, the notes are the started steps.

The processors of the host are only asked to do nothing that is the executor's to do. -/
theorem execution_bracketed (ex : Executor) (host : Host) (flow : Flow)
    (caller : Option (Scope World)) (region : Option RegionId) (w : World)
    (hosts : ∀ p ∈ ex.registry, (∃ type, p = Processor.ofBuiltIn type) ∨ p.Quiet) :
    (∃ events outcomes,
      ((ex.execute host flow caller region).run World.pass w).2.published = w.published ++ events ∧
      ExecutionTrace ex.terms flow events outcomes ∧
      (ex.config.actionTimeout = none → (∀ p ∈ ex.registry, p.timeout = none) →
        ExecutionTrace ex.terms.unlimited flow events outcomes) ∧
      (Counts.tally outcomes).completed + (Counts.tally outcomes).failed +
        (Counts.tally outcomes).skipped = flow.steps.length) ∧
    ∃ events outcomes notes,
      ((ex.noting.execute host flow caller region).run World.pass w).2.published =
        w.published ++ events ∧
      ExecutionTrace ex.terms flow events outcomes ∧
      ((ex.noting.execute host flow caller region).run World.pass w).2.notes = w.notes ++ notes ∧
      CalledOnce events notes := by
  have hquiet : ∀ p ∈ ex.registry, p.Quiet := by
    intro p hp
    rcases hosts p hp with ⟨type, rfl⟩ | hp
    · exact Processor.ofBuiltIn_quiet type
    · exact hp
  constructor
  · have hnotes : ∀ p ∈ ex.registry, p.NotesSteps fun _ => [] := hquiet
    obtain ⟨⟨events, ⟨outcomes, htrace⟩, hrec⟩, -⟩ :=
      execute_publishes hnotes host flow caller region w
    refine ⟨events, outcomes, hrec.published, htrace, ?_, htrace.total⟩
    intro hconfig htimeouts
    rwa [terms_eq_unlimited hconfig htimeouts] at htrace
  · have hnotes : ∀ p ∈ ex.noting.registry, p.NotesSteps fun id => [id] := by
      intro p hp
      obtain ⟨q, hq, rfl⟩ := List.mem_map.1 hp
      exact (hquiet q hq).noting
    obtain ⟨⟨events, ⟨outcomes, htrace⟩, hrec⟩, -⟩ :=
      execute_publishes hnotes host flow caller region w
    rw [terms_noting] at htrace
    refine ⟨events, outcomes, _, hrec.published, htrace, ?_, hrec.calledOnce⟩
    rw [hrec.notes, List.flatMap_singleton']

/-- A dialog whose flow runs a step of the host that fails, and a step that is skipped. -/
theorem execution_bracketed_dialog :
    let shout : Processor := .scripted (.ofHostTag "shout") 5 (some "hoarse") none
    let ex : Executor := ⟨shout :: Registry.builtIn, .default, by decide +kernel, by decide⟩
    let said : Flow := ⟨[.simple (.noop none) none, .simple (.custom "shout" []) none], false⟩
    let flow : Flow := ⟨[.modal .dialog ⟨.literal "ask", .null, true⟩ (some said) none,
      .simple (.noop none) (some (.literal true))], false⟩
    let w : World := ⟨0, [], [], .ofCapacity 1, [], [], [], 0⟩
    let after := ((ex.execute (.silent 0) flow none none).run World.pass w).2
    let noted := ((ex.noting.execute (.silent 0) flow none none).run World.pass w).2
    let dialog : StepRef := ⟨"id-1", "id-2", "showDialog", 0⟩
    let first : StepRef := ⟨"id-1", "id-3", "noop", 0⟩
    let second : StepRef := ⟨"id-1", "id-4", "shout", 1⟩
    (∀ p ∈ ex.registry, (∃ type, p = Processor.ofBuiltIn type) ∨ p.Quiet) ∧
    ex.config.actionTimeout = none ∧ (∀ p ∈ ex.registry, p.timeout = none) ∧
    after.published = [.flowStarted "id-1" 2, .actionStarted dialog,
      .actionStarted first, .actionCompleted first 0,
      .actionStarted second, .actionFailed second (.executionFailed (.host "hoarse")),
      .actionCompleted dialog 5, .actionSkipped ⟨"id-1", "id-5", "noop", 1⟩,
      .flowCompleted "id-1" ⟨1, 0, 1⟩] ∧
    (∃ outcomes, ExecutionTrace ex.terms.unlimited flow after.published outcomes ∧
      (Counts.tally outcomes).completed + (Counts.tally outcomes).failed +
        (Counts.tally outcomes).skipped = 2) ∧
    noted.notes = ["id-2", "id-3", "id-4"] ∧ CalledOnce noted.published noted.notes := by
  intro shout ex said flow w after noted dialog first second
  have hosts : ∀ p ∈ ex.registry, (∃ type, p = Processor.ofBuiltIn type) ∨ p.Quiet := by
    intro p hp
    rcases List.mem_cons.1 hp with rfl | hp
    · exact .inr (Processor.scripted_quiet _ 5 (some "hoarse") none)
    · obtain ⟨type, -, rfl⟩ := List.mem_map.1 hp
      exact .inl ⟨type, rfl⟩
  have htimeouts : ∀ p ∈ ex.registry, p.timeout = none := by
    intro p hp
    rcases List.mem_cons.1 hp with rfl | hp
    · rfl
    · obtain ⟨type, -, rfl⟩ := List.mem_map.1 hp
      rfl
  obtain ⟨⟨events, outcomes, hpublished, -, hunlimited, htotal⟩, hnoted⟩ :=
    execution_bracketed ex (.silent 0) flow none none w hosts
  obtain ⟨more, -, notes, hmore, -, hnotes, hcalled⟩ := hnoted
  have hevents : after.published = events := hpublished
  have hnotes : noted.notes = notes := hnotes
  have hmore : noted.published = more := hmore
  refine ⟨hosts, rfl, htimeouts, by decide +kernel, ⟨outcomes, ?_, htotal⟩, by decide +kernel, ?_⟩
  · rw [hevents]
    exact hunlimited rfl htimeouts
  · rw [hmore, hnotes]
    exact hcalled

end Executor

end StepFlow
