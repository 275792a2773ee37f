import StepFlow.Proofs.Run.Compare

/-!
# A disabled step leaves no trace

A step whose condition holds when its turn comes can as well be left out of its flow: all else
that the flow does stays the same, and all that is reported of it, but for the one event that
tells of the skipped step. This is so for the steps of a flow and for those of a flow inside
another step, at any depth.

Whether the turn of a step comes, and what it sees then, depends on the run: a step around it may
fail or be skipped, launch another of its flows, or be cut off too early. `Executor.arrival` runs a
flow up to the turn of a step in it.
-/

namespace StepFlow

open World (Alike)

/-! ## Places in a flow -/

/-- A step that owns flows, with one of its slots left open. -/
inductive Opening where
  | onResult (kind : ModalKind) (view : ModalView) (disableIf : Condition)
  | onSuccess (source : DataSource) (onError : Option Flow) (disableIf : Condition)
  | onError (source : DataSource) (onSuccess : Option Flow) (disableIf : Condition)

namespace Opening

def slot : Opening → Slot
  | .onResult _ _ _ => .onResult
  | .onSuccess _ _ _ => .onSuccess
  | .onError _ _ _ => .onError

/-- The step, with a flow in the open slot. -/
def fill (flow : Flow) : Opening → Action
  | .onResult kind view c => .modal kind view (some flow) c
  | .onSuccess source other c => .request source (some flow) other c
  | .onError source other c => .request source other (some flow) c

theorem akin (opening : Opening) (flow flow' : Flow) :
    (opening.fill flow).Akin (opening.fill flow') := by
  cases opening <;> exact ⟨rfl, rfl, fun _ _ => rfl, nofun⟩

end Opening

/-- A place for steps: among the steps of a flow, or in a flow that one of them owns. -/
inductive Place where
  | here (before after : List Action)
  | inside (before : List Action) (opening : Opening) (inkWell : Bool) (inner : Place)
    (after : List Action)

/-- The steps of a flow, with steps put in a place. -/
def Place.fill (steps : List Action) : Place → List Action
  | .here before after => before ++ (steps ++ after)
  | .inside before opening inkWell inner after =>
    before ++ opening.fill ⟨inner.fill steps, inkWell⟩ :: after

/-! ## The turn of a step -/

/-- What a step sees when its turn comes. -/
structure Turn where
  scope : Scope World
  world : World

/-- The condition of a step holds when its turn comes. -/
def Turn.Disables (s : Action) (turn : Turn) : Prop :=
  s.isDisabled (turn.scope.lookup turn.world) = true

namespace Executor

variable {ex : Executor} {setting : Setting}

/-- Runs the steps of a flow up to the turn of those in a place; none if it does not come. -/
def turn (ex : Executor) (setting : Setting) (steps : List Action) :
    Place → Scope World → Nat → Task World (Option Turn)
  | .here before _, scope, index => do
    let _ ← ex.runSteps setting scope index before
    Task.read fun w => some ⟨scope, w⟩
  | .inside before opening inkWell inner _, scope, index => do
    let _ ← ex.runSteps setting scope index before
    ex.watchStep setting scope (index + before.length) (opening.fill ⟨inner.fill steps, inkWell⟩)
      fun slot launched =>
        if slot = opening.slot then turn ex setting steps inner launched 0 else pure none

/-- The world in which an execution of so many steps comes to the first of them. -/
def begun (steps : Nat) (w : World) : World :=
  w.freshId.2.emit (.flowStarted w.freshId.1 steps)

/-- What a step in a place of a flow sees when its turn comes in an execution of the flow. -/
def arrival (ex : Executor) (host : Host) (place : Place) (s : Action)
    (caller : Option (Scope World)) (region : Option RegionId) (w : World) : Option Turn :=
  ((ex.turn ⟨host, region, w.freshId.1⟩ [s] place (flowScope host caller region) 0).run World.pass
    (begun (place.fill [s]).length w)).1

end Executor

/-! ## Runs in step, and one step ahead -/

/-- Two runs that have reported the same, after the same events. -/
structure InStep (before : List Event) (w w' : World) : Prop where
  alike : Alike w w'
  issued : w.issued = w'.issued
  events : ∃ events events', w.published = before ++ events ∧ w'.published = before ++ events' ∧
    List.Forall₂ Event.Matches events events'

/-- Two runs that have reported the same, but for one step of a type that the
first one has skipped. -/
structure Ahead (type : ActionType) (before : List Event) (w w' : World) : Prop where
  alike : Alike w w'
  issued : w.issued = w'.issued + 1
  events : ∃ step first later first' later', step.actionType = type.name ∧
    w.published = before ++ (first ++ .actionSkipped step :: later) ∧
    w'.published = before ++ (first' ++ later') ∧
    List.Forall₂ Event.Matches first first' ∧ List.Forall₂ Event.Matches later later'

theorem World.published_emit (e : Event) (w : World) : (w.emit e).published = w.published ++ [e] :=
  List.reverse_cons

/-- Giving out an identifier reports nothing. -/
theorem World.published_freshId (w : World) : w.freshId.2.published = w.published := rfl

theorem matches_snoc {events events' : List Event} {e e' : Event}
    (h : List.Forall₂ Event.Matches events events') (he : e.Matches e') :
    List.Forall₂ Event.Matches (events ++ [e]) (events' ++ [e']) :=
  List.rel_append h (.cons he .nil)

theorem comparison_inStep (before : List Event) : Comparison (InStep before) where
  alike h := h.alike
  issue h := by
    refine ⟨.inl (congrArg World.idText h.issued), h.alike.freshId, ?_, h.events⟩
    exact congrArg (· + 1) h.issued
  report h he := by
    obtain ⟨events, events', hw, hw', hmatch⟩ := h.events
    refine ⟨h.alike.emit _ _, h.issued, _, _, ?_, ?_, matches_snoc hmatch he⟩
    · rw [World.published_emit, hw, List.append_assoc]
    · rw [World.published_emit, hw', List.append_assoc]
  work h hu hu' halike := by
    refine ⟨halike, ?_, ?_⟩
    · rw [hu.issued, hu'.issued, h.issued]
    · rw [hu.published, hu'.published]
      exact h.events

theorem comparison_ahead (type : ActionType) (before : List Event) :
    Comparison (Ahead type before) where
  alike h := h.alike
  issue h := by
    refine ⟨.inr ⟨_, congrArg World.idText h.issued, rfl⟩, h.alike.freshId, ?_, h.events⟩
    exact congrArg (· + 1) h.issued
  report h he := by
    obtain ⟨step, first, later, first', later', htype, hw, hw', hfirst, hlater⟩ := h.events
    refine ⟨h.alike.emit _ _, h.issued, step, first, _, first', _, htype, ?_, ?_, hfirst,
      matches_snoc hlater he⟩
    · simp [World.published_emit, hw]
    · simp [World.published_emit, hw']
  work h hu hu' halike := by
    refine ⟨halike, ?_, ?_⟩
    · rw [hu.issued, hu'.issued, h.issued]
    · rw [hu.published, hu'.published]
      exact h.events

/-- A run that is in step skips a step, and is ahead. -/
theorem InStep.skip {before : List Event} {w w' : World} (h : InStep before w w') {step : StepRef}
    {type : ActionType} (htype : step.actionType = type.name) :
    Ahead type before (w.freshId.2.emit (.actionSkipped step)) w' := by
  obtain ⟨events, events', hw, hw', hmatch⟩ := h.events
  refine ⟨h.alike.freshId_left.emit_left _, congrArg (· + 1) h.issued, step, events,
    [], events', [], htype, ?_, ?_, hmatch, .nil⟩
  · rw [World.published_emit, World.published_freshId, hw, List.append_assoc]
  · rw [hw', List.append_nil]

namespace Counts

theorem zero_add (c : Counts) : zero.add c = c := by
  simp [add, zero]

theorem add_assoc (a b c : Counts) : (a.add b).add c = a.add (b.add c) := by
  simp [add, Nat.add_assoc]

theorem Matches.of_eq {c c' : Counts} (h : c = c') : c.Matches c' := by
  rw [h]
  exact ⟨rfl, rfl, .refl _⟩

theorem Matches.add_left {c c' : Counts} (h : c.Matches c') (b : Counts) :
    (b.add c).Matches (b.add c') where
  completed := congrArg (b.completed + ·) h.completed
  failed := congrArg (b.failed + ·) h.failed
  skipped := h.skipped.add_left b.skipped

/-- Counts with one skipped step more. -/
theorem matches_oneSkipped (c : Counts) : (oneSkipped.add c).Matches c where
  completed := Nat.zero_add _
  failed := Nat.zero_add _
  skipped := .inr (Nat.add_comm _ _)

end Counts

namespace Executor

variable {ex : Executor} {setting : Setting} {R : World → World → Prop} {w w' : World}

/-! ## The flows of a step -/

theorem runNested_slot (opening : Opening) (flow : Flow) (scope : Scope World) :
    ex.runNested setting (opening.fill flow) opening.slot scope =
      (ex.runSteps setting scope 0 flow.steps).mapResult fun _ => () := by
  cases opening <;> rfl

/-- The flow in the open slot makes no difference to the others. -/
theorem runNested_of_ne (opening : Opening) (flow flow' : Flow) {slot : Slot}
    (h : slot ≠ opening.slot) :
    ex.runNested setting (opening.fill flow) slot =
      ex.runNested setting (opening.fill flow') slot := by
  cases opening <;> cases slot <;> first | rfl | exact absurd rfl h

/-! ## Lists of steps -/

theorem runSteps_append (before rest : List Action) (scope : Scope World) (index : Nat) :
    ex.runSteps setting scope index (before ++ rest) =
      (ex.runSteps setting scope index before).bind fun counts =>
        (ex.runSteps setting scope (index + before.length) rest).mapResult counts.add := by
  induction before generalizing index with
  | nil =>
    have hzero : Counts.zero.add = fun counts => counts := funext Counts.zero_add
    show _ = (ex.runSteps setting scope index rest).bind fun counts =>
      .done (Counts.zero.add counts)
    rw [hzero]
    exact (Task.bind_done _).symm
  | cons a before ih =>
    have hindex : index + (a :: before).length = index + 1 + before.length := by
      rw [List.length_cons, Nat.add_assoc, Nat.add_comm 1]
    rw [hindex]
    show (ex.runStep setting scope index a).bind (fun first =>
        (ex.runSteps setting scope (index + 1) (before ++ rest)).mapResult first.add) =
      ((ex.runStep setting scope index a).bind fun first =>
        (ex.runSteps setting scope (index + 1) before).mapResult first.add).bind _
    rw [Task.bind_assoc, ih]
    refine congrArg (Task.bind _) (funext fun first => ?_)
    unfold Task.mapResult
    rw [Task.bind_assoc, Task.bind_assoc]
    refine congrArg (Task.bind _) (funext fun counts => ?_)
    rw [Task.bind_assoc]
    refine congrArg (Task.bind _) (funext fun others => ?_)
    exact congrArg Task.done (Counts.add_assoc first counts others).symm

/-- A step whose condition holds is skipped at once. -/
theorem settle_runStep_disabled {s : Action} {scope : Scope World} (index : Nat)
    (h : s.isDisabled (scope.lookup w.freshId.2) = true) :
    (ex.runStep setting scope index s).settle w = .ended .oneSkipped
      (w.freshId.2.emit
        (.actionSkipped ⟨setting.executionId, w.freshId.1, s.type.name, index⟩)) := by
  rw [runStep_eq]
  show Task.settle (if _ then _ else _) _ = _
  rw [if_pos h]
  rfl

/-! ## Flows with and without a step -/

section Spared

variable {s : Action} {published : List Event} {scope : Scope World}

/-- Steps after a skipped one, beside the same steps without it. -/
theorem agrees_skipped (processors : ex.DiscreetProcessors) (setting : Setting)
    (hscope : scope.Oblivious) (hw : InStep published w w')
    (hdisabled : s.isDisabled (scope.lookup w) = true) (index : Nat) (after : List Action) :
    Task.Agrees World.pass (Ahead s.type published) Counts.Matches
      (ex.runSteps setting scope index (s :: after)) w
        (ex.runSteps setting scope index after) w' := by
  have hissued : s.isDisabled (scope.lookup w.freshId.2) = true := by
    rw [hscope.lookup (Alike.refl w).freshId_left]
    exact hdisabled
  let skipped : World := w.freshId.2.emit
    (.actionSkipped ⟨setting.executionId, w.freshId.1, s.type.name, index⟩)
  have hskipped : Ahead s.type published skipped w' := hw.skip rfl
  have hrest := agrees_runSteps (comparison_ahead s.type published) processors setting after
    (.inr rfl : NumbersMatch (index + 1) index) hscope hskipped
  have hafter : Task.Agrees World.pass (Ahead s.type published) Counts.Matches
      ((ex.runSteps setting scope (index + 1) after).mapResult Counts.oneSkipped.add) skipped
      (ex.runSteps setting scope index after) w' := by
    refine hrest.mapLeft ?_
    rintro c _ rfl
    exact Counts.matches_oneSkipped c
  exact hafter.congr (Task.settle_bind_of_ended (settle_runStep_disabled index hissued)) rfl

/-- A step that owns a flow and the steps after it: they are in step, or the first run is ahead, as
it is with that flow. -/
theorem watched_opening (processors : ex.DiscreetProcessors) (setting : Setting)
    (hscope : scope.Oblivious) (hw : InStep published w w') (opening : Opening) (flow flow' : Flow)
    (index : Nat) (after : List Action) {inner : Scope World → Task World (Option Turn)}
    (hinner : ∀ (launched : Scope World) u u', launched.Oblivious → InStep published u u' →
      Task.Watched World.pass (Turn.Disables s) (InStep published) (Ahead s.type published)
        Counts.Matches (inner launched) (ex.runSteps setting launched 0 flow.steps) u
        (ex.runSteps setting launched 0 flow'.steps) u') :
    Task.Watched World.pass (Turn.Disables s) (InStep published) (Ahead s.type published)
      Counts.Matches
      (ex.watchStep setting scope index (opening.fill flow) fun slot launched =>
        if slot = opening.slot then inner launched else pure none)
      (ex.runSteps setting scope index (opening.fill flow :: after)) w
      (ex.runSteps setting scope index (opening.fill flow' :: after)) w' := by
  have hslots : WatchedSlots (Turn.Disables s) (InStep published) (Ahead s.type published)
      (fun slot launched => if slot = opening.slot then inner launched else pure none)
      (ex.runNested setting (opening.fill flow)) (ex.runNested setting (opening.fill flow')) := by
    intro slot launched u u' hlaunched hu
    dsimp only
    by_cases hslot : slot = opening.slot
    · subst hslot
      rw [if_pos rfl, runNested_slot, runNested_slot]
      exact (hinner launched u u' hlaunched hu).mapResult fun _ _ _ => trivial
    · rw [if_neg hslot, runNested_of_ne opening flow' flow hslot]
      refine .of_agrees (agrees_runNested ?_ hlaunched hu)
      intro flow _ scope hscope v v' hv
      exact agrees_runSteps (comparison_inStep _) processors setting flow.steps (.refl 0) hscope hv
  have hstep :=
    watched_step (comparison_inStep _) (comparison_ahead _ _) processors setting hscope hw
    (opening.akin flow flow') (.refl index) hslots
  rw [← runStep_eq, ← runStep_eq] at hstep
  -- what comes after the step goes on with whatever comparison there is by then
  have hrest {R : World → World → Prop} (hR : Comparison R) (first first' : Counts) (u u' : World)
      (hu : R u u') (hfirst : first = first') :
      Task.Agrees World.pass R Counts.Matches
        ((ex.runSteps setting scope (index + 1) after).mapResult first.add) u
        ((ex.runSteps setting scope (index + 1) after).mapResult first'.add) u' := by
    refine (agrees_runSteps hR processors setting after (.refl _) hscope hu).mapResult ?_
    rintro c _ rfl
    exact .of_eq (congrArg (Counts.add · c) hfirst)
  exact hstep.bind (hrest (comparison_inStep _)) (hrest (comparison_ahead _ _))

/-- The steps of a flow with a step in a place, beside those without it: they are in step until the
turn of the step comes, and then the first run is ahead. -/
theorem watched_runSteps (processors : ex.DiscreetProcessors) (setting : Setting) (s : Action)
    (published : List Event) :
    ∀ (place : Place) (index : Nat) {scope : Scope World} {w w' : World},
      scope.Oblivious → InStep published w w' →
      Task.Watched World.pass (Turn.Disables s) (InStep published) (Ahead s.type published)
        Counts.Matches (ex.turn setting [s] place scope index)
        (ex.runSteps setting scope index (place.fill [s])) w
        (ex.runSteps setting scope index (place.fill [])) w'
  | .here before after, index, scope, w, w', hscope, hw => by
    rw [Place.fill, Place.fill, runSteps_append before, runSteps_append before]
    refine .afterAgreed
      (agrees_runSteps (comparison_inStep _) processors setting before (.refl index) hscope hw) ?_
    rintro counts _ u u' hu rfl
    refine .arrived (Task.settle_read _ _) ?_
    intro hdisabled
    have hsteps :=
      agrees_skipped processors setting hscope hu hdisabled (index + before.length) after
    exact hsteps.mapResult fun _ _ h => h.add_left counts
  | .inside before opening inkWell inner after, index, scope, w, w', hscope, hw => by
    rw [Place.fill, Place.fill, runSteps_append before, runSteps_append before]
    refine .afterAgreed
      (agrees_runSteps (comparison_inStep _) processors setting before (.refl index) hscope hw) ?_
    rintro counts _ u u' hu rfl
    have hsteps := watched_opening processors setting hscope hu opening ⟨inner.fill [s], inkWell⟩
      ⟨inner.fill [], inkWell⟩ (index + before.length) after fun launched u u' hlaunched hu =>
        watched_runSteps processors setting s published inner 0 hlaunched hu
    exact hsteps.mapResult fun _ _ h => h.add_left counts

end Spared

/-! ## Executions -/

theorem length_fill (place : Place) (s : Action) :
    NumbersMatch (place.fill [s]).length (place.fill []).length := by
  cases place with
  | here before after =>
    right
    simp only [Place.fill, List.length_append, List.length_cons, List.length_nil]
    omega
  | inside before opening inkWell inner after =>
    left
    simp only [Place.fill, List.length_append, List.length_cons]

theorem inStep_begun {n n' : Nat} (h : NumbersMatch n n') (w : World) :
    InStep w.published (begun n w) (begun n' w) where
  alike := (Alike.refl w).freshId.emit _ _
  issued := rfl
  events := by
    refine ⟨[.flowStarted w.freshId.1 n], [.flowStarted w.freshId.1 n'], ?_, ?_,
      .cons (.flowStarted _ h) .nil⟩
    · rw [begun, World.published_emit, World.published_freshId]
    · rw [begun, World.published_emit, World.published_freshId]

/-- The turn of a step of the flow itself always comes, in the world that the
steps before it leave. -/
theorem arrival_here (ex : Executor) (host : Host) (before after : List Action) (s : Action)
    (caller : Option (Scope World)) (region : Option RegionId) (w : World) :
    ex.arrival host (.here before after) s caller region w =
      some ⟨flowScope host caller region,
        ((ex.runSteps ⟨host, region, w.freshId.1⟩ (flowScope host caller region) 0 before).run
          World.pass (begun (before ++ ([s] ++ after)).length w)).2⟩ :=
  congrArg Prod.fst (Task.run_bind World.pass _ _ _)

theorem arrival_spared (processors : ex.DiscreetProcessors) (host : Host)
    (place : Place) (s : Action) (inkWell : Bool) {caller : Option (Scope World)}
    (callers : ∀ scope, caller = some scope → scope.Oblivious)
    (region : Option RegionId) (w : World) :
    (ex.arrival host place s caller region w = none → InStep w.published
      ((ex.execute host ⟨place.fill [s], inkWell⟩ caller region).run World.pass w).2
      ((ex.execute host ⟨place.fill [], inkWell⟩ caller region).run World.pass w).2) ∧
    ∀ turn, ex.arrival host place s caller region w = some turn → turn.Disables s →
      Ahead s.type w.published
        ((ex.execute host ⟨place.fill [s], inkWell⟩ caller region).run World.pass w).2
        ((ex.execute host ⟨place.fill [], inkWell⟩ caller region).run World.pass w).2 := by
  have hscope : (flowScope host caller region).Oblivious := flowScope_oblivious callers
  have hsteps :=
    watched_runSteps processors ⟨host, region, w.freshId.1⟩ s w.published place 0 hscope
    (inStep_begun (length_fill place s) w)
  have hcompleted {R : World → World → Prop} (hR : Comparison R) (c c' : Counts) (u u' : World)
      (hu : R u u') (hc : c.Matches c') :
      Task.Agrees World.pass R (fun _ _ => True) (emit (.flowCompleted w.freshId.1 c)) u
        (emit (.flowCompleted w.freshId.1 c')) u' :=
    .ended rfl rfl (hR.report hu (.flowCompleted _ hc)) trivial
  have hexecution :=
    hsteps.bind (hcompleted (comparison_inStep _)) (hcompleted (comparison_ahead _ _))
  exact hexecution.run

/-- A flow with a step whose condition holds in the world that the steps before it leave, and the
flow without that step, run from the same world, leave worlds that differ in identifiers and in
events at most: the same effects are performed in the same order, and the regions with their
revisions, the objects, the bus, the journal and the clock end up the same. The events are the same
too, step by step, except for the one that tells of the skipped step. So it is with a step of a flow
inside other steps, at any depth, if its turn comes and its condition holds then; and if its turn
does not come, no event tells of it either.

The processors of the host must not look at events or at the identifiers of steps, nor must the
scope of the caller. -/
theorem disabled_step_leaves_no_trace (ex : Executor) (host : Host) (s : Action) (inkWell : Bool)
    (caller : Option (Scope World)) (region : Option RegionId) (w : World)
    (processors : ex.DiscreetProcessors)
    (callers : ∀ scope, caller = some scope → scope.Oblivious) :
    (∀ before after : List Action,
      s.isDisabled ((flowScope host caller region).lookup
        ((ex.runSteps ⟨host, region, w.freshId.1⟩ (flowScope host caller region) 0 before).run
          World.pass (begun (before ++ ([s] ++ after)).length w)).2) = true →
      Ahead s.type w.published
        ((ex.execute host ⟨before ++ ([s] ++ after), inkWell⟩ caller region).run World.pass w).2
        ((ex.execute host ⟨before ++ after, inkWell⟩ caller region).run World.pass w).2) ∧
    ∀ place : Place,
      (∀ turn, ex.arrival host place s caller region w = some turn → turn.Disables s →
        Ahead s.type w.published
          ((ex.execute host ⟨place.fill [s], inkWell⟩ caller region).run World.pass w).2
          ((ex.execute host ⟨place.fill [], inkWell⟩ caller region).run World.pass w).2) ∧
      (ex.arrival host place s caller region w = none → InStep w.published
        ((ex.execute host ⟨place.fill [s], inkWell⟩ caller region).run World.pass w).2
        ((ex.execute host ⟨place.fill [], inkWell⟩ caller region).run World.pass w).2) := by
  have hspared (place : Place) :=
    arrival_spared processors host place s inkWell callers region w
  constructor
  · intro before after hdisabled
    exact (hspared (.here before after)).2 _ (arrival_here ..) hdisabled
  · intro place
    exact ⟨(hspared place).2, (hspared place).1⟩

/-- A message after a step that sets the flag of its condition: as a step of the flow, inside a
dialog that comes after such a step, and inside a dialog that is itself skipped. The other steps do
the same as without it. -/
theorem disabled_step_leaves_no_trace_dialog :
    let shout : Processor := .scripted (.ofHostTag "shout") 5 none none
    let ex : Executor := ⟨shout :: Registry.builtIn,
      { Config.default with actionTimeout := some 20 },
      Registry.missing?_cons Registry.missing?_builtIn _, rfl⟩
    let said : Action := .simple (.custom "shout" []) none
    let busy : Action := .simple (.setState none [⟨"busy", .bool true⟩] true) none
    let toast : Action := .simple (.showToast (.literal "hi") none) (some (.expression "busy"))
    let dialog (disableIf : Condition) (steps : List Action) : Action :=
      .modal .dialog ⟨.literal "ask", .null, true⟩ (some ⟨steps, false⟩) disableIf
    let regions := (Regions.add [] (Region.make "page" none [])).2
    let w : World := ⟨0, regions, [], .ofCapacity 1, [], [], [], 0⟩
    let after (steps : List Action) : World :=
      ((ex.execute (.silent 0) ⟨steps, false⟩ none (some 0)).run World.pass w).2
    ex.DiscreetProcessors ∧
    Ahead toast.type [] (after [busy, toast, said]) (after [busy, said]) ∧
    Ahead toast.type [] (after [busy, dialog none [said, toast, said], said])
      (after [busy, dialog none [said, said], said]) ∧
    InStep [] (after [busy, dialog (some (.expression "busy")) [toast], said])
      (after [busy, dialog (some (.expression "busy")) [], said]) := by
  intro shout ex said busy toast dialog regions w after
  have processors : ex.DiscreetProcessors := by
    intro p hp
    rcases List.mem_cons.1 hp with rfl | hp
    · exact .inr ⟨rfl, Processor.scripted_oblivious _ 5 none none,
        Processor.scripted_quiet _ 5 none none⟩
    · obtain ⟨type, -, rfl⟩ := List.mem_map.1 hp
      exact .inl ⟨type, rfl⟩
  obtain ⟨hown, hnested⟩ :=
    disabled_step_leaves_no_trace ex (.silent 0) toast false none (some 0) w processors nofun
  let inDialog (disableIf : Condition) (before after : List Action) : Place :=
    .inside [busy] (.onResult .dialog ⟨.literal "ask", .null, true⟩ disableIf) false
      (.here before after) [said]
  refine ⟨processors, hown [busy] [said] (by decide +kernel), ?_, ?_⟩
  · obtain ⟨turn, hturn, hdisables⟩ : ∃ turn,
        ex.arrival (.silent 0) (inDialog none [said] [said]) toast none (some 0) w = some turn ∧
        turn.Disables toast := by
      refine ⟨_, rfl, ?_⟩
      unfold Turn.Disables
      decide +kernel
    exact (hnested (inDialog none [said] [said])).1 turn hturn hdisables
  · have hnever : ex.arrival (.silent 0) (inDialog (some (.expression "busy")) [] []) toast none
        (some 0) w = none := Option.isNone_iff_eq_none.1 (by decide +kernel)
    exact (hnested (inDialog (some (.expression "busy")) [] [])).2 hnever

end Executor

end StepFlow
