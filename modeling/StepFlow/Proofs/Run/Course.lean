import StepFlow.Proofs.Run.Moments
import StepFlow.Proofs.Run.Normalized
import StepFlow.Proofs.Run.Visibility

/-!
# The course of a run

What a run does to the regions and to the bus is done by the steps that it executes, by each of them
at once: a built-in step does its deed before anybody else sees the world, and the executor itself
touches neither. So the way from one moment of a run to a later one is a course of executed steps.
`Course` follows it step by step, and says of each step in which flow it stands, in which world its
processor began, and what it did.

Steps that are skipped, or that are refused before they have done anything, take no part in this;
nor does it matter whether a time limit cuts a step off, since by then its deed is done.
-/

namespace StepFlow

namespace Deed

/-- What a deed makes of the regions. -/
def onRegions : Deed → Regions → Regions
  | .modify id change, rs => rs.modify change id
  | _, rs => rs

/-- What a deed makes of the bus. -/
def onBus : Deed → Bus → Bus
  | .post m, bus => (bus.send m).2
  | _, bus => bus

end Deed

/-- The step whose start an event tells. -/
def Event.startedStep? : Event → Option StepRef
  | .actionStarted step => some step
  | _ => none

namespace World

/-- The steps that were started, the earliest first. -/
def startedSteps (w : World) : List StepRef := w.published.filterMap Event.startedStep?

theorem startedSteps_emit (e : Event) (w : World) :
    (w.emit e).startedSteps = w.startedSteps ++ e.startedStep?.toList := by
  rw [startedSteps, published_emit, List.filterMap_append]
  cases found : e.startedStep? <;> simp [found, startedSteps]

/-- From one world to another, regions and bus stay as they are and no step is started. -/
structure Still (u v : World) : Prop where
  regions : v.regions = u.regions
  bus : v.bus = u.bus
  startedSteps : v.startedSteps = u.startedSteps

namespace Still

variable {u v v' : World}

theorem refl (w : World) : Still w w := ⟨rfl, rfl, rfl⟩

theorem trans (h : Still u v) (h' : Still v v') : Still u v' where
  regions := h'.regions.trans h.regions
  bus := h'.bus.trans h.bus
  startedSteps := h'.startedSteps.trans h.startedSteps

theorem pass (ms : Nat) (w : World) : Still w (w.pass ms) := ⟨rfl, rfl, rfl⟩

theorem freshId (w : World) : Still w w.freshId.2 := ⟨rfl, rfl, rfl⟩

theorem emit {e : Event} (other : e.startedStep? = none) (w : World) : Still w (w.emit e) where
  regions := rfl
  bus := rfl
  startedSteps := by
    rw [startedSteps_emit, other]
    exact List.append_nil _

end Still

end World

open World (Still)

/-! ## Deeds are done at once -/

namespace Deed

/-- A world in which a deed has been done. -/
structure Done (deed : Deed) (w v : World) : Prop where
  regions : v.regions = deed.onRegions w.regions
  bus : v.bus = deed.onBus w.bus
  published : v.published = w.published

/-- Once a deed is done, nothing more comes of it. -/
theorem Done.still {deed : Deed} {w v v' : World} (h : deed.Done w v) (h' : deed.Done w v') :
    v.Still v' where
  regions := h'.regions.trans h.regions.symm
  bus := h'.bus.trans h.bus.symm
  startedSteps := congrArg (List.filterMap Event.startedStep?) (h'.published.trans h.published.symm)

theorem done_run (host : Host) (deed : Deed) (w : World) :
    ∀ v ∈ (deed.run host).moments World.pass w, deed.Done w v := by
  cases deed with
  | nothing => exact List.forall_mem_singleton.2 ⟨rfl, rfl, rfl⟩
  | modify id change => exact List.forall_mem_singleton.2 ⟨rfl, rfl, rfl⟩
  | call object method args =>
    rw [Task.moments_of_settle, settle_run_call]
    cases w.objects.call host.methods w.clock object method args <;>
      exact List.forall_mem_singleton.2 ⟨rfl, rfl, rfl⟩
  | post m => exact List.forall_mem_singleton.2 ⟨rfl, rfl, rfl⟩
  | rest ms =>
    exact List.forall_mem_cons.2 ⟨⟨rfl, rfl, rfl⟩, List.forall_mem_singleton.2 ⟨rfl, rfl, rfl⟩⟩
  | hand e answered =>
    exact List.forall_mem_cons.2 ⟨⟨rfl, rfl, rfl⟩, List.forall_mem_singleton.2 ⟨rfl, rfl, rfl⟩⟩

/-- The deed of a step in a world; a step that is refused does nothing. -/
def of (inv : Invocation) (w : World) (a : Action) : Deed :=
  match of? inv w a with
  | .ok deed => deed
  | .error _ => .nothing

theorem done_carryOut (inv : Invocation) (w : World) (a : Action) :
    ∀ v ∈ (Processor.carryOut inv a).run.moments World.pass w, (of inv w a).Done w v := by
  rw [Task.moments_of_settle, settle_carryOut, of]
  cases of? inv w a with
  | error e => exact List.forall_mem_singleton.2 ⟨rfl, rfl, rfl⟩
  | ok deed =>
    have done := done_run inv.host deed w
    rwa [Task.moments_of_settle] at done

/-- Whatever deed is found, it is of a kind. -/
def Finds (P : Deed → Prop) (found : Except ActionError Deed) : Prop :=
  ∀ deed, found = .ok deed → P deed

namespace Finds

variable {P : Deed → Prop}

theorem bind {α : Type} {found : Except ActionError α} {f : α → Except ActionError Deed}
    (h : ∀ a, Finds P (f a)) : Finds P (found >>= f) := by
  cases found with
  | ok a => exact h a
  | error e => exact nofun

theorem pure {deed : Deed} (h : P deed) : Finds P (Pure.pure deed) := by
  rintro _ ⟨⟩
  exact h

theorem of {inv : Invocation} {w : World} {a : Action} (h : Finds P (of? inv w a))
    (nothing : P .nothing) :
    P (of inv w a) := by
  rw [Deed.of]
  cases found : of? inv w a with
  | ok deed => exact h deed found
  | error e => exact nothing

end Finds

end Deed

/-- The message that a step sends. Only one type of steps sends messages, and only on a channel
whose name can be told. -/
def Action.message? (inv : Invocation) (w : World) : Action → Option Message
  | .simple (.postMessage name payload) _ =>
    (Deed.required inv w name "name").toOption.map fun name =>
      ⟨name, Deed.document inv w payload, some inv.executionId⟩
  | _ => none

namespace Deed

/-- All that a step does to the bus is to send its message. -/
theorem onBus_of (inv : Invocation) (w : World) (a : Action) (bus : Bus) :
    (of inv w a).onBus bus = ((a.message? inv w).map fun m => (bus.send m).2).getD bus := by
  have silent (h : Finds (fun deed => deed.onBus bus = bus) (of? inv w a)) :
      (of inv w a).onBus bus = bus := h.of rfl
  cases a with
  | simple o c =>
    cases o with
    | postMessage name payload =>
      rw [Action.message?, of, of?, ofOperation]
      cases required inv w name "name" <;> rfl
    | setState | rebuildState | showToast | navigateToPage | openUrl | share | copyToClipboard
    | fireEvent =>
      exact silent (.bind fun _ => .pure rfl)
    | controlObject => exact silent (.bind fun _ => .bind fun _ => .bind fun _ => .pure rfl)
    | navigateBack | setAppState | delay | noop | custom => rfl
  | modal kind view onResult c => exact silent (.bind fun _ => .pure rfl)
  | request source onSuccess onError c => exact silent (.bind fun _ => .pure rfl)

/-- The steps of no type that is built in, and those that are to do nothing, do
nothing by themselves. -/
theorem of_eq_nothing {a : Action} (idle : a.type = .builtIn .noop ∨ a.type.isCustom = true)
    (inv : Invocation) (w : World) : of inv w a = .nothing := by
  cases a with
  | simple o c =>
    cases o with
    | noop tag => rfl
    | custom tag fields => rfl
    | _ => rcases idle with idle | idle <;> cases idle
  | modal kind view onResult c => cases kind <;> rcases idle with idle | idle <;> cases idle
  | request source onSuccess onError c => rcases idle with idle | idle <;> cases idle

end Deed

/-! ## Processors -/

/-- A processor that leaves the regions, the bus and the events alone, at every
moment of its work. -/
def Processor.Aloof (p : Processor) : Prop :=
  ∀ inv a w, ∀ v ∈ (p.run inv a).run.moments World.pass w, Deed.nothing.Done w v

theorem Processor.scripted_aloof (type : ActionType) (waitMs : Nat) (failure : Option String)
    (timeout : Option Nat) : (scripted type waitMs failure timeout).Aloof := by
  intro inv a w
  have same : Deed.nothing.Done w w := ⟨rfl, rfl, rfl⟩
  cases a with
  | simple o c =>
    cases o with
    | custom tag fields =>
      cases failure <;>
        exact List.forall_mem_cons.2 ⟨⟨rfl, rfl, rfl⟩, List.forall_mem_singleton.2 ⟨rfl, rfl, rfl⟩⟩
    | _ => exact List.forall_mem_singleton.2 same
  | modal kind view onResult c => exact List.forall_mem_singleton.2 same
  | request source onSuccess onError c => exact List.forall_mem_singleton.2 same

namespace Executor

variable {ex : Executor} {setting : Setting} {outer l : Level}

/-- What is asked of the processors of an executor: the built-in ones, and others for the types of
the host, which leave regions, bus and events alone. -/
def AloofProcessors (ex : Executor) : Prop :=
  ∀ p ∈ ex.registry, (∃ type, p = Processor.ofBuiltIn type) ∨ (p.type.isCustom = true ∧ p.Aloof)

theorem aloofProcessors_builtIn (builtIn : ex.registry = Registry.builtIn) :
    ex.AloofProcessors := by
  intro p mem
  rw [builtIn] at mem
  obtain ⟨type, -, rfl⟩ := List.mem_map.1 mem
  exact .inl ⟨type, rfl⟩

/-- A built-in processor is handed steps of its own type, except that the one which does nothing is
also handed steps of unknown types. -/
theorem type_of_resolve_builtIn {a : Action} {type : BuiltIn}
    (resolved : ex.resolve a.type = some (.ofBuiltIn type)) :
    a.type = .builtIn type ∨ (type = .noop ∧ a.type.isCustom = true) := by
  rcases resolve_cases resolved with found | ⟨unknown, found⟩
  · exact .inl (type_of_find? found).symm
  · -- the built-in types are all known
    refine .inr ⟨ActionType.builtIn.inj (type_of_find? found), ?_⟩
    have unknown : ex.knownTypes.isKnown a.type = false := by
      rw [isKnown_eq_isSome, unknown]
      rfl
    cases known : a.type with
    | builtIn _ =>
      rw [known] at unknown
      cases unknown
    | custom name => rfl

/-- A built-in processor does the deed of the step that it is handed, or is left
with nothing to do. -/
theorem run_builtIn_cases {a : Action} {type : BuiltIn}
    (resolved : ex.resolve a.type = some (.ofBuiltIn type)) (inv : Invocation) :
    ((Processor.ofBuiltIn type).run inv a = Processor.carryOut inv a) ∨
      ((Processor.ofBuiltIn type).run inv a = pure none ∧
        (a.type = .builtIn .noop ∨ a.type.isCustom = true)) := by
  have own := type_of_resolve_builtIn resolved
  by_cases noop : type = .noop
  · subst noop
    exact .inr ⟨rfl, own.imp_right And.right⟩
  · have same : a.type = .builtIn type := own.resolve_right fun unknown => noop unknown.1
    exact .inl ((if_neg noop).trans (if_pos same))

theorem done_builtIn {a : Action} {type : BuiltIn}
    (resolved : ex.resolve a.type = some (.ofBuiltIn type)) (inv : Invocation) (w : World) :
    ∀ v ∈ ((Processor.ofBuiltIn type).run inv a).run.moments World.pass w,
      (Deed.of inv w a).Done w v := by
  rcases run_builtIn_cases resolved inv with carried | ⟨nothing, idle⟩
  · rw [carried]
    exact Deed.done_carryOut inv w a
  · rw [nothing, Deed.of_eq_nothing idle]
    exact List.forall_mem_singleton.2 ⟨rfl, rfl, rfl⟩

/-- A processor does the deed of the step that it is handed. -/
theorem done_processor (processors : ex.AloofProcessors) {a : Action} {p : Processor}
    (resolved : ex.resolve a.type = some p) (inv : Invocation) (w : World) :
    ∀ v ∈ (p.run inv a).run.moments World.pass w, (Deed.of inv w a).Done w v := by
  rcases processors p (mem_of_resolve resolved) with ⟨type, rfl⟩ | ⟨custom, aloof⟩
  · exact done_builtIn resolved inv w
  · have same : p.type = a.type := by
      rcases resolve_cases resolved with found | ⟨-, found⟩
      · exact type_of_find? found
      · rw [type_of_find? found] at custom
        cases custom
    rw [Deed.of_eq_nothing (.inr (same ▸ custom))]
    exact aloof inv a w

end Executor

/-! ## Executed steps -/

/-- A step that was handed to its processor. -/
structure Executed where
  /-- The place in its flow, from zero. -/
  index : Nat
  action : Action
  invocation : Invocation
  /-- The world in which the processor begins. -/
  world : World

namespace Executed

def name (e : Executed) : StepRef :=
  ⟨e.invocation.executionId, e.invocation.actionId, e.action.type.name, e.index⟩

def deed (e : Executed) : Deed := Deed.of e.invocation e.world e.action

/-- The message that the step sent, if it did. -/
def posted? (e : Executed) : Option Message := e.action.message? e.invocation e.world

/-- From a world on nothing is done before the step is started, upon which its processor begins. -/
structure Begins (e : Executed) (u : World) : Prop where
  regions : e.world.regions = u.regions
  bus : e.world.bus = u.bus
  startedSteps : e.world.startedSteps = u.startedSteps ++ [e.name]

namespace Begins

variable {e : Executed} {u w : World}

theorem of_still (still : u.Still w) (h : e.Begins w) : e.Begins u where
  regions := h.regions.trans still.regions
  bus := h.bus.trans still.bus
  startedSteps := h.startedSteps.trans (congrArg (· ++ [e.name]) still.startedSteps)

theorem of_emit (starts : e.world = w.emit (.actionStarted e.name)) : e.Begins w where
  regions := by
    rw [starts]
    rfl
  bus := by
    rw [starts]
    rfl
  startedSteps := by
    rw [starts, World.startedSteps_emit]
    rfl

end Begins

end Executed

namespace Executor

variable (ex : Executor) (setting : Setting) (outer : Level)

/-- A step comes up in an execution, in its own flow or in one that is entered from there, and is
handed to its processor. -/
def Executes (e : Executed) : Prop :=
  ∃ l p, ex.Enters setting outer l ∧ ex.Hands setting l e.index e.action p ∧
    e.invocation = invocation setting l.scope (ex.worldAt setting l e.index) ∧
    e.world = started setting e.index e.action (ex.worldAt setting l e.index)

/-- By executing these steps, one after another, a run of the level gets from one world to another.
Each of them is started, after which its processor begins, and its deed is done. -/
inductive Course : World → List Executed → World → Prop
  | rest {u v} (still : u.Still v) : Course u [] v
  | step {u after v e executed} (executes : ex.Executes setting outer e) (begins : e.Begins u)
      (done : e.deed.Done e.world after) (rest : Course after executed v) :
        Course u (e :: executed) v

/-- A run of the level can get from one world to another. -/
def Leads (u v : World) : Prop := ∃ executed, ex.Course setting outer u executed v

variable {ex setting outer} {u v v' : World} {executed executed' : List Executed} {e : Executed}

/-- A step that an execution of a flow executes is in the flow, or in a flow inside it. -/
theorem Executes.holds (h : ex.Executes setting outer e) {flow : Flow}
    (steps : flow.steps = outer.steps) :
    flow.Holds e.action := by
  obtain ⟨l, p, entered, hands, -⟩ := h
  exact entered.holds steps (List.mem_of_getElem? hands.step)

/-- If no step owns a flow, executed steps are in their places. -/
theorem Executes.getElem? (h : ex.Executes setting outer e)
    (flat : ∀ a ∈ outer.steps, ∀ slot, a.flowIn slot = none) :
    outer.steps[e.index]? = some e.action := by
  obtain ⟨l, p, entered, hands, -⟩ := h
  cases entered using Relation.ReflTransGen.head_induction_on with
  | refl => exact hands.step
  | head launched rest =>
    obtain ⟨_, a, _, flow, -, hands, -, owned, -⟩ := launched.owner
    cases (flat a (List.mem_of_getElem? hands.step) _).symm.trans owned

namespace Course

theorem trans (h : ex.Course setting outer u executed v)
    (h' : ex.Course setting outer v executed' v') :
    ex.Course setting outer u (executed ++ executed') v' := by
  induction h with
  | rest still =>
    cases h' with
    | rest still' => exact .rest (still.trans still')
    | step executes begins done rest => exact .step executes (begins.of_still still) done rest
  | step executes begins done rest ih => exact .step executes begins done (ih h')

/-- The steps of a course are those that were started on the way. -/
theorem startedSteps (h : ex.Course setting outer u executed v) :
    v.startedSteps = u.startedSteps ++ executed.map Executed.name := by
  induction h with
  | rest still => exact still.startedSteps.trans (List.append_nil _).symm
  | @step u after v e executed executes begins done rest ih =>
    have here : after.startedSteps = u.startedSteps ++ [e.name] :=
      (congrArg (List.filterMap Event.startedStep?) done.published).trans begins.startedSteps
    rw [ih, here, List.append_assoc]
    rfl

theorem executes (h : ex.Course setting outer u executed v) (mem : e ∈ executed) :
    ex.Executes setting outer e := by
  induction h with
  | rest => cases mem
  | step executes begins done rest ih =>
    rcases List.mem_cons.1 mem with rfl | mem
    · exact executes
    · exact ih mem

/-- All that happens to the bus is that messages are sent, in the order of the steps. -/
theorem bus (h : ex.Course setting outer u executed v) :
    v.bus = (executed.filterMap Executed.posted?).foldl (fun bus m => (bus.send m).2) u.bus := by
  induction h with
  | rest still => exact still.bus
  | @step u after v e executed executes begins done rest ih =>
    rw [ih, done.bus, begins.bus, Executed.deed, Deed.onBus_of, ← Executed.posted?,
      List.filterMap_cons]
    cases e.posted? <;> rfl

end Course

namespace Leads

theorem of_still (still : u.Still v) : ex.Leads setting outer u v := ⟨[], .rest still⟩

theorem refl (w : World) : ex.Leads setting outer w w := of_still (Still.refl w)

theorem later (ms : Nat) (w : World) : ex.Leads setting outer w (w.pass ms) :=
  of_still (Still.pass ms w)

instance : Trans (ex.Leads setting outer) (ex.Leads setting outer) (ex.Leads setting outer) where
  trans := fun ⟨executed, h⟩ ⟨executed', h'⟩ => ⟨executed ++ executed', h.trans h'⟩

end Leads

/-! ## The steps of a level -/

/-- From one moment of a task to the next, only steps of the level and of those
inside it are executed. -/
abbrev Leading {α : Type} (ex : Executor) (setting : Setting) (outer : Level) (u : World)
    (t : Task World α) (w : World) : Prop :=
  t.Follows World.pass (ex.Leads setting outer) u w

theorem leading_attempt (processors : ex.AloofProcessors) {e : Executed} {p : Processor} {u : World}
    {nested : Slot → Scope World → Task World Unit} (resolved : ex.resolve e.action.type = some p)
    (executes : ex.Executes setting outer e) (begins : e.Begins u)
    (hnested : ∀ launch v, (p.run e.invocation e.action).run.run World.pass e.world =
      (.ok (some launch), v) →
        ex.Leading setting outer v
          (nested launch.slot (e.invocation.scope.extend launch.bound)) v) :
    ex.Leading setting outer u (attempt e.invocation p e.action nested) e.world := by
  have worked : ex.Leading setting outer u (p.run e.invocation e.action).run e.world := by
    apply Task.Follows.of_known (done_processor processors resolved e.invocation e.world)
    · intro v done
      exact ⟨[e], .step executes begins done (.rest (Still.refl v))⟩
    · intro v v' done done'
      exact .of_still (done.still done')
  apply worked.bind
  rcases outcome : (p.run e.invocation e.action).run.run World.pass e.world with ⟨result, v⟩
  match result with
  | .error error => exact Leads.refl v
  | .ok none => exact Leads.refl v
  | .ok (some launch) => exact (hnested launch v outcome).mapResult Leads.refl

theorem leading_within {t : Task World (Except ActionError Unit)} {w : World} (limit : Option Nat)
    (h : ex.Leading setting outer u t w) : ex.Leading setting outer u (within limit t) w := by
  cases limit with
  | none => exact h
  | some ms => exact (h.limit Leads.later ms).mapResult Leads.refl

theorem leading_step (processors : ex.AloofProcessors) (entered : ex.Enters setting outer l)
    {index : Nat} {a : Action} (step : l.steps[index]? = some a)
    {nested : Slot → Scope World → Task World Unit}
    (hnested : ∀ p launch v, ex.Hands setting l index a p →
      ex.work setting l index a p = (.ok (some launch), v) →
      ex.Leading setting outer v (nested launch.slot (l.scope.extend launch.bound)) v) :
    ex.Leading setting outer (ex.worldAt setting l index) (ex.step setting l.scope index a nested)
      (ex.worldAt setting l index) := by
  have fresh := Still.freshId (ex.worldAt setting l index)
  apply Task.Follows.modifyGet_iff.2
  apply Task.Follows.read_iff.2
  cases disabled : a.isDisabled (l.scope.lookup (ex.worldAt setting l index).freshId.2) with
  | true => exact .of_still (fresh.trans (Still.emit rfl _))
  | false =>
    cases resolved : ex.resolve a.type with
    | none => exact .of_still (fresh.trans (Still.emit rfl _))
    | some p =>
      have hands : ex.Hands setting l index a p := ⟨step, disabled, resolved⟩
      have attempted := leading_attempt processors
        (e := ⟨index, a, invocation setting l.scope (ex.worldAt setting l index),
          started setting index a (ex.worldAt setting l index)⟩)
        resolved ⟨l, p, entered, hands, rfl, rfl⟩ (.of_still fresh (.of_emit rfl))
        fun launch v outcome => hnested p launch v hands outcome
      apply Task.Follows.modify_iff.2
      apply Task.Follows.read_iff.2
      apply (leading_within (ex.limitFor p) attempted).bind
      apply Task.Follows.read_iff.2
      cases ((within (ex.limitFor p) _).run World.pass _).1 with
      | ok _ => exact .of_still (Still.emit rfl _)
      | error error => exact .of_still (Still.emit rfl _)

/-- The steps of a level are executed from the world in which the first of them comes up. -/
theorem leading_runSteps (processors : ex.AloofProcessors) (entered : ex.Enters setting outer l) :
    ex.Leading setting outer l.world (ex.runSteps setting l.scope 0 l.steps) l.world := by
  refine entered.steps_induction (P := fun l index rest =>
    ex.Leading setting outer (ex.worldAt setting l index) (ex.runSteps setting l.scope index rest)
      (ex.worldAt setting l index)) ?_ ?_
  · intro l index _
    exact Leads.refl _
  · intro l index a rest entered step flows others
    have first : ex.Leading setting outer (ex.worldAt setting l index)
        (ex.runStep setting l.scope index a) (ex.worldAt setting l index) := by
      rw [runStep_eq]
      apply leading_step processors entered step
      intro p launch v hands work
      rw [runNested_eq]
      cases owned : a.flowIn launch.slot with
      | none => exact Leads.refl v
      | some flow => exact (flows p launch flow v hands work owned).mapResult Leads.refl
    rw [worldAt_succ step] at others
    exact first.bind (others.mapResult Leads.refl)

/-- From one moment of an execution to the next, only steps of its flow and of the flows inside are
executed. -/
theorem leading_execute (processors : ex.AloofProcessors) (host : Host) (flow : Flow)
    (caller : Option (Scope World)) (region : Option RegionId) (w : World) :
    ex.Leading ⟨host, region, w.freshId.1⟩ (topLevel host flow caller region w) w
      (ex.execute host flow caller region) w := by
  have steps := leading_runSteps processors
    (.refl : ex.Enters ⟨host, region, w.freshId.1⟩ (topLevel host flow caller region w) _)
  have begins : w.Still (begun flow.steps.length w) := (Still.freshId w).trans (Still.emit rfl _)
  apply Task.Follows.modifyGet_iff.2
  apply Task.Follows.modify_iff.2
  exact (steps.from_earlier (.of_still begins)).bind (.of_still (Still.emit rfl _))

end Executor

end StepFlow
