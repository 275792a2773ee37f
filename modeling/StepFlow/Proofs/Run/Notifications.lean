import StepFlow.Proofs.Regions
import StepFlow.Proofs.Run.Course

/-!
# Notifications are accounted for

Three types of steps change regions: two of them set values and notify the region if they are told
to, and one does nothing but notify. `Deed.onRegions_of` says once what any step does to the
regions; what it does to one of them follows, and by induction on the course of a run what the steps
do that are executed between two moments. Names of regions mean the same regions all the time, so
that the targets of steps can be told from the regions at the start.
-/

namespace StepFlow

/-! ## What a step does to the regions -/

/-- The region that an operation changes, and how. -/
def Operation.change? (inv : Invocation) (w : World) :
    Operation → Option (RegionId × (Region → Region))
  | .setState name us rebuild =>
    (w.regions.target? inv.region inv.host.appState name).map fun id =>
      (id, fun r => r.setAll (Deed.updates inv w us) rebuild)
  | .rebuildState name =>
    (w.regions.target? inv.region inv.host.appState name).map fun id => (id, Region.flush)
  | .setAppState us rebuild =>
    some (inv.host.appState, fun r => r.setAll (Deed.updates inv w us) rebuild)
  | _ => none

/-- The region that a step changes, and how. -/
def Action.change? (inv : Invocation) (w : World) : Action → Option (RegionId × (Region → Region))
  | .simple o _ => o.change? inv w
  | .modal _ _ _ _ | .request _ _ _ _ => none

/-- Given how the names of regions are resolved, the step is directed at this region. -/
def Action.targets (resolve : Option String → Option RegionId)
    (appState id : RegionId) : Action → Bool
  | .simple (.setState name _ _) _ | .simple (.rebuildState name) _ => resolve name = some id
  | .simple (.setAppState _ _) _ => id = appState
  | _ => false

/-- The region that a step changes is one that it is directed at, and it stays where it is. -/
theorem Action.of_change? {inv : Invocation} {w : World} {a : Action} {id : RegionId}
    {change : Region → Region} (h : a.change? inv w = some (id, change)) :
    a.targets (w.regions.target? inv.region inv.host.appState) inv.host.appState id = true ∧
      Region.KeepsPlace change := by
  cases a with
  | simple o c =>
    cases o with
    | setState name us rebuild =>
      obtain ⟨id, resolved, same⟩ := Option.map_eq_some_iff.1 h
      cases same
      exact ⟨decide_eq_true resolved, Region.keepsPlace_setAll _ _⟩
    | rebuildState name =>
      obtain ⟨id, resolved, same⟩ := Option.map_eq_some_iff.1 h
      cases same
      exact ⟨decide_eq_true resolved, Region.keepsPlace_flush⟩
    | setAppState us rebuild =>
      cases h
      exact ⟨decide_eq_true rfl, Region.keepsPlace_setAll _ _⟩
    | _ => cases h
  | modal kind view onResult c => cases h
  | request source onSuccess onError c => cases h

namespace Deed

/-- What a step comes to that changes the region that it finds. -/
theorem onRegions_of_target {inv : Invocation} {w : World} {a : Action} {name : Option String}
    {change : Region → Region}
    (same : of? inv w a = do
      let id ← target inv w name
      pure (.modify id change)) (rs : Regions) :
    (of inv w a).onRegions rs =
      match w.regions.target? inv.region inv.host.appState name with
      | some id => rs.modify change id
      | none => rs := by
  rw [of, same]
  cases found : target inv w name with
  | ok id =>
    rw [target_eq_ok.1 found]
    rfl
  | error e =>
    have unresolved : w.regions.target? inv.region inv.host.appState name = none := by
      refine Option.eq_none_iff_forall_ne_some.2 fun id resolved => ?_
      cases found.symm.trans (target_eq_ok.2 resolved)
    rw [unresolved]
    rfl

/-- A step changes the regions by its change of one of them, or not at all. -/
theorem onRegions_of (inv : Invocation) (w : World) (a : Action) (rs : Regions) :
    (of inv w a).onRegions rs =
      match a.change? inv w with
      | some (id, change) => rs.modify change id
      | none => rs := by
  have aloof (h : Finds (fun deed => deed.onRegions rs = rs) (of? inv w a)) :
      (of inv w a).onRegions rs = rs := h.of rfl
  cases a with
  | simple o c =>
    cases o with
    | setState name us rebuild =>
      rw [onRegions_of_target rfl, Action.change?, Operation.change?]
      cases w.regions.target? inv.region inv.host.appState name <;> rfl
    | rebuildState name =>
      rw [onRegions_of_target rfl, Action.change?, Operation.change?]
      cases w.regions.target? inv.region inv.host.appState name <;> rfl
    | setAppState us rebuild => rfl
    | controlObject object method args =>
      exact aloof (.bind fun _ => .bind fun _ => .bind fun _ => .pure rfl)
    | delay | noop | custom | navigateBack => rfl
    | _ => exact aloof (.bind fun _ => .pure rfl)
  | modal kind view onResult c => exact aloof (.bind fun _ => .pure rfl)
  | request source onSuccess onError c => exact aloof (.bind fun _ => .pure rfl)

theorem outline_onRegions (inv : Invocation) (w : World) (a : Action) (rs : Regions) :
    ((of inv w a).onRegions rs).outline = rs.outline := by
  rw [onRegions_of]
  cases h : a.change? inv w with
  | none => rfl
  | some found => exact Regions.outline_modify (Action.of_change? h).2 rs found.1

end Deed

/-! ## Which steps notify a region -/

namespace Action

/-- Given how the names of regions are resolved, the step sets values of this
region and notifies it. -/
@[simp] def setsState (resolve : Option String → Option RegionId) (id : RegionId) : Action → Bool
  | .simple (.setState name _ true) _ => resolve name = some id
  | _ => false

@[simp] def rebuildsState (resolve : Option String → Option RegionId)
    (id : RegionId) : Action → Bool
  | .simple (.rebuildState name) _ => resolve name = some id
  | _ => false

/-- The step sets values of the application and notifies its region. -/
@[simp] def setsAppState : Action → Bool
  | .simple (.setAppState _ true) _ => true
  | _ => false

def notifies (resolve : Option String → Option RegionId) (appState id : RegionId)
    (a : Action) : Bool :=
  a.setsState resolve id || a.rebuildsState resolve id || (id = appState && a.setsAppState)

end Action

namespace Deed

variable {inv : Invocation} {w : World} {a : Action} {id : RegionId}

/-- A region that is not the target of a step stays as it is. -/
theorem get?_onRegions (other : a.targets (w.regions.target? inv.region inv.host.appState)
    inv.host.appState id = false) (rs : Regions) :
    ((of inv w a).onRegions rs).get? id = rs.get? id := by
  rw [onRegions_of]
  cases h : a.change? inv w with
  | none => rfl
  | some found =>
    have elsewhere : id ≠ found.1 := by
      rintro rfl
      cases other.symm.trans (Action.of_change? h).1
    exact (Regions.get?_modify found.2 rs found.1 id).trans (if_neg elsewhere)

/-- A step raises the revision of a region by one if it notifies it, and otherwise
leaves it as it is. -/
theorem revision_onRegions (there : id < w.regions.length) :
    ((of inv w a).onRegions w.regions).revision id = w.regions.revision id +
      ((if a.setsState (w.regions.target? inv.region inv.host.appState) id then 1 else 0) +
        (if a.rebuildsState (w.regions.target? inv.region inv.host.appState) id then 1 else 0) +
        if id = inv.host.appState then if a.setsAppState then 1 else 0 else 0) := by
  rw [onRegions_of]
  have written (us : List StateUpdate) (rebuild : Bool) :=
    Regions.revision_modify (fun r => r.revision_setAll (updates inv w us) rebuild) there
  have notified := Regions.revision_modify Region.revision_flush there
  cases a with
  | simple o c =>
    cases o with
    | setState name us rebuild =>
      rw [Action.change?, Operation.change?]
      cases resolved : w.regions.target? inv.region inv.host.appState name with
      | none => cases rebuild <;> simp [resolved]
      | some target =>
        refine (written us rebuild target).trans ?_
        by_cases same : id = target
        · cases rebuild <;> simp [resolved, same]
        · cases rebuild <;> simp [resolved, same, Ne.symm same]
    | rebuildState name =>
      rw [Action.change?, Operation.change?]
      cases resolved : w.regions.target? inv.region inv.host.appState name with
      | none => simp [resolved]
      | some target =>
        refine (notified target).trans ?_
        by_cases same : id = target
        · simp [resolved, same]
        · simp [resolved, same, Ne.symm same]
    | setAppState us rebuild =>
      refine (written us rebuild inv.host.appState).trans ?_
      cases rebuild <;> simp
    | _ => simp [Action.change?, Operation.change?]
  | modal kind view onResult c => simp [Action.change?]
  | request source onSuccess onError c => simp [Action.change?]

end Deed

/-! ## Along a run -/

namespace Executor

variable {ex : Executor} {setting : Setting} {outer : Level} {u v : World}
    {executed : List Executed}
variable {id : RegionId}

theorem Executes.invocation_eq {e : Executed} (h : ex.Executes setting outer e) :
    e.invocation.host = setting.host ∧ e.invocation.region = setting.region := by
  obtain ⟨l, p, -, -, same, -⟩ := h
  rw [same]
  exact ⟨rfl, rfl⟩

namespace Course

/-- Names of regions mean the same before and after. -/
theorem outline (h : ex.Course setting outer u executed v) :
    v.regions.outline = u.regions.outline := by
  induction h with
  | rest still => rw [still.regions]
  | step executes begins done rest ih =>
    rw [ih, done.regions, Executed.deed, Deed.outline_onRegions, begins.regions]

/-- A region that none of the steps is directed at stays as it is. -/
theorem get?_regions (h : ex.Course setting outer u executed v)
    (others : ∀ e ∈ executed,
      e.action.targets (u.regions.target? setting.region setting.host.appState)
      setting.host.appState id = false) : v.regions.get? id = u.regions.get? id := by
  induction h with
  | rest still => rw [still.regions]
  | @step u after v e executed executes begins done rest ih =>
    obtain ⟨other, others⟩ := List.forall_mem_cons.1 others
    obtain ⟨host, region⟩ := executes.invocation_eq
    have same : after.regions.outline = u.regions.outline := by
      rw [done.regions, Executed.deed, Deed.outline_onRegions, begins.regions]
    rw [← host, ← region, ← begins.regions] at other
    rw [ih (by rwa [Regions.target?_congr same]), done.regions, Executed.deed,
      Deed.get?_onRegions other, begins.regions]

/-- The revision of a region grows by the number of steps that notify it. -/
theorem revision_regions (h : ex.Course setting outer u executed v)
    (there : id < u.regions.length) :
    v.regions.revision id = u.regions.revision id +
      (executed.countP (fun e =>
          e.action.setsState (u.regions.target? setting.region setting.host.appState) id) +
        executed.countP (fun e =>
          e.action.rebuildsState (u.regions.target? setting.region setting.host.appState) id) +
        if id = setting.host.appState then executed.countP (fun e => e.action.setsAppState)
        else 0) := by
  induction h with
  | rest still => simp [still.regions]
  | @step u after v e executed executes begins done rest ih =>
    obtain ⟨host, region⟩ := executes.invocation_eq
    have same : after.regions.outline = u.regions.outline := by
      rw [done.regions, Executed.deed, Deed.outline_onRegions, begins.regions]
    have here : (e.deed.onRegions e.world.regions).revision id = _ :=
      Deed.revision_onRegions (begins.regions.symm ▸ there)
    rw [host, region, begins.regions] at here
    have length := Regions.length_eq_of_outline same
    rw [ih (length.symm ▸ there), Regions.target?_congr same, done.regions, begins.regions, here]
    simp only [List.countP_cons]
    by_cases app : id = setting.host.appState
    · simp only [if_pos app]
      omega
    · simp only [if_neg app]
      omega

end Course

theorem exists_notifies_iff (resolve : Option String → Option RegionId) (appState : RegionId) :
    (∃ e ∈ executed, e.action.notifies resolve appState id = true) ↔
      0 < executed.countP (fun e => e.action.setsState resolve id) +
        executed.countP (fun e => e.action.rebuildsState resolve id) +
        if id = appState then executed.countP (fun e => e.action.setsAppState) else 0 := by
  simp only [Action.notifies, Bool.or_eq_true, and_or_left, exists_or, Nat.add_pos_iff_pos_or_pos,
    List.countP_pos_iff]
  by_cases app : id = appState
  · simp [app, List.countP_pos_iff]
  · simp [app]

/-- Of two moments of an execution (its start and its end, and in between the worlds in which it
waits), take an earlier and a later one. The steps that were started between them, in the flow
itself and in flows inside it, are steps of a course from the one world to the other. For each
region that there is, with names understood as they are at the start: its revision has grown by the
number of steps among them that set values of the region by name and rebuild, of those that rebuild
it by name, and, if it is the region of the application, of those that set values there and
rebuild. A region that no step is directed at is the same as before. And whoever watches the
region, and last looked at the earlier moment, sees at the later one that it has changed if and
only if one of the steps notifies it. -/
theorem notifications_accounted (ex : Executor) (processors : ex.AloofProcessors) (host : Host)
    (flow : Flow) (caller : Option (Scope World)) (region : Option RegionId) (w : World) :
    let setting : Setting := ⟨host, region, w.freshId.1⟩
    let outer : Level := topLevel host flow caller region w
    let run : Task World Unit := ex.execute host flow caller region
    let resolve := w.regions.target? region host.appState
    [w, (run.run World.pass w).2].Sublist (w :: run.moments World.pass w) ∧
    ∀ u v, [u, v].Sublist (w :: run.moments World.pass w) →
      ∃ executed, ex.Course setting outer u executed v ∧
        v.startedSteps = u.startedSteps ++ executed.map Executed.name ∧
        ∀ id < w.regions.length,
          (v.regions.revision id = u.regions.revision id +
            (executed.countP (fun e => e.action.setsState resolve id) +
              executed.countP (fun e => e.action.rebuildsState resolve id) +
              if id = host.appState then executed.countP (fun e => e.action.setsAppState) else 0)) ∧
          ((∀ e ∈ executed, e.action.targets resolve host.appState id = false) →
            v.regions.get? id = u.regions.get? id) ∧
          ∀ watcher : Watcher, watcher.region = id →
            ((watcher.look u.regions).hasChanged v.regions = true ↔
              ∃ e ∈ executed, e.action.notifies resolve host.appState id = true) := by
  intro setting outer run resolve
  refine ⟨Task.start_end_sublist run w w, fun u v order => ?_⟩
  have leading := leading_execute processors host flow caller region w
  obtain ⟨executed, course⟩ := leading.related order
  obtain ⟨_, earlier⟩ := leading.from_start (Leads.refl w) order
  have same : w.regions.outline = u.regions.outline := earlier.outline.symm
  refine ⟨executed, course, course.startedSteps, fun id there => ?_⟩
  have names : resolve = u.regions.target? region host.appState :=
    congrFun₂ (Regions.target?_congr same) region host.appState
  have grown : v.regions.revision id = u.regions.revision id +
      (executed.countP (fun e => e.action.setsState resolve id) +
        executed.countP (fun e => e.action.rebuildsState resolve id) +
        if id = host.appState then executed.countP (fun e => e.action.setsAppState) else 0) := by
    rw [names]
    exact course.revision_regions (Regions.length_eq_of_outline same ▸ there)
  refine ⟨grown, ?_, ?_⟩
  · rw [names]
    exact course.get?_regions
  · rintro watcher rfl
    have changed : (watcher.look u.regions).hasChanged v.regions = true ↔
        u.regions.revision watcher.region ≠ v.regions.revision watcher.region := decide_eq_true_iff
    rw [changed, exists_notifies_iff, grown]
    omega

/-- A slow step of the host is cut off. Between the moment when it waits and the end, the flow
of a dialog notifies its region and that of the application; a step that names no region fails,
and one is disabled. -/
theorem notifications_accounted_dialog :
    let slow : Processor := .scripted (.ofHostTag "slow") 100 none none
    let ex : Executor :=
      ⟨slow :: Registry.builtIn, { Config.default with actionTimeout := some 50 },
      Registry.missing?_cons Registry.missing?_builtIn _, rfl⟩
    let inner : Flow :=
      ⟨[.simple (.rebuildState none) none, .simple (.setAppState [] true) none], false⟩
    let flow : Flow := ⟨[.simple (.setState (some "page") [⟨"count", .ofNat 1⟩] true) none,
      .simple (.custom "slow" []) none,
      .modal .dialog ⟨.literal "ask", .null, true⟩ (some inner) none,
      .simple (.setState (some "nowhere") [] true) none,
      .simple (.rebuildState none) (some (.literal true))], false⟩
    let page : Region := Region.make "page" (some 0) []
    let w : World := ⟨0, [Region.make "other" none [], page, Region.make appStateName none []], [],
      .ofCapacity 1, [], [], [], 0⟩
    let host : Host := .silent 0
    let run : Task World Unit := ex.execute host flow none (some 1)
    let u : World := (run.moments World.pass w).headD w
    let v : World := (run.run World.pass w).2
    let resolve := w.regions.target? (some 1) 0
    ex.AloofProcessors ∧ [u, v].Sublist (w :: run.moments World.pass w) ∧ 2 < w.regions.length ∧
    u.regions.map Region.revision = [0, 1, 0] ∧ v.regions.map Region.revision = [0, 2, 1] ∧
    ∃ executed, ex.Course ⟨host, some 1, w.freshId.1⟩ (topLevel host flow none (some 1) w)
      u executed v ∧
      executed.map Executed.name = [⟨"id-1", "id-4", "showDialog", 2⟩,
        ⟨"id-1", "id-5", "rebuildState", 0⟩, ⟨"id-1", "id-6", "setAppState", 1⟩,
        ⟨"id-1", "id-7", "setState", 3⟩] ∧
      v.regions.revision 1 = u.regions.revision 1 +
        (executed.countP (fun e => e.action.setsState resolve 1) +
          executed.countP (fun e => e.action.rebuildsState resolve 1) + 0) ∧
      (∀ e ∈ executed, e.action.targets resolve 0 2 = false) ∧ v.regions.get? 2 = u.regions.get? 2 ∧
      ∃ e ∈ executed, e.action.notifies resolve 0 0 = true := by
  intro slow ex inner flow page w host run u v resolve
  have processors : ex.AloofProcessors := by
    intro p mem
    rcases List.mem_cons.1 mem with rfl | mem
    · exact .inr ⟨rfl, Processor.scripted_aloof _ 100 none none⟩
    · obtain ⟨type, -, rfl⟩ := List.mem_map.1 mem
      exact .inl ⟨type, rfl⟩
  have order : [u, v].Sublist (w :: run.moments World.pass w) := by
    obtain ⟨first, second, last, moments⟩ : ∃ first second last,
        run.moments World.pass w = [first, second, last] :=
          List.length_eq_three.1 (by decide +kernel)
    have began : u = first := congrArg (List.headD · w) moments
    have ended : last = v := by
      have found : (run.moments World.pass w).getLast? = some v := run.getLast?_moments w
      rw [moments] at found
      exact Option.some.inj found
    rw [moments, began, ← ended]
    exact .cons w (.cons_cons first (.cons second (.refl [last])))
  obtain ⟨executed, course, steps, regions⟩ :=
    (notifications_accounted ex processors host flow none (some 1) w).2 u v order
  have names : executed.map Executed.name = [⟨"id-1", "id-4", "showDialog", 2⟩,
      ⟨"id-1", "id-5", "rebuildState", 0⟩, ⟨"id-1", "id-6", "setAppState", 1⟩,
      ⟨"id-1", "id-7", "setState", 3⟩] := by
    have began : u.startedSteps =
        [⟨"id-1", "id-2", "setState", 0⟩, ⟨"id-1", "id-3", "slow", 1⟩] := by decide +kernel
    have ended : v.startedSteps = u.startedSteps ++ [⟨"id-1", "id-4", "showDialog", 2⟩,
        ⟨"id-1", "id-5", "rebuildState", 0⟩, ⟨"id-1", "id-6", "setAppState", 1⟩,
        ⟨"id-1", "id-7", "setState", 3⟩] := by
      rw [began]
      decide +kernel
    exact List.append_cancel_left (steps.symm.trans ended)
  have others : ∀ e ∈ executed, e.action.targets resolve 0 2 = false := by
    have here : ∀ a ∈ flow.steps ++ inner.steps, a.targets resolve 0 2 = false := by decide
    have owned : ∀ a ∈ flow.steps, ∀ slot nested,
        (slot, some nested) ∈ a.nested → nested = inner := by
      simp [flow, Action.nested]
    have innermost : ∀ a ∈ inner.steps, a.nested = [] := by simp [inner, Action.nested]
    intro e mem
    have held : flow.Holds e.action := (course.executes mem).holds rfl
    rcases held with own | ⟨own, nested, within⟩
    · exact here _ (List.mem_append_left _ own)
    · rw [owned _ own _ _ nested] at within
      rcases within with own | ⟨own, nested, -⟩
      · exact here _ (List.mem_append_right _ own)
      · rw [innermost _ own] at nested
        cases nested
  obtain ⟨grown, -, -⟩ := regions 1 (by decide)
  obtain ⟨-, kept, -⟩ := regions 2 (by decide)
  obtain ⟨-, -, watched⟩ := regions 0 (by decide)
  exact ⟨processors, order, by decide, by decide +kernel, by decide +kernel, executed,
    course, names, grown, others, kept others, (watched ⟨0, 0⟩ rfl).1 (by decide +kernel)⟩

end Executor

end StepFlow
