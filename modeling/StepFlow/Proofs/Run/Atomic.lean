import StepFlow.Executor
import StepFlow.Proofs.Run.Deed
import StepFlow.Proofs.Run.Waits

/-!
# Failed steps have done nothing

A built-in step looks before it does its one deed, and a deed that fails has changed nothing, except
that an effect which was handed to the host stays on record. So a step that fails for want of a
parameter, a region, an object or a method leaves the world as it was, and one that fails because an
effect did leaves it with this effect handed over and nothing else. The flows that a step owns run
only after its deed, and whatever becomes of them the step does not fail for it.

A time limit can cut a step off anywhere, so that nothing of the kind holds of a
step that ran out of time.
-/

namespace StepFlow

/-- An effect failed. -/
def ActionError.OfEffect : ActionError → Prop
  | .effectFailed _ => True
  | _ => False

/-- Where a host refuses an effect, the effect failed. -/
def Host.RefusesEffects (host : Host) : Prop :=
  ∀ past e err, (host.perform past e).result = .error err → err.OfEffect

theorem Host.agreed_refusesEffects (responses failures : Object) (appState : RegionId) :
    (agreed responses failures appState).RefusesEffects := by
  intro past e err h
  dsimp only [agreed] at h
  split at h
  · cases h
    trivial
  · cases h

/-! ## Methods -/

/-- A method performs no effect, so none of its errors is that an effect failed. -/
def MethodOf.Effectless {κ : Type} {State : κ → Type} (m : MethodOf State) : Prop :=
  ∀ now args state err, m.run now args state = .error err → ¬ err.OfEffect

namespace Methods

theorem plain_effectless (kind : ControlKind) (run : Object → kind.State → Value × kind.State) :
    (plain kind run).Effectless := by
  intro now args state err h
  cases h

theorem timer_effectless : ∀ entry ∈ timer, entry.2.Effectless := by
  intro entry hentry
  simp only [timer, List.mem_cons, List.not_mem_nil, or_false] at hentry
  rcases hentry with rfl | rfl | rfl | rfl | rfl
  · intro now args (t : Timer) err h
    replace h : (t.start now).map (fun r => (Value.bool r.1, r.2)) = .error err := h
    unfold Timer.start at h
    split at h
    · cases h
      exact id
    · split at h <;> cases h
  all_goals exact plain_effectless _ _

theorem stream_effectless : ∀ entry ∈ stream, entry.2.Effectless := by
  intro entry hentry
  simp only [stream, List.mem_cons, List.not_mem_nil, or_false] at hentry
  rcases hentry with rfl | rfl
  · intro now args (s : StreamControl) err h
    replace h : (s.add ((Object.get? args "value").getD .null)).map
        (fun r => (Value.ofNat r.1, r.2)) = .error err := h
    unfold StreamControl.add at h
    split at h
    · cases h
      exact id
    · cases h
  · exact plain_effectless _ _

theorem cancelToken_effectless : ∀ entry ∈ cancelToken, entry.2.Effectless := by
  intro entry hentry
  obtain rfl := List.mem_singleton.1 hentry
  exact plain_effectless _ _

theorem text_effectless : ∀ entry ∈ text, entry.2.Effectless := by
  intro entry hentry
  simp only [text, List.mem_cons, List.not_mem_nil, or_false] at hentry
  rcases hentry with rfl | rfl | rfl
  all_goals exact plain_effectless _ _

theorem scroll_effectless : ∀ entry ∈ scroll, entry.2.Effectless := by
  intro entry hentry
  simp only [scroll, List.mem_cons, List.not_mem_nil, or_false] at hentry
  rcases hentry with rfl | rfl
  all_goals exact plain_effectless _ _

theorem registerAll_effectless {ms : Methods} {category : String} {methods : List (String × Method)}
    (hms : ∀ r ∈ ms, r.method.Effectless) (hmethods : ∀ entry ∈ methods, entry.2.Effectless) :
    ∀ r ∈ ms.registerAll category methods, r.method.Effectless := by
  induction methods generalizing ms with
  | nil => exact hms
  | cons entry rest ih =>
    apply ih
    · intro r hr
      rcases List.mem_cons.1 hr with rfl | hr
      · exact hmethods entry List.mem_cons_self
      · exact hms r hr
    · exact fun entry hentry => hmethods entry (List.mem_cons_of_mem _ hentry)

theorem builtIn_effectless : ∀ r ∈ builtIn, r.method.Effectless := by
  apply registerAll_effectless ?_ scroll_effectless
  apply registerAll_effectless ?_ stream_effectless
  apply registerAll_effectless ?_ text_effectless
  apply registerAll_effectless ?_ cancelToken_effectless
  apply registerAll_effectless ?_ timer_effectless
  exact fun r hr => nomatch hr

theorem call_effectless {ms : Methods} (hms : ∀ r ∈ ms, r.method.Effectless)
    {now : Nat} {c : Control}
    {name : String} {args : Object} {err : ActionError} (h : ms.call now c name args = .error err) :
    ¬ err.OfEffect := by
  unfold MethodsOf.call at h
  split at h
  · split at h
    · next m hfind =>
      obtain ⟨r, hr, rfl⟩ := Option.map_eq_some_iff.1 hfind
      unfold MethodOf.call at h
      split at h
      · next hkind =>
        cases hrun : r.method.run now args (hkind ▸ c.state) with
        | ok result =>
          rw [hrun] at h
          cases h
        | error e =>
          rw [hrun] at h
          cases h
          exact hms r (List.mem_of_find?_eq_some hr) now args _ _ hrun
      · cases h
        exact id
    · cases h
      exact id
  · cases h
    exact id

end Methods

theorem ObjectStore.call_effectless {store : ObjectStore} {ms : Methods}
    (hms : ∀ r ∈ ms, r.method.Effectless) {now : Nat} {object method : String} {args : Object}
    {err : ActionError} (h : store.call ms now object method args = .error err) :
    ¬ err.OfEffect := by
  unfold call at h
  split at h
  · cases h
    exact id
  · split at h
    · cases h
      exact id
    · next o _ =>
      cases hcall : ms.call now o.control method args with
      | ok result =>
        rw [hcall] at h
        cases h
      | error e =>
        rw [hcall] at h
        cases h
        exact Methods.call_effectless hms hcall

/-! ## Deeds -/

namespace Deed

variable {α β : Type} {inv : Invocation} {w : World}

/-- What was found satisfies `P`; if nothing was, this is not for a failed effect. -/
def Found (P : α → Prop) : Except ActionError α → Prop
  | .ok a => P a
  | .error e => ¬ e.OfEffect

theorem Found.bind {P : α → Prop} {Q : β → Prop} {found : Except ActionError α}
    {f : α → Except ActionError β} (h : Found P found) (hf : ∀ a, P a → Found Q (f a)) :
    Found Q (found >>= f) := by
  cases found with
  | ok a => exact hf a h
  | error e => exact h

theorem Found.pure {P : α → Prop} {a : α} (h : P a) :
    Found P (Pure.pure a : Except ActionError α) := h

theorem found_required {shape : Shape} (inv : Invocation) (w : World) (field : ExprOr shape)
    (name : String) : Found (fun _ => True) (required inv w field name) := by
  unfold required
  split
  · trivial
  · exact id

theorem found_target (inv : Invocation) (w : World) (region : Option String) :
    Found (fun _ => True) (target inv w region) := by
  unfold target
  split
  · split
    · trivial
    · exact id
  · split
    · trivial
    · split
      · trivial
      · exact id

theorem found_arguments (v : Value) : Found (fun _ => True) (arguments v) := by
  unfold arguments
  split
  · trivial
  · trivial
  · exact id

/-- If the host's refusals are failed effects, then a deed that hands an effect over only fails like
this. -/
def Fair : Deed → Prop
  | .hand _ answered => ∀ answer err, (∀ e, answer = .error e → e.OfEffect) →
      answered answer = .error err → err.OfEffect
  | _ => True

theorem fair_map (e : Effect) (f : Value → Option Launch) :
    (Deed.hand e fun answer => answer.map f).Fair := by
  intro answer err hanswer h
  cases answer with
  | ok v => cases h
  | error refusal =>
    cases h
    exact hanswer _ rfl

theorem requestFailed_eq_error {onError : Option Flow} {response : Value} {reason : String}
    {err : ActionError} (h : requestFailed onError response reason = .error err) :
    err.OfEffect := by
  cases onError with
  | none =>
    cases h
    trivial
  | some flow => cases h

theorem fair_request (e : Effect) (url : String) (onError : Option Flow) :
    (Deed.hand e (requestAnswered url onError)).Fair := by
  intro answer err _ h
  cases answer with
  | error e => exact requestFailed_eq_error h
  | ok response =>
    unfold requestAnswered at h
    dsimp only at h
    split at h
    · cases h
    · exact requestFailed_eq_error h

theorem found_ofOperation (inv : Invocation) (w : World) (o : Operation) :
    Found Fair (ofOperation inv w o) := by
  cases o with
  | showToast message duration =>
    exact (found_required _ _ _ _).bind fun _ _ => .pure (fair_map _ _)
  | setState region us rebuild => exact (found_target _ _ _).bind fun _ _ => trivial
  | rebuildState region => exact (found_target _ _ _).bind fun _ _ => trivial
  | navigateToPage pageId args replace =>
    exact (found_required _ _ _ _).bind fun _ _ => .pure (fair_map _ _)
  | navigateBack result => exact .pure (fair_map _ _)
  | openUrl url launchMode => exact (found_required _ _ _ _).bind fun _ _ => .pure (fair_map _ _)
  | setAppState us rebuild => trivial
  | controlObject object method args =>
    refine (found_required _ _ _ _).bind fun _ _ => ?_
    refine (found_required _ _ _ _).bind fun _ _ => ?_
    exact (found_arguments _).bind fun _ _ => trivial
  | share message subject => exact (found_required _ _ _ _).bind fun _ _ => .pure (fair_map _ _)
  | delay duration => trivial
  | copyToClipboard message => exact (found_required _ _ _ _).bind fun _ _ => .pure (fair_map _ _)
  | postMessage name payload => exact (found_required _ _ _ _).bind fun _ _ => trivial
  | fireEvent name payload => exact (found_required _ _ _ _).bind fun _ _ => .pure (fair_map _ _)
  | noop originalTag => trivial
  | custom tag fields => trivial

/-- A step is never refused for a failed effect, and its deed is fair. -/
theorem found_of? (inv : Invocation) (w : World) (a : Action) : Found Fair (of? inv w a) := by
  cases a with
  | simple o c => exact found_ofOperation inv w o
  | modal kind view onResult c =>
    exact (found_required _ _ _ _).bind fun _ _ => .pure (fair_map _ _)
  | request source onSuccess onError c =>
    exact (found_required _ _ _ _).bind fun url _ => .pure (fair_request _ url onError)

end Deed

/-! ## What a failure leaves -/

/-- A world with an effect on record, after the time that the host took to answer it. -/
def World.afterEffect (host : Host) (w : World) (e : Effect) : World :=
  { w with performed := e :: w.performed }.pass (host.perform w.performed e).wait

/-- What a step that fails with an error leaves of a world: an effect if this is what failed, and
otherwise the world as it was. -/
inductive Undone (host : Host) (w : World) (e : ActionError) : World → Prop
  | nothing (other : ¬ e.OfEffect) : Undone host w e w
  | handed (effect : Effect) (failed : e.OfEffect) : Undone host w e (w.afterEffect host effect)

section Undone

variable {host : Host} {w u : World} {e : ActionError}

theorem Deed.undone_run (refusals : host.RefusesEffects)
    (methods : ∀ r ∈ host.methods, r.method.Effectless) {deed : Deed} (hfair : deed.Fair)
    (h : (deed.run host).run World.pass w = (.error e, u)) : Undone host w e u := by
  cases deed with
  | nothing => cases h
  | modify id change => cases h
  | call object method args =>
    rw [Task.run_of_settle, settle_run_call] at h
    cases hcall : w.objects.call host.methods w.clock object method args with
    | ok result =>
      rw [hcall] at h
      cases h
    | error e' =>
      rw [hcall] at h
      cases h
      exact .nothing (ObjectStore.call_effectless methods hcall)
  | post m => cases h
  | rest ms => cases h
  | hand effect answered =>
    rw [Task.run_of_settle, settle_run_hand] at h
    obtain ⟨hanswered, rfl⟩ := Prod.mk.inj h
    exact .handed effect (hfair _ e (refusals w.performed effect) hanswered)

theorem Processor.undone_carryOut {inv : Invocation} (refusals : inv.host.RefusesEffects)
    (methods : ∀ r ∈ inv.host.methods, r.method.Effectless) {a : Action}
    (h : (carryOut inv a).run.run World.pass w = (.error e, u)) : Undone inv.host w e u := by
  have hfound := Deed.found_of? inv w a
  rw [Task.run_of_settle, Deed.settle_carryOut] at h
  cases hof : Deed.of? inv w a with
  | error e' =>
    rw [hof] at h hfound
    cases h
    exact .nothing hfound
  | ok deed =>
    rw [hof] at h hfound
    refine Deed.undone_run refusals methods hfound ?_
    rw [Task.run_of_settle]
    exact h

theorem Processor.undone_ofBuiltIn {inv : Invocation} (refusals : inv.host.RefusesEffects)
    (methods : ∀ r ∈ inv.host.methods, r.method.Effectless) {a : Action} {type : BuiltIn}
    (htype : a.type = .builtIn type)
    (h : ((ofBuiltIn type).run inv a).run.run World.pass w = (.error e, u)) :
    Undone inv.host w e u := by
  by_cases hnoop : type = .noop
  · simp only [ofBuiltIn, if_pos hnoop] at h
    cases h
  · simp only [ofBuiltIn, if_neg hnoop, if_pos htype] at h
    exact undone_carryOut refusals methods h

end Undone

/-! ## Failed steps -/

namespace Executor

variable {ex : Executor} {setting : Setting} {w u : World} {e : ActionError}

/-- A step that fails, fails before its flow is run. -/
theorem run_of_attempt_error {inv : Invocation} {p : Processor} {a : Action}
    {nested : Slot → Scope World → Task World Unit}
    (h : (attempt inv p a nested).run World.pass w = (.error e, u)) :
    (p.run inv a).run.run World.pass w = (.error e, u) := by
  unfold attempt at h
  rw [Task.run_bind] at h
  obtain ⟨result, u', hrun⟩ : ∃ result u', (p.run inv a).run.run World.pass w = (result, u') :=
    ⟨_, _, rfl⟩
  rw [hrun] at h ⊢
  match result with
  | .error e' =>
    cases h
    rfl
  | .ok none => cases h
  | .ok (some launch) =>
    dsimp only at h
    rw [Task.run_mapResult] at h
    cases h

/-- A time limit changes nothing for a step that fails with another error than this. -/
theorem run_of_within_error {limit : Option Nat} {t : Task World (Except ActionError Unit)}
    (hother : ∀ ms, e ≠ .timeout ms) (h : (within limit t).run World.pass w = (.error e, u)) :
    t.run World.pass w = (.error e, u) := by
  cases limit with
  | none => exact h
  | some ms =>
    rw [within, Task.run_mapResult] at h
    obtain ⟨hresult, rfl⟩ := Prod.mk.inj h
    rcases (Task.atWaits_true t w).run_limit ms with hrun | ⟨s, rest, -, hrun⟩
    · rw [hrun] at hresult ⊢
      exact Prod.ext hresult rfl
    · rw [hrun] at hresult
      cases hresult
      exact absurd rfl (hother ms)

/-- A step that is handed to its processor publishes its start, and at the end how it came out. -/
theorem run_dispatch (ex : Executor) (inv : Invocation) (p : Processor)
    (step : StepRef) (a : Action) (nested : Slot → Scope World → Task World Unit) (w : World) :
    (ex.dispatch inv p step a nested).run World.pass w =
      match (within (ex.limitFor p) (attempt inv p a nested)).run World.pass
        (w.emit (.actionStarted step)) with
      | (.ok (), u) => (.oneCompleted, u.emit (.actionCompleted step (u.clock - w.clock)))
      | (.error e, u) => (.oneFailed, u.emit (.actionFailed step e)) := by
  refine (Task.run_bind World.pass (within (ex.limitFor p) (attempt inv p a nested)) _ _).trans ?_
  generalize (within (ex.limitFor p) (attempt inv p a nested)).run World.pass
    (w.emit (.actionStarted step)) = outcome
  obtain ⟨result, u⟩ := outcome
  cases result <;> rfl

/-- A step of a type that has a processor is skipped or handed to it. -/
theorem run_step {a : Action} {p : Processor} (hresolve : ex.resolve a.type = some p)
    (setting : Setting) (scope : Scope World) (index : Nat)
    (nested : Slot → Scope World → Task World Unit) (w : World) :
    (ex.step setting scope index a nested).run World.pass w =
      if a.isDisabled (scope.lookup w.freshId.2) then
        (.oneSkipped, w.freshId.2.emit
          (.actionSkipped ⟨setting.executionId, w.freshId.1, a.type.name, index⟩))
      else
        (ex.dispatch ⟨setting.host, scope, setting.region, setting.executionId, w.freshId.1⟩ p
          ⟨setting.executionId, w.freshId.1, a.type.name, index⟩ a nested).run World.pass
          w.freshId.2 := by
  show Task.run World.pass (if _ then _ else _) _ = _
  split
  · rfl
  · rw [hresolve]

/-- If the last event of a step of a built-in type tells of a failure, then before this event the
world is what the step left undone. -/
theorem undone_step {scope : Scope World} {index time : Nat} {a : Action} {type : BuiltIn}
    {nested : Slot → Scope World → Task World Unit} (htype : a.type = .builtIn type)
    (hown : ex.registry.find? a.type = some (Processor.ofBuiltIn type))
    (refusals : setting.host.RefusesEffects)
    (methods : ∀ r ∈ setting.host.methods, r.method.Effectless) {step : StepRef}
    (hstep : step = ⟨setting.executionId, w.freshId.1, a.type.name, index⟩)
    (hother : ∀ ms, e ≠ .timeout ms)
    (h : ((ex.step setting scope index a nested).run World.pass w).2.events.head? =
      some (time, .actionFailed step e)) :
    ∃ u, Undone setting.host (w.freshId.2.emit (.actionStarted step)) e u ∧
      ((ex.step setting scope index a nested).run World.pass w).2 =
        u.emit (.actionFailed step e) := by
  have hresolve : ex.resolve a.type = some (Processor.ofBuiltIn type) := by
    rw [resolve, hown]
  subst hstep
  rw [run_step hresolve] at h ⊢
  split at h
  · cases h
  · next henabled =>
    rw [if_neg henabled]
    rw [run_dispatch] at h ⊢
    split at h
    · cases h
    · next e' u hwithin =>
      cases h
      have hattempt := run_of_within_error hother hwithin
      have hrun := run_of_attempt_error hattempt
      exact ⟨u, Processor.undone_ofBuiltIn refusals methods htype hrun, rfl⟩

theorem runStep_eq_step (ex : Executor) (setting : Setting) (scope : Scope World) (index : Nat)
    (a : Action) :
    ∃ nested, ex.runStep setting scope index a = ex.step setting scope index a nested := by
  cases a <;> exact ⟨_, rfl⟩

/-- A built-in step that fails, unless it ran out of time, leaves the world as it was but for its
own two events and its identifier; if an effect failed, this one effect is on record and the time
that it took has passed. So no region is changed, no message is sent, no object is changed but by
the time that passed, and no step of a nested flow is run.

The step ends with a failure if this is what its last event tells. The host's refusals must be
failed effects, and no method of an object may fail like an effect; the built-in ones do not. -/
theorem failed_step_undone (ex : Executor) (setting : Setting) (scope : Scope World) (index : Nat)
    (a : Action) (type : BuiltIn) (w : World) (time : Nat) (e : ActionError)
    (builtIn : a.type = .builtIn type)
    (own : ex.registry.find? a.type = some (Processor.ofBuiltIn type))
    (refusals : setting.host.RefusesEffects)
    (methods : ∀ r ∈ setting.host.methods, r ∈ Methods.builtIn ∨ r.method.Effectless)
    (failed : ((ex.runStep setting scope index a).run World.pass w).2.events.head? =
      some (time, .actionFailed ⟨setting.executionId, w.freshId.1, a.type.name, index⟩ e)) :
    let step : StepRef := ⟨setting.executionId, w.freshId.1, a.type.name, index⟩
    let after := ((ex.runStep setting scope index a).run World.pass w).2
    (¬ e.OfEffect → (∀ ms, e ≠ .timeout ms) →
      after = { w with
        issued := w.issued + 1
        events := (w.clock, .actionFailed step e) :: (w.clock, .actionStarted step) :: w.events }) ∧
    (e.OfEffect → ∃ effect : Effect,
      let wait := (setting.host.perform w.performed effect).wait
      after = { w.pass wait with
        issued := w.issued + 1
        performed := effect :: w.performed
        events := (w.clock + wait, .actionFailed step e) :: (w.clock, .actionStarted step) ::
          w.events }) := by
  intro step after
  have hmethods : ∀ r ∈ setting.host.methods, r.method.Effectless := by
    intro r hr
    rcases methods r hr with hbuiltIn | heffectless
    · exact Methods.builtIn_effectless r hbuiltIn
    · exact heffectless
  obtain ⟨nested, hnested⟩ := runStep_eq_step ex setting scope index a
  have hundone (hother : ∀ ms, e ≠ .timeout ms) :
      ∃ u, Undone setting.host (w.freshId.2.emit (.actionStarted step)) e u ∧
        after = u.emit (.actionFailed step e) := by
    rw [hnested] at failed
    have h := undone_step builtIn own refusals hmethods rfl hother failed
    rwa [← hnested] at h
  constructor
  · intro hother htimely
    obtain ⟨u, hu, hafter⟩ := hundone htimely
    rw [hafter]
    cases hu with
    | nothing => rfl
    | handed effect failed => exact absurd failed hother
  · intro heffect
    have htimely : ∀ ms, e ≠ .timeout ms := by
      rintro ms rfl
      exact heffect
    obtain ⟨u, hu, hafter⟩ := hundone htimely
    rw [hafter]
    cases hu with
    | nothing other => exact absurd heffect other
    | handed effect failed => exact ⟨effect, rfl⟩

/-- A request that is answered with an error status, where the step has a flow for success
only, and a call of an object that is not there: the first one fails for its effect, the second
before it did anything. -/
theorem failed_step_undone_request :
    let ex : Executor := ⟨Registry.builtIn, .default, by decide +kernel, by decide⟩
    let host : Host := .agreed [("httpRequest", .ofEntries [("statusCode", .ofNat 503)])] [] 0
    let setting : Setting := ⟨host, none, "id-1"⟩
    let scope : Scope World := Scope.root "flow"
    let said : Flow := ⟨[.simple (.noop none) none], false⟩
    let request : Action :=
      .request ⟨none, .literal "https://example.org", .null, .null⟩ (some said) none none
    let call : Action := .simple (.controlObject (.literal "ghost") (.literal "start") .null) none
    let w : World := ⟨0, [], [], .ofCapacity 1, [], [], [], 1⟩
    let requested := ((ex.runStep setting scope 0 request).run World.pass w).2
    let called := ((ex.runStep setting scope 0 call).run World.pass w).2
    let requestStep : StepRef := ⟨"id-1", w.freshId.1, "callRestApi", 0⟩
    let callStep : StepRef := ⟨"id-1", w.freshId.1, "controlObject", 0⟩
    let status : ActionError := .effectFailed "https://example.org returned status 503"
    let ghost : ActionError := .objectNotFound "ghost"
    host.RefusesEffects ∧ (∀ r ∈ host.methods, r ∈ Methods.builtIn ∨ r.method.Effectless) ∧
    requested.events.head? = some (0, .actionFailed requestStep status) ∧ status.OfEffect ∧
    requested.performed = [.httpRequest .get "https://example.org" .null .null] ∧
    (∃ effect : Effect, requested = { w.pass 0 with
      issued := 2
      performed := [effect]
      events := [(0, .actionFailed requestStep status), (0, .actionStarted requestStep)] }) ∧
    called.events.head? = some (0, .actionFailed callStep ghost) ∧
    called = { w with
      issued := 2
      events := [(0, .actionFailed callStep ghost), (0, .actionStarted callStep)] } := by
  intro ex host setting scope said request call w requested called requestStep callStep status ghost
  have refusals : host.RefusesEffects := Host.agreed_refusesEffects _ _ _
  have methods : ∀ r ∈ host.methods, r ∈ Methods.builtIn ∨ r.method.Effectless := fun _ h => .inl h
  have hrequested : requested.events.head? = some (0, .actionFailed requestStep status) := by
    decide +kernel
  have hcalled : called.events.head? = some (0, .actionFailed callStep ghost) := by decide +kernel
  have hrequest := failed_step_undone ex setting scope 0 request .callRestApi w 0 status rfl rfl
    refusals methods hrequested
  have hcall := failed_step_undone ex setting scope 0 call .controlObject w 0 ghost rfl rfl
    refusals methods hcalled
  obtain ⟨effect, heffect⟩ := hrequest.2 trivial
  refine ⟨refusals, methods, hrequested, trivial, by decide +kernel, ⟨effect, ?_⟩, hcalled, ?_⟩
  · exact heffect
  · exact hcall.1 id nofun

end Executor

end StepFlow
