import StepFlow.Executor
import StepFlow.Processor.Scripted
import StepFlow.Proofs.Run.Deed

/-!
# Worlds that are alike

Two worlds are alike if they differ in nothing but the events of their runs and the number of
identifiers that were given out. A scope is oblivious if it says the same in worlds that are alike,
and a processor is oblivious if it does the same there, under whatever identifier it is handed its
step. The scopes of flows are oblivious, and so are the processors that follow a script; the steps
of built-in types come to the same deed.
-/

namespace StepFlow

/-- Two worlds differ in events and in the number of identifiers at most. -/
structure World.Alike (w w' : World) : Prop where
  clock : w.clock = w'.clock
  regions : w.regions = w'.regions
  objects : w.objects = w'.objects
  bus : w.bus = w'.bus
  performed : w.performed = w'.performed
  journal : w.journal = w'.journal

namespace World.Alike

variable {w w' w'' : World}

theorem refl (w : World) : Alike w w := ⟨rfl, rfl, rfl, rfl, rfl, rfl⟩

theorem trans (h : Alike w w') (h' : Alike w' w'') : Alike w w'' where
  clock := h.clock.trans h'.clock
  regions := h.regions.trans h'.regions
  objects := h.objects.trans h'.objects
  bus := h.bus.trans h'.bus
  performed := h.performed.trans h'.performed
  journal := h.journal.trans h'.journal

theorem emit_left (h : Alike w w') (e : Event) : Alike (w.emit e) w' := { h with }

theorem emit (h : Alike w w') (e e' : Event) : Alike (w.emit e) (w'.emit e') := { h with }

theorem freshId_left (h : Alike w w') : Alike w.freshId.2 w' := { h with }

theorem freshId (h : Alike w w') : Alike w.freshId.2 w'.freshId.2 := { h with }

theorem pass (ms : Nat) (h : Alike w w') : Alike (w.pass ms) (w'.pass ms) :=
  { h with
    clock := congrArg (· + ms) h.clock
    objects := by
      show w.objects.advance (w.clock + ms) = w'.objects.advance (w'.clock + ms)
      rw [h.objects, h.clock] }

theorem modifyRegion (h : Alike w w') (id : RegionId) (change : Region → Region) :
    Alike (w.modifyRegion id change) (w'.modifyRegion id change) :=
  { h with regions := congrArg (Regions.modify change · id) h.regions }

theorem send (h : Alike w w') (m : Message) : Alike (w.send m).2 (w'.send m).2 :=
  { h with bus := congrArg (fun bus => (Bus.send bus m).2) h.bus }

theorem write (h : Alike w w') (v : Value) :
    Alike { w with journal := v :: w.journal } { w' with journal := v :: w'.journal } :=
  { h with journal := congrArg (v :: ·) h.journal }

end World.Alike

open World (Alike)

/-! ## Scopes -/

/-- The sources of a scope answer the same in worlds that are alike. -/
def Scope.Oblivious (s : Scope World) : Prop :=
  ∀ frame ∈ s.frames, ∀ ask, frame.source = some ask → ∀ w w', Alike w w' → ask w = ask w'

namespace Scope.Oblivious

variable {s : Scope World} {w w' : World}

theorem lookup (h : s.Oblivious) (hw : Alike w w') : s.lookup w = s.lookup w' := by
  funext key
  unfold Scope.lookup
  unfold Oblivious at h
  generalize s.frames = frames at h
  induction frames with
  | nil => rfl
  | cons frame rest ih =>
    have hframe : frame.lookup w key = frame.lookup w' key := by
      unfold Frame.lookup
      cases hsource : frame.source with
      | none => rfl
      | some ask =>
        rw [Option.bind_some, Option.bind_some, h frame List.mem_cons_self ask hsource w w' hw]
    rw [lookupIn, lookupIn, hframe, ih fun frame hmem => h frame (List.mem_cons_of_mem _ hmem)]

theorem extend (h : s.Oblivious) (bound : List (String × Value)) : (s.extend bound).Oblivious := by
  intro frame hmem
  rcases List.mem_cons.1 hmem with rfl | hmem
  · exact h s.inner List.mem_cons_self
  · exact h frame (List.mem_cons_of_mem _ hmem)

end Scope.Oblivious

theorem World.Alike.values {w w' : World} (h : Alike w w') (id : RegionId) :
    w.values id = w'.values id := by
  rw [World.values, World.values, h.regions]

/-- The scope of a flow answers from the regions, after the caller's. -/
theorem Executor.flowScope_oblivious {host : Host} {caller : Option (Scope World)}
    {region : Option RegionId} (hcaller : ∀ scope, caller = some scope → scope.Oblivious) :
    (flowScope host caller region).Oblivious := by
  intro frame hmem ask hask w w' hw
  obtain rfl := List.mem_singleton.1 hmem
  cases hask
  funext key
  unfold flowVariables
  rw [hw.regions, hw.values]
  cases caller with
  | none => rfl
  | some scope => rw [Option.bind_some, Option.bind_some, (hcaller scope rfl).lookup hw]

/-! ## Deeds -/

/-- Two tasks, run from worlds that are alike, wait for the same times, each time in worlds that are
alike, and end in worlds that are alike, with results related by `Q`. -/
abbrev Keeps {α β : Type} (Q : α → β → Prop) : Task World α → World → Task World β → World → Prop :=
  Task.Agrees World.pass Alike Q

namespace Deed

variable {w w' : World} {inv : Invocation}

/-- Looking finds the same in worlds that are alike. -/
theorem of?_oblivious (hscope : inv.scope.Oblivious) (hw : Alike w w') (id : String) (a : Action) :
    of? inv w a = of? { inv with actionId := id } w' a := by
  have hbindings : inv.bindings w = Invocation.bindings { inv with actionId := id } w' :=
    hscope.lookup hw
  cases a with
  | simple o c =>
    cases o <;>
      simp only [of?, ofOperation, required, evaluateOr, document, target, updates,
        hbindings, hw.regions]
  | modal kind view onResult c => simp only [of?, required, document, hbindings]
  | request source onSuccess onError c =>
    simp only [of?, required, evaluateOr, document, hbindings]

/-- A host answers the same where the same was handed to it before. -/
theorem keeps_hand {host : Host} (hw : Alike w w') (e : Effect)
    {Q : Except ActionError (Option Launch) → Except ActionError (Option Launch) → Prop}
    {answered answered' : Except ActionError Value → Except ActionError (Option Launch)}
    (hQ : ∀ answer, Q (answered answer) (answered' answer)) :
    Keeps Q ((Deed.hand e answered).run host) w ((Deed.hand e answered').run host) w' := by
  have hperformed :
      Alike { w with performed := e :: w.performed } { w' with performed := e :: w'.performed } :=
    { hw with performed := congrArg (e :: ·) hw.performed }
  have hright := settle_run_hand host w' e answered'
  rw [← hw.performed] at hright
  rw [← hw.performed] at hperformed
  exact .waits (settle_run_hand host w e answered) hright hperformed
    (.pure (hperformed.pass _) (hQ _))

theorem keeps_run {host : Host} (hw : Alike w w') (deed : Deed) :
    Keeps Eq (deed.run host) w (deed.run host) w' := by
  cases deed with
  | nothing => exact .pure hw rfl
  | modify id change => exact .ended rfl rfl (hw.modifyRegion id change) rfl
  | call object method args =>
    have hleft := settle_run_call host w object method args
    have hright := settle_run_call host w' object method args
    have hsame : w'.objects.call host.methods w'.clock object method args =
        w.objects.call host.methods w.clock object method args := by
      rw [hw.objects, hw.clock]
    rw [hsame] at hright
    cases hcall : w.objects.call host.methods w.clock object method args with
    | error e =>
      rw [hcall] at hleft hright
      exact .ended hleft hright hw rfl
    | ok result =>
      rw [hcall] at hleft hright
      exact .ended hleft hright { hw with objects := rfl } rfl
  | post m => exact .ended rfl rfl (hw.send m) rfl
  | rest ms => exact .waits rfl rfl hw (.pure (hw.pass ms) rfl)
  | hand e answered => exact keeps_hand hw e fun _ => rfl

/-- Steps with the same deed, carried out in worlds that are alike, do the same. -/
theorem keeps_carryOut (hscope : inv.scope.Oblivious) (hw : Alike w w') (id : String)
    {a a' : Action} (hdeed : of? inv w a' = of? inv w a) :
    Keeps Eq (Processor.carryOut inv a).run w
      (Processor.carryOut { inv with actionId := id } a').run w' := by
  have hleft := settle_carryOut inv w a
  have hright := settle_carryOut { inv with actionId := id } w' a'
  rw [← of?_oblivious hscope hw id a', hdeed] at hright
  cases hof : of? inv w a with
  | error e =>
    rw [hof] at hleft hright
    exact .ended hleft hright hw rfl
  | ok deed =>
    rw [hof] at hleft hright
    exact (keeps_run hw deed).congr hleft hright

end Deed

/-! ## Processors -/

/-- A processor does the same in worlds that are alike, under whatever identifier. -/
def Processor.Oblivious (p : Processor) : Prop :=
  ∀ (inv : Invocation) (id : String) (a : Action) (w w' : World), inv.scope.Oblivious → Alike w w' →
    Keeps Eq (p.run inv a).run w (p.run { inv with actionId := id } a).run w'

theorem Processor.scripted_oblivious (type : ActionType) (waitMs : Nat) (failure : Option String)
    (timeout : Option Nat) : (scripted type waitMs failure timeout).Oblivious := by
  intro inv id a w w' hscope hw
  dsimp only [scripted]
  split
  · next tag fields c =>
    have hbindings : inv.bindings w = Invocation.bindings { inv with actionId := id } w' :=
      hscope.lookup hw
    have hwritten := hw.write (journalEntry tag (Nested.evaluate (inv.bindings w) (.object fields)))
    cases failure with
    | none =>
      refine .waits rfl ?_ hwritten (.pure (hwritten.pass waitMs) rfl)
      rw [hbindings]
      rfl
    | some reason =>
      refine .waits rfl ?_ hwritten (.pure (hwritten.pass waitMs) rfl)
      rw [hbindings]
      rfl
  · exact .pure hw rfl

end StepFlow
