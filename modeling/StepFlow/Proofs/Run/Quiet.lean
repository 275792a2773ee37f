import StepFlow.Processor.Scripted
import StepFlow.Proofs.Run.Record
import StepFlow.Registry

/-!
# Processors keep to their work

Only an executor publishes events and gives out identifiers. A processor is quiet if it leaves both
alone, at every moment of its work, and writes no plain text in the journal. The processors of the
built-in types are quiet whatever the host answers, and so are those that follow a script.

To see how often a processor is called, it can be made to note the identifier of each step that it
is handed, before it does anything else.
-/

namespace StepFlow

namespace Task

variable {α β : Type}

/-- A task leaves the record of a run alone up to some notes, which it makes
before it ever waits. -/
def Notes (l : List String) (t : Task World α) : Prop :=
  ∀ w, World.Noted w (t.run World.pass w).2 l ∧
    t.AtWaits World.pass (fun w' => World.Noted w w' l) w

theorem notes_pure (a : α) : Notes [] (pure a : Task World α) := by
  intro w
  exact ⟨World.Noted.refl w, trivial⟩

theorem notes_read (f : World → α) : Notes [] (read f) := by
  intro w
  exact ⟨World.Noted.refl w, trivial⟩

theorem notes_modify {l : List String} {change : World → World}
    (h : ∀ w, World.Noted w (change w) l) : Notes l (modify change) := by
  intro w
  exact ⟨h w, trivial⟩

theorem notes_modifyGet {l : List String} {change : World → α × World}
    (h : ∀ w, World.Noted w (change w).2 l) : Notes l (modifyGet change) := by
  intro w
  exact ⟨h w, trivial⟩

theorem notes_sleep (ms : Nat) : Notes [] (sleep ms) := by
  intro w
  exact ⟨World.Noted.pass ms w, atWaits_sleep.2 (World.Noted.refl w)⟩

theorem Notes.bind {t : Task World α} {f : α → Task World β} (ht : Notes [] t)
    (hf : ∀ a, Notes [] (f a)) : Notes [] (t.bind f) := by
  intro w
  obtain ⟨hend, hwaits⟩ := ht w
  obtain ⟨hend', hwaits'⟩ := hf (t.run World.pass w).1 (t.run World.pass w).2
  refine ⟨?_, atWaits_bind.2 ⟨hwaits, hwaits'.mono ?_⟩⟩
  · rw [run_bind]
    exact hend.trans hend'
  · intro w' hw'
    exact hend.trans hw'

end Task

/-- An attempt that leaves the record of a run alone, however it ends. -/
def Attempt.Quiet {α : Type} (x : Attempt α) : Prop := Task.Notes [] x.run

namespace Attempt.Quiet

variable {α β : Type} {x : Attempt α}

theorem pure (a : α) : Quiet (pure a : Attempt α) := Task.notes_pure (Except.ok a)

theorem throw (e : ActionError) : Quiet (throw e : Attempt α) := Task.notes_pure (Except.error e)

theorem lift {t : Task World α} (h : Task.Notes [] t) : Quiet (ExceptT.lift t : Attempt α) :=
  h.bind fun a => Task.notes_pure (Except.ok a)

theorem bind {f : α → Attempt β} (hx : Quiet x) (hf : ∀ a, Quiet (f a)) : Quiet (x >>= f) := by
  refine Task.Notes.bind hx ?_
  intro result
  cases result with
  | ok a => exact hf a
  | error e => exact Task.notes_pure (Except.error e)

theorem discard (hx : Quiet x) : Quiet (discard x) := by
  refine Task.Notes.bind hx ?_
  intro result
  cases result with
  | ok a => exact Task.notes_pure (Except.ok ())
  | error e => exact Task.notes_pure (Except.error e)

end Attempt.Quiet

/-! ## What processors are made of -/

namespace Invocation

open Attempt

variable (inv : Invocation)

theorem evaluate_quiet {shape : Shape} (field : ExprOr shape) : Quiet (inv.evaluate field) :=
  .lift (Task.notes_read _)

theorem evaluateOr_quiet {shape : Shape} (field : Option (ExprOr shape)) (default : shape.Carrier) :
    Quiet (inv.evaluateOr field default) :=
  .lift (Task.notes_read _)

theorem document_quiet (v : Value) : Quiet (inv.document v) := .lift (Task.notes_read _)

theorem updates_quiet (us : List StateUpdate) : Quiet (inv.updates us) :=
  .lift (Task.notes_read _)

theorem require_quiet {shape : Shape} (field : ExprOr shape) (name : String) :
    Quiet (inv.require field name) := by
  refine (inv.evaluate_quiet field).bind ?_
  intro value
  cases value with
  | none => exact .throw _
  | some a => exact .pure a

theorem target_quiet (name : Option String) : Quiet (inv.target name) := by
  refine Quiet.bind (.lift (Task.notes_read _)) ?_
  intro regions
  cases name with
  | none =>
    dsimp only
    split
    · exact .pure _
    · exact .throw _
  | some name =>
    dsimp only
    split
    · exact .pure _
    · split
      · exact .pure _
      · exact .throw _

theorem change_quiet (id : RegionId) (f : Region → Region) : Quiet (change id f) :=
  .lift (Task.notes_modify fun _ => World.Noted.unseen rfl rfl rfl)

theorem perform_quiet (e : Effect) : Quiet (inv.perform e) := by
  refine Task.Notes.bind (Task.notes_modifyGet fun _ => World.Noted.unseen rfl rfl rfl) ?_
  intro answer
  exact (Task.notes_sleep answer.wait).bind fun _ => Task.notes_pure answer.result

end Invocation

/-! ## The processors -/

namespace Processor

open Attempt

variable (inv : Invocation)

theorem methodArguments_quiet (v : Value) : Quiet (methodArguments v) := by
  unfold methodArguments
  split
  · exact .pure _
  · exact .pure _
  · exact .throw _

theorem callMethod_quiet (object method : String) (args : Object) :
    Quiet (callMethod inv object method args) := by
  refine Task.notes_modifyGet ?_
  intro w
  split
  · exact World.Noted.unseen rfl rfl rfl
  · exact World.Noted.refl w

theorem operation_quiet (o : Operation) : Quiet (operation inv o) := by
  cases o with
  | showToast message duration =>
    apply (inv.require_quiet _ _).bind
    intro message
    apply (inv.evaluateOr_quiet _ _).bind
    intro duration
    exact (inv.perform_quiet _).discard
  | setState region us rebuild =>
    apply (inv.target_quiet _).bind
    intro target
    apply (inv.updates_quiet _).bind
    intro values
    exact Invocation.change_quiet _ _
  | rebuildState region =>
    apply (inv.target_quiet _).bind
    intro target
    exact Invocation.change_quiet _ _
  | navigateToPage pageId args replace =>
    apply (inv.require_quiet _ _).bind
    intro pageId
    apply (inv.document_quiet _).bind
    intro args
    exact (inv.perform_quiet _).discard
  | navigateBack result =>
    apply (inv.document_quiet _).bind
    intro result
    exact (inv.perform_quiet _).discard
  | openUrl url launchMode =>
    apply (inv.require_quiet _ _).bind
    intro url
    apply (inv.evaluateOr_quiet _ _).bind
    intro launchMode
    exact (inv.perform_quiet _).discard
  | setAppState us rebuild =>
    apply (inv.updates_quiet _).bind
    intro values
    exact Invocation.change_quiet _ _
  | controlObject object method args =>
    apply (inv.require_quiet _ _).bind
    intro object
    apply (inv.require_quiet _ _).bind
    intro method
    apply (inv.document_quiet _).bind
    intro args
    apply (methodArguments_quiet _).bind
    intro args
    exact callMethod_quiet inv object method args
  | share message subject =>
    apply (inv.require_quiet _ _).bind
    intro message
    cases subject with
    | none => exact (Quiet.pure none).bind fun subject => (inv.perform_quiet _).discard
    | some subject =>
      exact (inv.evaluate_quiet subject).bind fun subject => (inv.perform_quiet _).discard
  | delay duration =>
    apply (inv.evaluate_quiet _).bind
    intro duration
    exact .lift (Task.notes_sleep _)
  | copyToClipboard message =>
    apply (inv.require_quiet _ _).bind
    intro text
    exact (inv.perform_quiet _).discard
  | postMessage name payload =>
    apply (inv.require_quiet _ _).bind
    intro name
    apply (inv.document_quiet _).bind
    intro payload
    exact Quiet.discard (.lift (Task.notes_modifyGet fun _ => World.Noted.unseen rfl rfl rfl))
  | fireEvent name payload =>
    apply (inv.require_quiet _ _).bind
    intro name
    apply (inv.document_quiet _).bind
    intro payload
    exact (inv.perform_quiet _).discard
  | noop note => exact .pure ()
  | custom tag fields => exact .pure ()

theorem showModal_quiet (kind : ModalKind) (view : ModalView) :
    Quiet (showModal inv kind view) := by
  apply (inv.require_quiet _ _).bind
  intro viewId
  apply (inv.document_quiet _).bind
  intro args
  apply (inv.perform_quiet _).bind
  intro result
  exact .pure _

theorem requestFailed_quiet (onError : Option Flow) (response : Value) (reason : String) :
    Quiet (requestFailed onError response reason) := by
  cases onError with
  | none => exact .throw _
  | some flow => exact .pure _

theorem callRestApi_quiet (source : DataSource) (onError : Option Flow) :
    Quiet (callRestApi inv source onError) := by
  apply (inv.require_quiet _ _).bind
  intro url
  apply (inv.evaluateOr_quiet _ _).bind
  intro method
  apply (inv.document_quiet _).bind
  intro headers
  apply (inv.document_quiet _).bind
  intro body
  refine Quiet.bind (.lift (inv.perform_quiet _)) ?_
  intro answer
  cases answer with
  | ok response =>
    show Quiet (if _ then _ else _)
    split
    · exact .pure _
    · exact requestFailed_quiet onError response _
  | error e => exact requestFailed_quiet onError .null _

/-- A processor that only does its work: whatever it is handed, the record of the run stays as it
is, at each moment at which it waits and when it ends. -/
def Quiet (p : Processor) : Prop := ∀ inv a, Attempt.Quiet (p.run inv a)

theorem ofBuiltIn_quiet (type : BuiltIn) : (ofBuiltIn type).Quiet := by
  intro inv a
  show Attempt.Quiet (if _ then _ else _)
  split
  · exact .pure none
  · split
    · cases a with
      | simple o c => exact (operation_quiet inv o).bind fun _ => .pure none
      | modal kind view onResult c => exact showModal_quiet inv kind view
      | request source onSuccess onError c => exact callRestApi_quiet inv source onError
    · exact .throw _

theorem scripted_quiet (type : ActionType) (waitMs : Nat) (failure : Option String)
    (timeout : Option Nat) : (scripted type waitMs failure timeout).Quiet := by
  intro inv a
  dsimp only [scripted]
  split
  · apply (inv.document_quiet _).bind
    intro fields
    -- the entry in the journal is an object
    have hentry : ∀ (tag : String) (w : World),
        World.Noted w { w with journal := journalEntry tag fields :: w.journal } [] := by
      intro tag w
      exact World.Noted.unseen rfl rfl rfl
    apply Quiet.bind (.lift (Task.notes_modify (hentry _)))
    intro written
    apply Quiet.bind (.lift (Task.notes_sleep waitMs))
    intro waited
    cases failure with
    | none => exact .pure none
    | some reason => exact .throw _
  · exact .throw _

/-- The processor, made to note the identifier of each step that it is handed. -/
def noting (p : Processor) : Processor :=
  { p with
    run := fun inv a => do
      ExceptT.lift (Task.modify (World.note inv.actionId))
      p.run inv a }

/-- A processor that notes the identifiers of its steps in some way and is quiet otherwise. -/
def NotesSteps (m : String → List String) (p : Processor) : Prop :=
  ∀ inv a, Task.Notes (m inv.actionId) (p.run inv a).run

theorem Quiet.noting {p : Processor} (h : p.Quiet) : p.noting.NotesSteps fun id => [id] := by
  intro inv a w
  obtain ⟨hend, hwaits⟩ := h inv a (w.note inv.actionId)
  have hnote := World.Noted.note inv.actionId w
  refine ⟨?_, Task.AtWaits.mono hwaits ?_⟩
  · exact hnote.trans hend
  · intro w' hw'
    exact hnote.trans hw'

end Processor

end StepFlow
