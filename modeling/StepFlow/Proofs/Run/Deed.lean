import StepFlow.Processor.BuiltIn
import StepFlow.Proofs.Run.Settle

/-!
# What a built-in step does

A built-in step first looks: it evaluates its fields and finds the region that it targets. Where
something is missing it is refused, and nothing has happened. Otherwise it does one thing, its deed,
and this is all that it does by itself. `Deed.of?` is the looking, as a function of the world, and
`Deed.settle_carryOut` says that a step comes to the same as its deed.
-/

namespace StepFlow

/-- The one thing that a built-in step does once it has what it needs. -/
inductive Deed where
  | nothing
  /-- Changes a region. -/
  | modify (id : RegionId) (change : Region → Region)
  /-- Calls a method of an object. -/
  | call (object method : String) (args : Object)
  /-- Sends a message. -/
  | post (m : Message)
  /-- Waits. -/
  | rest (ms : Nat)
  /-- Hands an effect to the host, and ends as its answer says. -/
  | hand (e : Effect) (answered : Except ActionError Value → Except ActionError (Option Launch))

namespace Deed

/-! ## Looking -/

def required {shape : Shape} (inv : Invocation) (w : World) (field : ExprOr shape) (name : String) :
    Except ActionError shape.Carrier :=
  match field.evaluate (inv.bindings w) with
  | some a => .ok a
  | none => .error (.invalidParameters (.unusable name))

def evaluateOr {shape : Shape} (inv : Invocation) (w : World) (field : Option (ExprOr shape))
    (default : shape.Carrier) : shape.Carrier :=
  (field.bind fun field => field.evaluate (inv.bindings w)).getD default

def document (inv : Invocation) (w : World) (v : Value) : Value :=
  Nested.evaluate (inv.bindings w) v

def target (inv : Invocation) (w : World) : Option String → Except ActionError RegionId
  | none =>
    match inv.region with
    | some id => .ok id
    | none => .error (.stateContextNotFound none)
  | some name =>
    match inv.region.bind fun id => w.regions.find? id name with
    | some id => .ok id
    | none =>
      if name = appStateName then .ok inv.host.appState
      else .error (.stateContextNotFound (some name))

/-- The names of updates with the values that they have before any of them is written. -/
def updates (inv : Invocation) (w : World) (us : List StateUpdate) : List (String × Value) :=
  us.map fun u => (u.stateName, document inv w u.newValue)

def arguments : Value → Except ActionError Object
  | .object args => .ok args
  | .null => .ok []
  | v => .error (.invalidParameters (.argumentsNotAnObject v))

def perform (e : Effect) : Deed := .hand e fun answer => answer.map fun _ => none

/-- What follows on a failed request. -/
def requestFailed (onError : Option Flow) (response : Value) (reason : String) :
    Except ActionError (Option Launch) :=
  match onError with
  | some _ => .ok (some ⟨.onError, [("response", response), ("error", .string reason)]⟩)
  | none => .error (.effectFailed reason)

/-- What follows on the answer to a request. -/
def requestAnswered (url : String) (onError : Option Flow) :
    Except ActionError Value → Except ActionError (Option Launch)
  | .ok response =>
    let status := Processor.statusCode response
    if 200 ≤ status ∧ status < 300 then .ok (some ⟨.onSuccess, [("response", response)]⟩)
    else requestFailed onError response (url ++ " returned status " ++ toString status)
  | .error e => requestFailed onError .null e.message

def ofOperation (inv : Invocation) (w : World) : Operation → Except ActionError Deed
  | .showToast message duration => do
    let message ← required inv w message "message"
    pure (perform (.showToast message (evaluateOr inv w duration ToastDuration.short)))
  | .setState region us rebuild => do
    let id ← target inv w region
    let values := updates inv w us
    pure (.modify id fun r => r.setAll values rebuild)
  | .rebuildState region => do
    let id ← target inv w region
    pure (.modify id Region.flush)
  | .navigateToPage pageId args replace => do
    let pageId ← required inv w pageId "pageId"
    pure (perform (.navigateToPage pageId (document inv w args) replace))
  | .navigateBack result => pure (perform (.navigateBack (document inv w result)))
  | .openUrl url launchMode => do
    let url ← required inv w url "url"
    pure (perform (.openUrl url (evaluateOr inv w launchMode LaunchMode.platformDefault)))
  | .setAppState us rebuild =>
    let values := updates inv w us
    pure (.modify inv.host.appState fun r => r.setAll values rebuild)
  | .controlObject object method args => do
    let object ← required inv w object "object"
    let method ← required inv w method "method"
    let args ← arguments (document inv w args)
    pure (.call object method args)
  | .share message subject => do
    let message ← required inv w message "message"
    pure (perform (.share message (subject.bind fun subject => subject.evaluate (inv.bindings w))))
  | .delay duration => pure (.rest (Processor.delayMillis (duration.evaluate (inv.bindings w))))
  | .copyToClipboard message => do
    let text ← required inv w message "message"
    pure (perform (.copyToClipboard text))
  | .postMessage name payload => do
    let name ← required inv w name "name"
    pure (.post ⟨name, document inv w payload, some inv.executionId⟩)
  | .fireEvent name payload => do
    let name ← required inv w name "name"
    pure (perform (.fireEvent name (document inv w payload)))
  | .noop _ => pure .nothing
  | .custom _ _ => pure .nothing

/-- The deed of a step in a world, or why it is refused. -/
def of? (inv : Invocation) (w : World) : Action → Except ActionError Deed
  | .simple o _ => ofOperation inv w o
  | .modal kind view _ _ => do
    let viewId ← required inv w view.viewId "viewId"
    pure (.hand (.showModal kind viewId (document inv w view.args) view.barrierDismissible)
      fun answer =>
      answer.map fun result => some ⟨.onResult, [("result", result)]⟩)
  | .request source _ onError _ => do
    let url : String ← required inv w source.url "dataSource.url"
    let method := evaluateOr inv w source.method HttpMethod.get
    pure (.hand
      (.httpRequest method url (document inv w source.headers) (document inv w source.body))
      (requestAnswered url onError))

/-! ## Doing -/

def run (host : Host) : Deed → Task World (Except ActionError (Option Launch))
  | .nothing => .done (.ok none)
  | .modify id change => (Task.modify (World.modifyRegion id change)).mapResult fun _ => .ok none
  | .call object method args => Task.modifyGet fun w =>
    match w.objects.call host.methods w.clock object method args with
    | .ok (_, objects) => (.ok none, { w with objects })
    | .error e => (.error e, w)
  | .post m => (Task.modifyGet (World.send m)).mapResult fun _ => .ok none
  | .rest ms => (Task.sleep ms).mapResult fun _ => .ok none
  | .hand e answered => (host.hand e).run.mapResult answered

/-- A method is called, or refuses to be; then all is as it was. -/
theorem settle_run_call (host : Host) (w : World) (object method : String) (args : Object) :
    ((Deed.call object method args).run host).settle w =
      match w.objects.call host.methods w.clock object method args with
      | .ok (_, objects) => .ended (.ok none) { w with objects }
      | .error e => .ended (.error e) w := by
  refine (Task.settle_modifyGet _ w).trans ?_
  cases w.objects.call host.methods w.clock object method args <;> rfl

/-- An effect that is handed to the host is on record while the step waits for the answer. -/
theorem settle_run_hand (host : Host) (w : World) (e : Effect)
    (answered : Except ActionError Value → Except ActionError (Option Launch)) :
    ((Deed.hand e answered).run host).settle w =
      .waits (host.perform w.performed e).wait
        (.done (answered (host.perform w.performed e).result))
        { w with performed := e :: w.performed } := rfl

end Deed

/-! ## A step is its deed -/

namespace Attempt

variable {α β γ : Type} {w : World}

/-- Goes on with what was found in a world, or fails there. -/
def proceed (w : World) (found : Except ActionError α)
    (next : α → Task.Stop World (Except ActionError β)) : Task.Stop World (Except ActionError β) :=
  match found with
  | .ok a => next a
  | .error e => .ended (.error e) w

@[simp] theorem proceed_pure (a : α) (next : α → Task.Stop World (Except ActionError β)) :
    proceed w (pure a) next = next a := rfl

@[simp] theorem proceed_bind (found : Except ActionError α) (f : α → Except ActionError γ)
    (next : γ → Task.Stop World (Except ActionError β)) :
    proceed w (found >>= f) next = proceed w found fun a => proceed w (f a) next := by
  cases found <;> rfl

theorem proceed_congr {found : Except ActionError α}
    {next next' : α → Task.Stop World (Except ActionError β)} (h : ∀ a, next a = next' a) :
    proceed w found next = proceed w found next' :=
  congrArg (proceed w found) (funext h)

theorem settle_bind_of_ended {x : Attempt α} {found : Except ActionError α}
    (h : x.run.settle w = .ended found w) (f : α → Attempt β) :
    (x >>= f).run.settle w = proceed w found fun a => (f a).run.settle w := by
  refine (Task.settle_bind_of_ended h).trans ?_
  cases found <;> rfl

theorem settle_lift_bind {t : Task World α} {a : α} (h : t.settle w = .ended a w)
    (f : α → Attempt β) :
    ((ExceptT.lift t : Attempt α) >>= f).run.settle w = (f a).run.settle w := by
  have hlift : (t.bind fun a => .done (.ok a) : Task World (Except ActionError α)).settle w =
      .ended (.ok a) w := Task.settle_bind_of_ended h
  exact settle_bind_of_ended hlift f

end Attempt

namespace Deed

open Attempt

section Looking

variable {α : Type} {shape : Shape} (inv : Invocation) (w : World)

theorem settle_evaluate (field : ExprOr shape) (f : Option shape.Carrier → Attempt α) :
    (inv.evaluate field >>= f).run.settle w = (f (field.evaluate (inv.bindings w))).run.settle w :=
  settle_lift_bind rfl f

theorem settle_evaluateOr (field : Option (ExprOr shape)) (default : shape.Carrier)
    (f : shape.Carrier → Attempt α) :
    (inv.evaluateOr field default >>= f).run.settle w =
      (f (evaluateOr inv w field default)).run.settle w :=
  settle_lift_bind rfl f

theorem settle_document (v : Value) (f : Value → Attempt α) :
    (inv.document v >>= f).run.settle w = (f (document inv w v)).run.settle w :=
  settle_lift_bind rfl f

theorem settle_updates (us : List StateUpdate) (f : List (String × Value) → Attempt α) :
    (inv.updates us >>= f).run.settle w = (f (updates inv w us)).run.settle w :=
  settle_lift_bind rfl f

theorem settle_require (field : ExprOr shape) (name : String) (f : shape.Carrier → Attempt α) :
    (inv.require field name >>= f).run.settle w =
      proceed w (required inv w field name) fun a => (f a).run.settle w := by
  refine settle_bind_of_ended ?_ f
  unfold Invocation.require required
  rw [settle_evaluate]
  cases field.evaluate (inv.bindings w) <;> rfl

theorem settle_target (name : Option String) (f : RegionId → Attempt α) :
    (inv.target name >>= f).run.settle w =
      proceed w (target inv w name) fun id => (f id).run.settle w := by
  refine settle_bind_of_ended ?_ f
  unfold Invocation.target target
  rw [settle_lift_bind rfl]
  cases name with
  | none => cases inv.region <;> rfl
  | some name =>
    dsimp only
    cases inv.region.bind fun id => w.regions.find? id name with
    | some id => rfl
    | none =>
      dsimp only
      split <;> rfl

theorem settle_arguments (v : Value) (f : Object → Attempt α) :
    (Processor.methodArguments v >>= f).run.settle w =
      proceed w (arguments v) fun args => (f args).run.settle w :=
  settle_bind_of_ended (by cases v <;> rfl) f

end Looking

section Doing

variable (inv : Invocation)

theorem settle_perform (w : World) (e : Effect) :
    (discard (inv.perform e) >>= fun _ => pure none : Attempt (Option Launch)).run.settle w =
      ((perform e).run inv.host).settle w := by
  have hrun : (discard (inv.perform e) >>= fun _ => pure none : Attempt (Option Launch)).run =
      (perform e).run inv.host := by
    refine (Task.bind_assoc _ _ _).trans (congrArg (Task.bind _) (funext fun answer => ?_))
    cases answer <;> rfl
  rw [hrun]

theorem settle_change (w : World) (id : RegionId) (change : Region → Region) :
    (Invocation.change id change >>= fun _ => pure none : Attempt (Option Launch)).run.settle w =
      ((Deed.modify id change).run inv.host).settle w := rfl

theorem settle_rest (w : World) (ms : Nat) :
    (ExceptT.lift (Task.sleep ms) >>= fun _ => pure none : Attempt (Option Launch)).run.settle w =
      ((Deed.rest ms).run inv.host).settle w := rfl

theorem settle_post (w : World) (m : Message) :
    (discard (ExceptT.lift (Task.modifyGet (World.send m)) : Attempt Nat) >>= fun _ => pure none :
      Attempt (Option Launch)).run.settle w = ((Deed.post m).run inv.host).settle w := rfl

theorem settle_callMethod (w : World) (object method : String) (args : Object) :
    (Processor.callMethod inv object method args >>= fun _ => pure none :
      Attempt (Option Launch)).run.settle w =
      ((Deed.call object method args).run inv.host).settle w := by
  have hcall : (Processor.callMethod inv object method args).run.settle w =
      match w.objects.call inv.host.methods w.clock object method args with
      | .ok (_, objects) => .ended (.ok ()) { w with objects }
      | .error e => .ended (.error e) w := by
    refine (Task.settle_modifyGet _ w).trans ?_
    cases w.objects.call inv.host.methods w.clock object method args <;> rfl
  rw [settle_run_call]
  cases hresult : w.objects.call inv.host.methods w.clock object method args with
  | ok result =>
    rw [hresult] at hcall
    exact Task.settle_bind_of_ended hcall
  | error e =>
    rw [hresult] at hcall
    exact Task.settle_bind_of_ended hcall

end Doing

theorem settle_operation (inv : Invocation) (w : World) (o : Operation) :
    (Processor.operation inv o >>= fun _ => pure none : Attempt (Option Launch)).run.settle w =
      proceed w (ofOperation inv w o) fun deed => (deed.run inv.host).settle w := by
  cases o with
  | showToast message duration =>
    simp only [Processor.operation, bind_assoc, settle_require, ofOperation,
      proceed_bind, proceed_pure]
    refine proceed_congr fun message => ?_
    exact (settle_evaluateOr inv w _ _ _).trans (settle_perform inv w _)
  | setState region us rebuild =>
    simp only [Processor.operation, bind_assoc, settle_target, settle_updates, settle_change inv,
      ofOperation, proceed_bind, proceed_pure]
  | rebuildState region =>
    simp only [Processor.operation, bind_assoc, settle_target, settle_change inv, ofOperation,
      proceed_bind, proceed_pure]
  | navigateToPage pageId args replace =>
    simp only [Processor.operation, bind_assoc, settle_require, ofOperation,
      proceed_bind, proceed_pure]
    refine proceed_congr fun pageId => ?_
    exact (settle_document inv w _ _).trans (settle_perform inv w _)
  | navigateBack result =>
    simp only [Processor.operation, bind_assoc, settle_document, settle_perform, ofOperation,
      proceed_pure]
  | openUrl url launchMode =>
    simp only [Processor.operation, bind_assoc, settle_require, ofOperation,
      proceed_bind, proceed_pure]
    refine proceed_congr fun url => ?_
    exact (settle_evaluateOr inv w _ _ _).trans (settle_perform inv w _)
  | setAppState us rebuild =>
    simp only [Processor.operation, bind_assoc, settle_updates, settle_change inv, ofOperation,
      proceed_pure]
  | controlObject object method args =>
    simp only [Processor.operation, bind_assoc, settle_require, ofOperation,
      proceed_bind, proceed_pure]
    refine proceed_congr fun object => proceed_congr fun method => ?_
    refine (settle_document inv w _ _).trans ((settle_arguments w _ _).trans ?_)
    exact proceed_congr fun args => settle_callMethod inv w object method args
  | share message subject =>
    simp only [Processor.operation, bind_assoc, settle_require, ofOperation,
      proceed_bind, proceed_pure]
    refine proceed_congr fun message => ?_
    cases subject with
    | none => exact settle_perform inv w _
    | some subject =>
      simp only [bind_assoc]
      exact (settle_evaluate inv w subject _).trans (settle_perform inv w _)
  | delay duration =>
    simp only [Processor.operation, bind_assoc, settle_evaluate, ofOperation, proceed_pure]
    exact settle_rest inv w _
  | copyToClipboard message =>
    simp only [Processor.operation, bind_assoc, settle_require, ofOperation,
      proceed_bind, proceed_pure]
    exact proceed_congr fun text => settle_perform inv w _
  | postMessage name payload =>
    simp only [Processor.operation, bind_assoc, settle_require, ofOperation,
      proceed_bind, proceed_pure]
    refine proceed_congr fun name => ?_
    exact (settle_document inv w _ _).trans (settle_post inv w _)
  | fireEvent name payload =>
    simp only [Processor.operation, bind_assoc, settle_require, ofOperation,
      proceed_bind, proceed_pure]
    refine proceed_congr fun name => ?_
    exact (settle_document inv w _ _).trans (settle_perform inv w _)
  | noop originalTag => rfl
  | custom tag fields => rfl

theorem run_showModal (inv : Invocation) (e : Effect) :
    (do
      let result ← inv.perform e
      pure (some ⟨.onResult, [("result", result)]⟩) : Attempt (Option Launch)).run =
    (Deed.hand e fun answer => answer.map fun result =>
      some ⟨.onResult, [("result", result)]⟩).run inv.host := by
  refine congrArg (Task.bind _) (funext fun answer => ?_)
  cases answer <;> rfl

theorem run_requestFailed (onError : Option Flow) (response : Value) (reason : String) :
    (Processor.requestFailed onError response reason).run =
      .done (requestFailed onError response reason) := by
  cases onError <;> rfl

/-- A step comes to the same as its deed: what it does before is looking. -/
theorem settle_carryOut (inv : Invocation) (w : World) (a : Action) :
    (Processor.carryOut inv a).run.settle w =
      proceed w (of? inv w a) fun deed => (deed.run inv.host).settle w := by
  cases a with
  | simple o c => exact settle_operation inv w o
  | modal kind view onResult c =>
    simp only [Processor.carryOut, Processor.showModal, settle_require, of?,
      proceed_bind, proceed_pure]
    refine proceed_congr fun viewId => (settle_document inv w _ _).trans ?_
    exact congrArg (Task.settle · w) (run_showModal inv _)
  | request source onSuccess onError c =>
    refine (settle_require inv w source.url _ _).trans ((proceed_bind _ _ _).trans ?_).symm
    refine (proceed_congr fun url => ?_).symm
    refine (settle_evaluateOr inv w _ _ _).trans ?_
    refine (settle_document inv w _ _).trans ((settle_document inv w _ _).trans ?_)
    refine congrArg (Task.settle · w) ((Task.bind_assoc _ _ _).trans ?_)
    refine congrArg (Task.bind _) (funext fun answer => ?_)
    cases answer with
    | error e => exact run_requestFailed onError .null e.message
    | ok response =>
      show ExceptT.run (if _ then _ else _) = Task.done (if _ then _ else _)
      split
      · rfl
      · exact run_requestFailed onError response _

end Deed

/-- What the processor of a built-in type makes of a step that it is handed in a world. -/
def Processor.outcome (type : BuiltIn) (inv : Invocation) (a : Action) (w : World) :
    Except ActionError (Option Launch) × World :=
  ((ofBuiltIn type).run inv a).run.run World.pass w

/-- It is what the deed of the step comes to, or the world as it was if the step is refused. -/
theorem Processor.outcome_eq {type : BuiltIn} {a : Action} (own : a.type = .builtIn type)
    (works : type ≠ .noop) (inv : Invocation) (w : World) :
    outcome type inv a w =
      match Deed.of? inv w a with
      | .ok deed => (deed.run inv.host).run World.pass w
      | .error e => (.error e, w) := by
  have carried : ((ofBuiltIn type).run inv a).run = (carryOut inv a).run := by
    simp only [ofBuiltIn, if_neg works, if_pos own]
  rw [outcome, carried, Task.run_of_settle, Deed.settle_carryOut]
  cases Deed.of? inv w a with
  | error e => rfl
  | ok deed => exact (Task.run_of_settle World.pass (deed.run inv.host) w).symm

end StepFlow
