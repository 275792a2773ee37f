import StepFlow.Processor

/-!
# The processors of the built-in types

Every processor evaluates what it needs and refuses to go on where something is missing, before it
changes anything. So a step that fails for want of a parameter, a region, an object or a method has
done nothing, and one that fails because the host refused its effect has done nothing else.
-/

namespace StepFlow.Processor

/-! ## Steps without nested flows -/

/-- The arguments of a method: an object, or none at all. -/
def methodArguments : Value → Attempt Object
  | .object args => pure args
  | .null => pure []
  | v => throw (.invalidParameters (.argumentsNotAnObject v))

/-- Calls a method of a named object. A call that fails changes nothing. -/
def callMethod (inv : Invocation) (object method : String) (args : Object) : Attempt Unit :=
  ExceptT.mk (Task.modifyGet fun w =>
    match w.objects.call inv.host.methods w.clock object method args with
    | .ok (_, objects) => (.ok (), { w with objects })
    | .error e => (.error e, w))

/-- How long a delay takes: not at all where it is negative or unusable. -/
def delayMillis (duration : Option (IntKind.Carrier .signed64)) : Nat :=
  match duration with
  | some n => n.val.toNat
  | none => 0

def operation (inv : Invocation) : Operation → Attempt Unit
  | .showToast message duration => do
    let message ← inv.require message "message"
    let duration ← inv.evaluateOr duration ToastDuration.short
    discard <| inv.perform (.showToast message duration)
  | .setState region us rebuild => do
    let target ← inv.target region
    let values ← inv.updates us
    Invocation.change target fun r => r.setAll values rebuild
  | .rebuildState region => do
    let target ← inv.target region
    Invocation.change target Region.flush
  | .navigateToPage pageId args replace => do
    let pageId ← inv.require pageId "pageId"
    let args ← inv.document args
    discard <| inv.perform (.navigateToPage pageId args replace)
  | .navigateBack result => do
    let result ← inv.document result
    discard <| inv.perform (.navigateBack result)
  | .openUrl url launchMode => do
    let url ← inv.require url "url"
    let launchMode ← inv.evaluateOr launchMode LaunchMode.platformDefault
    discard <| inv.perform (.openUrl url launchMode)
  | .setAppState us rebuild => do
    let values ← inv.updates us
    Invocation.change inv.host.appState fun r => r.setAll values rebuild
  | .controlObject object method args => do
    let object ← inv.require object "object"
    let method ← inv.require method "method"
    let args ← methodArguments (← inv.document args)
    callMethod inv object method args
  | .share message subject => do
    let message ← inv.require message "message"
    let subject ← match subject with
      | some subject => inv.evaluate subject
      | none => pure none
    discard <| inv.perform (.share message subject)
  | .delay duration => do
    let duration ← inv.evaluate duration
    ExceptT.lift (Task.sleep (delayMillis duration))
  | .copyToClipboard message => do
    let text ← inv.require message "message"
    discard <| inv.perform (.copyToClipboard text)
  | .postMessage name payload => do
    let name ← inv.require name "name"
    let payload ← inv.document payload
    discard <| ExceptT.lift (Task.modifyGet (World.send ⟨name, payload, some inv.executionId⟩))
  | .fireEvent name payload => do
    let name ← inv.require name "name"
    let payload ← inv.document payload
    discard <| inv.perform (.fireEvent name payload)
  | .noop _ => pure ()
  | .custom _ _ => pure ()

/-! ## Steps that launch flows -/

/-- Shows a modal view and launches the flow for what it answers. -/
def showModal (inv : Invocation) (kind : ModalKind) (view : ModalView) :
    Attempt (Option Launch) := do
  let viewId ← inv.require view.viewId "viewId"
  let args ← inv.document view.args
  let result ← inv.perform (.showModal kind viewId args view.barrierDismissible)
  pure (some ⟨.onResult, [("result", result)]⟩)

/-- The status of a response; one that does not say counts as 200. -/
def statusCode (response : Value) : Nat :=
  match response.field? "statusCode" with
  | some (.number n) => n.natural?.getD 200
  | _ => 200

/-- What follows on a failed request: the flow for errors, or else a failure of the step. -/
def requestFailed (onError : Option Flow) (response : Value) (reason : String) :
    Attempt (Option Launch) :=
  match onError with
  | some _ => pure (some ⟨.onError, [("response", response), ("error", .string reason)]⟩)
  | none => throw (.effectFailed reason)

/-- Makes a request and launches the flow for success or for an error. -/
def callRestApi (inv : Invocation) (source : DataSource) (onError : Option Flow) :
    Attempt (Option Launch) := do
  let url : String ← inv.require source.url "dataSource.url"
  let method ← inv.evaluateOr source.method HttpMethod.get
  let headers ← inv.document source.headers
  let body ← inv.document source.body
  let answer ← ExceptT.lift (inv.perform (.httpRequest method url headers body)).run
  match answer with
  | .ok response =>
    let status := statusCode response
    if 200 ≤ status ∧ status < 300 then pure (some ⟨.onSuccess, [("response", response)]⟩)
    else requestFailed onError response (url ++ " returned status " ++ toString status)
  | .error e => requestFailed onError .null e.message

/-! ## The processors -/

def carryOut (inv : Invocation) : Action → Attempt (Option Launch)
  | .simple o _ => do
    operation inv o
    pure none
  | .modal kind view _ _ => showModal inv kind view
  | .request source _ onError _ => callRestApi inv source onError

/-- The processor of a built-in type. It refuses steps of other types, except that the one which
does nothing does it for any step. -/
def ofBuiltIn (type : BuiltIn) : Processor where
  type := .builtIn type
  description := type.description
  timeout := none
  run inv a :=
    if type = .noop then pure none
    else if a.type = .builtIn type then carryOut inv a
    else throw (.executionFailed (.otherType type.name a.type.name))

end StepFlow.Processor
