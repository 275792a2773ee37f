import StepFlow.Action.Descriptor

/-!
# Writing steps and flows

A step is written as the descriptor that reads back as the same step. Fields that have the
value they would have when left out are left out, except that updates and the value of an
update are always written. A step that stands for one of an unknown type is written under the
tag it was found with.
-/

namespace StepFlow

namespace Written

/-- A field that is left out when null. -/
def document (key : String) : Value → List (String × Value)
  | .null => []
  | v => [(key, v)]

def required {shape : Shape} (key : String) (field : ExprOr shape) : List (String × Value) :=
  [(key, field.toValue)]

/-- A field that may be absent. -/
def optional {shape : Shape} (key : String) : Option (ExprOr shape) → List (String × Value)
  | none => []
  | some field => required key field

def text (key : String) : Option String → List (String × Value)
  | none => []
  | some s => [(key, .string s)]

/-- A truth value that is left out when it is the default. -/
def flag (key : String) (default b : Bool) : List (String × Value) :=
  if b = default then [] else [(key, .bool b)]

def stateUpdate (update : StateUpdate) : Value :=
  .ofEntries [("stateName", .string update.stateName), ("newValue", update.newValue)]

def updates (us : List StateUpdate) : List (String × Value) :=
  [("updates", .array (us.map stateUpdate))]

def dataSource (source : DataSource) : Value :=
  .ofEntries (optional "method" source.method ++ required "url" source.url ++
    document "headers" source.headers ++ document "body" source.body)

def modalView (view : ModalView) : List (String × Value) :=
  required "viewId" view.viewId ++ document "args" view.args ++
    flag "barrierDismissible" true view.barrierDismissible

def operation : Operation → List (String × Value)
  | .showToast message duration => required "message" message ++ optional "duration" duration
  | .setState region us rebuild =>
    text "stateContextName" region ++ updates us ++ flag "rebuild" true rebuild
  | .rebuildState region => text "stateContextName" region
  | .navigateToPage pageId args replace =>
    required "pageId" pageId ++ document "args" args ++ flag "replace" false replace
  | .navigateBack result => document "result" result
  | .openUrl url launchMode => required "url" url ++ optional "launchMode" launchMode
  | .setAppState us rebuild => updates us ++ flag "rebuild" true rebuild
  | .controlObject object method args =>
    required "object" object ++ required "method" method ++ document "args" args
  | .share message subject => required "message" message ++ optional "subject" subject
  | .delay duration => required "durationInMs" duration
  | .copyToClipboard message => required "message" message
  | .postMessage name payload => required "name" name ++ document "payload" payload
  | .fireEvent name payload => required "name" name ++ document "payload" payload
  | .noop _ => []
  | .custom _ fields => fields

def tag : Operation → String
  | .noop (some tag) => tag
  | .custom tag _ => tag
  | o => o.type.tag

/-- A descriptor: the fields of its type, the tag and the condition. -/
def descriptor (fields : List (String × Value)) (tag : String) (condition : Condition) : Value :=
  .ofEntries (fields ++ [(Descriptor.typeKey, .string tag)] ++
    optional Descriptor.conditionKey condition)

mutual

def action : Action → Value
  | .simple o c => descriptor (operation o) (tag o) c
  | .modal kind view onResult c =>
    descriptor (modalView view ++ slot "onResult" onResult) (ActionType.builtIn kind.stepType).tag c
  | .request source onSuccess onError c =>
    descriptor
      (("dataSource", dataSource source) :: slot "onSuccess" onSuccess ++ slot "onError" onError)
      (ActionType.builtIn .callRestApi).tag c

def slot (key : String) : Option (FlowOf Action) → List (String × Value)
  | none => []
  | some written => [(key, flow written)]

def flow : FlowOf Action → Value
  | ⟨actions, inkWell⟩ => .ofEntries [("steps", .array (steps actions)), ("inkWell", .bool inkWell)]

def steps : List Action → List Value
  | [] => []
  | a :: rest => action a :: steps rest

end

end Written

def Action.toValue (a : Action) : Value := Written.action a

def Flow.toValue (flow : Flow) : Value := Written.flow flow

end StepFlow
