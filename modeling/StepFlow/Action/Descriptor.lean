import StepFlow.Action
import StepFlow.ActionError

/-!
# Reading steps and flows

A step is written as an object, its descriptor, with a tag under `type` and the fields of that type.
Fields that may hold an expression or any document accept every value; the others are strict. Strict
fields are checked in the order of their keys, and required ones are missed in the order in which
the type declares them, so that one descriptor has one error.

A flow is written as a list of descriptors or as an object with such a list under `steps`.
Descriptors that cannot be read are left out, and a flow without steps is no flow.
-/

namespace StepFlow

namespace Descriptor

def typeKey : String := "type"

def conditionKey : String := "disableActionIf"

/-- A strict truth value. -/
def flag (o : Object) (key : String) (default : Bool) : Except FieldError Bool :=
  match Object.get? o key with
  | none => .ok default
  | some (.bool b) => .ok b
  | some v => .error (.wrongType v .truthValue)

/-- A strict text that may be left out or null. -/
def text? (o : Object) (key : String) : Except FieldError (Option String) :=
  match Object.get? o key with
  | none | some .null => .ok none
  | some (.string s) => .ok (some s)
  | some v => .error (.wrongType v .text)

def document (o : Object) (key : String) : Value :=
  (Object.get? o key).getD .null

/-- A field that must be present. -/
def required (shape : Shape) (o : Object) (key : String) : Except FieldError (ExprOr shape) :=
  match Object.get? o key with
  | none => .error (.missing key)
  | some v => .ok (ExprOr.ofDocument shape v)

/-- A value that may be null instead. -/
def unlessNull (shape : Shape) : Value → Option (ExprOr shape)
  | .null => none
  | v => some (ExprOr.ofDocument shape v)

/-- A field that may be left out or null. -/
def optional (shape : Shape) (o : Object) (key : String) : Option (ExprOr shape) :=
  unlessNull shape (document o key)

/-- An update of a region: an object, or a list of the name and possibly the value. -/
def stateUpdate : Value → Except FieldError StateUpdate
  | .object o =>
    match Object.get? o "stateName" with
    | none => .error (.missing "stateName")
    | some (.string name) => .ok ⟨name, document o "newValue"⟩
    | some v => .error (.wrongType v .text)
  | .array [] => .error (.tooShort 0 .stateUpdate)
  | .array [.string name] => .ok ⟨name, .null⟩
  | .array [.string name, value] => .ok ⟨name, value⟩
  | .array (.string _ :: rest) => .error (.tooLong (rest.length + 1))
  | .array (v :: _) => .error (.wrongType v .text)
  | v => .error (.wrongType v .stateUpdate)

def updates (o : Object) : Except FieldError (List StateUpdate) :=
  match Object.get? o "updates" with
  | none => .ok []
  | some (.array items) => items.mapM stateUpdate
  | some v => .error (.wrongType v .sequence)

/-- The description of a request: an object, or a list of its fields from the method on. -/
def dataSource : Value → Except FieldError DataSource
  | .object o => do
    let url ← required .text o "url"
    pure ⟨optional .httpMethod o "method", url, document o "headers", document o "body"⟩
  | .array (method :: url :: rest) =>
    let source := DataSource.mk (unlessNull .httpMethod method) (ExprOr.ofDocument .text url)
    match rest with
    | [] => .ok (source .null .null)
    | [headers] => .ok (source headers .null)
    | [headers, body] => .ok (source headers body)
    | _ => .error (.tooLong (rest.length + 2))
  | .array _ => .error (.tooShort 1 .dataSource)
  | v => .error (.wrongType v .dataSource)

def requestSource (o : Object) : Except FieldError DataSource :=
  match Object.get? o "dataSource" with
  | none => .error (.missing "dataSource")
  | some v => dataSource v

def modalView (o : Object) : Except FieldError ModalView := do
  let barrierDismissible ← flag o "barrierDismissible" true
  let viewId ← required .text o "viewId"
  pure ⟨viewId, document o "args", barrierDismissible⟩

def condition (o : Object) : Condition :=
  optional .bool o conditionKey

/-- The fields that a step for the host has of its own. -/
def hostFields (o : Object) : Object :=
  Object.erase (Object.erase o typeKey) conditionKey

/-- The name of a region, the updates and whether dependents are told. -/
def setState (o : Object) : Except FieldError Operation := do
  let rebuild ← flag o "rebuild" true
  let region ← text? o "stateContextName"
  let updates ← updates o
  pure (.setState region updates rebuild)

/-- The updates of the application state and whether dependents are told. -/
def setAppState (o : Object) : Except FieldError Operation := do
  let rebuild ← flag o "rebuild" true
  let updates ← updates o
  pure (.setAppState updates rebuild)

/-- The page, its arguments and whether it takes the place of the present one. -/
def navigateToPage (o : Object) : Except FieldError Operation := do
  let replace ← flag o "replace" false
  let pageId ← required .text o "pageId"
  pure (.navigateToPage pageId (document o "args") replace)

/-- The object, the method and the arguments. -/
def controlObject (o : Object) : Except FieldError Operation := do
  let object ← required .text o "object"
  let method ← required .text o "method"
  pure (.controlObject object method (document o "args"))

/-- How a built-in type of step reads its fields: as an operation, or with the
flows nested in it. -/
inductive Reading where
  | operation (read : Object → Except FieldError Operation)
  | modal (kind : ModalKind)
  | request

/-- How the fields of a built-in type of step are read. -/
def reading : BuiltIn → Reading
  | .showToast => .operation fun o => do
    let message ← required .text o "message"
    pure (.showToast message (optional .toastDuration o "duration"))
  | .setState => .operation setState
  | .rebuildState => .operation fun o => do
    let region ← text? o "stateContextName"
    pure (.rebuildState region)
  | .navigateToPage => .operation navigateToPage
  | .navigateBack => .operation fun o => pure (.navigateBack (document o "result"))
  | .showDialog => .modal .dialog
  | .showBottomSheet => .modal .bottomSheet
  | .callRestApi => .request
  | .openUrl => .operation fun o => do
    let url ← required .text o "url"
    pure (.openUrl url (optional .launchMode o "launchMode"))
  | .setAppState => .operation setAppState
  | .controlObject => .operation controlObject
  | .share => .operation fun o => do
    let message ← required .text o "message"
    pure (.share message (optional .text o "subject"))
  | .delay => .operation fun o => do
    let duration ← required (.int .signed64) o "durationInMs"
    pure (.delay duration)
  | .copyToClipboard => .operation fun o => do
    let message ← required .text o "message"
    pure (.copyToClipboard message)
  | .postMessage => .operation fun o => do
    let name ← required .text o "name"
    pure (.postMessage name (document o "payload"))
  | .fireEvent => .operation fun o => do
    let name ← required .text o "name"
    pure (.fireEvent name (document o "payload"))
  | .noop => .operation fun _ => pure (.noop none)

mutual

def action : Value → Except DescriptorError Action
  | .object o =>
    match Object.get? o typeKey with
    | some (.string tag) =>
      match ActionType.ofTag tag with
      | .custom _ => .ok (.simple (.custom tag (hostFields o)) (condition o))
      | .builtIn type =>
        Except.mapError (.field tag) <|
          match reading type with
          | .operation read => (read o).map fun operation => .simple operation (condition o)
          | .modal kind => (modalView o).map fun view =>
            .modal kind view (slot "onResult" o) (condition o)
          | .request => (requestSource o).map fun source =>
            .request source (slot "onSuccess" o) (slot "onError" o) (condition o)
    | _ => .error .noType
  | v => .error (.notAnObject v)

def slot (key : String) : List (String × Value) → Option Flow
  | [] => none
  | (k, v) :: rest => if k = key then flow? v else slot key rest

def flow? : Value → Option Flow
  | .array items =>
    match steps items with
    | [] => none
    | first :: rest => some ⟨first :: rest, false⟩
  | .object o =>
    match stepsUnder o with
    | [] => none
    | first :: rest => some ⟨first :: rest, Object.get? o "inkWell" = some (.bool true)⟩
  | _ => none

/-- Reads the steps under `steps`, if there is a list. -/
def stepsUnder : List (String × Value) → List Action
  | [] => []
  | (k, v) :: rest =>
    if k = "steps" then
      match v with
      | .array items => steps items
      | _ => []
    else stepsUnder rest

/-- Reads those of a list of steps that can be read. -/
def steps : List Value → List Action
  | [] => []
  | v :: rest =>
    match action v with
    | .ok a => a :: steps rest
    | .error _ => steps rest

end

end Descriptor

/-- The step that a document value describes. -/
def Action.ofValue (v : Value) : Except DescriptorError Action := Descriptor.action v

/-- The flow that a document value describes, if it has a step that can be read. -/
def Flow.ofValue? (v : Value) : Option Flow := Descriptor.flow? v

/-- The descriptors that a document holds for a flow, readable or not. -/
def Flow.descriptors : Value → List Value
  | .array items => items
  | .object o =>
    match Object.get? o "steps" with
    | some (.array items) => items
    | _ => []
  | _ => []

end StepFlow
