import StepFlow.Json
import StepFlow.Vocabulary

/-!
# Effects

A step never touches the platform itself. It describes what it wants as an effect, and the host
performs the effect and answers with a document or a refusal. Effects are written as records
with their kind under `effect`; in reading, a record may also be the list of its fields in
order, the kind first.
-/

namespace StepFlow

/-- A request to the host. -/
inductive Effect where
  | showToast (message : String) (duration : ToastDuration)
  | copyToClipboard (text : String)
  | share (message : String) (subject : Option String)
  | navigateToPage (pageId : String) (args : Value) (replace : Bool)
  | navigateBack (result : Value)
  | showModal (kind : ModalKind) (viewId : String) (args : Value) (barrierDismissible : Bool)
  | openUrl (url : String) (launchMode : LaunchMode)
  | httpRequest (method : HttpMethod) (url : String) (headers body : Value)
  | fireEvent (name : String) (payload : Value)
deriving DecidableEq

/-! ## Records -/

namespace Record

/-- The fields of a record: an object, or a list with exactly the named fields in order. -/
def fields? (names : List String) : Value → Option Object
  | .object o => some o
  | .array items =>
    if items.length = names.length then some (Object.ofList (names.zip items)) else none
  | _ => none

def text? (o : Object) (key : String) : Option String :=
  (Object.get? o key).bind Value.string?

/-- A text that may be null or left out. -/
def textOrNull? (o : Object) (key : String) : Option (Option String) :=
  match Object.get? o key with
  | none | some .null => some none
  | some (.string s) => some (some s)
  | some _ => none

def flag? (o : Object) (key : String) : Option Bool :=
  match Object.get? o key with
  | some (.bool b) => some b
  | _ => none

/-- The word that a value writes: a text, or an object with the word as its only key and nothing
under it. -/
def word? : Value → Option String
  | .string s => some s
  | .object [(s, .null)] | .object [(s, .object [])] => some s
  | _ => none

/-- A word of a vocabulary, written exactly. -/
def choice? {α : Type} (vocabulary : Vocabulary α) (o : Object) (key : String) : Option α := do
  let v ← Object.get? o key
  let s ← word? v
  vocabulary.strict? s

end Record

namespace Effect

def kind : Effect → String
  | .showToast _ _ => "showToast"
  | .copyToClipboard _ => "copyToClipboard"
  | .share _ _ => "share"
  | .navigateToPage _ _ _ => "navigateToPage"
  | .navigateBack _ => "navigateBack"
  | .showModal _ _ _ _ => "showModal"
  | .openUrl _ _ => "openUrl"
  | .httpRequest _ _ _ _ => "httpRequest"
  | .fireEvent _ _ => "fireEvent"

/-- The kind of a written effect, and the rest of it. -/
def split? : Value → Option (String × Value)
  | .object o => (Record.text? o "effect").map fun kind => (kind, .object o)
  | .array (.string kind :: rest) => some (kind, .array rest)
  | _ => none

/-- An effect of a kind from the rest of it. -/
def ofFields? (kind : String) (body : Value) : Option Effect :=
  match kind with
  | "showToast" => do
    let o ← Record.fields? ["message", "duration"] body
    pure (.showToast (← Record.text? o "message")
      (← Record.choice? ToastDuration.vocabulary o "duration"))
  | "copyToClipboard" => do
    let o ← Record.fields? ["text"] body
    pure (.copyToClipboard (← Record.text? o "text"))
  | "share" => do
    let o ← Record.fields? ["message", "subject"] body
    pure (.share (← Record.text? o "message") (← Record.textOrNull? o "subject"))
  | "navigateToPage" => do
    let o ← Record.fields? ["pageId", "args", "replace"] body
    pure (.navigateToPage (← Record.text? o "pageId") (← Object.get? o "args")
      (← Record.flag? o "replace"))
  | "navigateBack" => do
    let o ← Record.fields? ["result"] body
    pure (.navigateBack (← Object.get? o "result"))
  | "showModal" => do
    let o ← Record.fields? ["kind", "viewId", "args", "barrierDismissible"] body
    pure (.showModal (← Record.choice? ModalKind.vocabulary o "kind") (← Record.text? o "viewId")
      (← Object.get? o "args") (← Record.flag? o "barrierDismissible"))
  | "openUrl" => do
    let o ← Record.fields? ["url", "launchMode"] body
    pure (.openUrl (← Record.text? o "url")
      (← Record.choice? LaunchMode.vocabulary o "launchMode"))
  | "httpRequest" => do
    let o ← Record.fields? ["method", "url", "headers", "body"] body
    pure (.httpRequest (← Record.choice? HttpMethod.vocabulary o "method") (← Record.text? o "url")
      (← Object.get? o "headers") (← Object.get? o "body"))
  | "fireEvent" => do
    let o ← Record.fields? ["name", "payload"] body
    pure (.fireEvent (← Record.text? o "name") (← Object.get? o "payload"))
  | _ => none

def ofValue? (v : Value) : Option Effect := do
  let (kind, body) ← split? v
  ofFields? kind body

def fields : Effect → List (String × Value)
  | .showToast message duration =>
    [("message", .string message), ("duration", .string (ToastDuration.vocabulary.word duration))]
  | .copyToClipboard text => [("text", .string text)]
  | .share message subject =>
    [("message", .string message), ("subject", (subject.map .string).getD .null)]
  | .navigateToPage pageId args replace =>
    [("pageId", .string pageId), ("args", args), ("replace", .bool replace)]
  | .navigateBack result => [("result", result)]
  | .showModal kind viewId args barrierDismissible =>
    [("kind", .string (ModalKind.vocabulary.word kind)), ("viewId", .string viewId), ("args", args),
      ("barrierDismissible", .bool barrierDismissible)]
  | .openUrl url launchMode =>
    [("url", .string url), ("launchMode", .string (LaunchMode.vocabulary.word launchMode))]
  | .httpRequest method url headers body =>
    [("method", .string (HttpMethod.vocabulary.word method)), ("url", .string url),
      ("headers", headers), ("body", body)]
  | .fireEvent name payload => [("name", .string name), ("payload", payload)]

def toValue (e : Effect) : Value :=
  .ofEntries (("effect", .string e.kind) :: e.fields)

end Effect

end StepFlow
