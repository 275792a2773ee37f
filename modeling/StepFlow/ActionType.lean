import StepFlow.Text.Blank

/-!
# Types of steps

A step names its type by a tag. Seventeen types are built in; every other tag names a type
that the host may know. Tags are compared without regard to case, and one leading `Action.`
of a tag is optional, so two tags name the same type exactly if they agree after both are
brought to their bare form.
-/

namespace StepFlow

inductive BuiltIn where
  | showToast
  | setState
  | rebuildState
  | navigateToPage
  | navigateBack
  | showDialog
  | showBottomSheet
  | callRestApi
  | openUrl
  | setAppState
  | controlObject
  | share
  | delay
  | copyToClipboard
  | postMessage
  | fireEvent
  | noop
deriving DecidableEq, Repr

namespace BuiltIn

def all : List BuiltIn := [
  .showToast, .setState, .rebuildState, .navigateToPage, .navigateBack, .showDialog,
  .showBottomSheet, .callRestApi, .openUrl, .setAppState, .controlObject, .share, .delay,
  .copyToClipboard, .postMessage, .fireEvent, .noop]

def name : BuiltIn → String
  | .showToast => "showToast"
  | .setState => "setState"
  | .rebuildState => "rebuildState"
  | .navigateToPage => "navigateToPage"
  | .navigateBack => "navigateBack"
  | .showDialog => "showDialog"
  | .showBottomSheet => "showBottomSheet"
  | .callRestApi => "callRestApi"
  | .openUrl => "openUrl"
  | .setAppState => "setAppState"
  | .controlObject => "controlObject"
  | .share => "share"
  | .delay => "delay"
  | .copyToClipboard => "copyToClipBoard"
  | .postMessage => "postMessage"
  | .fireEvent => "fireEvent"
  | .noop => "noop"

/-- What a step of a built-in type does, in a few words. -/
def description : BuiltIn → String
  | .showToast => "Show a transient message"
  | .setState => "Write values into a state region"
  | .rebuildState => "Force dependents of a state region to recompute"
  | .navigateToPage => "Navigate to a page"
  | .navigateBack => "Navigate back to the previous page"
  | .showDialog => "Show a dialog and wait for its result"
  | .showBottomSheet => "Show a bottom sheet and wait for its result"
  | .callRestApi => "Call a REST endpoint"
  | .openUrl => "Open an external URL"
  | .setAppState => "Write values into the app state region"
  | .controlObject => "Call a method on a named object"
  | .share => "Share text through the system share sheet"
  | .delay => "Wait before running the next action"
  | .copyToClipboard => "Copy text to the clipboard"
  | .postMessage => "Publish a message on a bus channel"
  | .fireEvent => "Fire a named event at the host"
  | .noop => "Do nothing"

end BuiltIn

inductive ActionType where
  | builtIn (type : BuiltIn)
  /-- A type known to the host, by its bare name. -/
  | custom (name : String)
deriving DecidableEq, Repr

namespace ActionType

/-- What may stand before the name in a tag. -/
def opening : String := "Action."

/-- A tag with one opening taken off, if it has one in any case. -/
def withoutOpening (tag : String) : String :=
  let cs := tag.toList
  if Text.sameName (String.ofList (cs.take opening.length)) opening then
    String.ofList (cs.drop opening.length)
  else tag

/-- The bare form of a tag: no opening, and the letters `A` to `Z` made small. -/
def bareName (tag : String) : String :=
  Text.foldCase (withoutOpening tag)

/-- The type that a tag names among the built-in ones. -/
@[irreducible] def builtIn? (tag : String) : Option BuiltIn :=
  BuiltIn.all.find? fun type => bareName tag = Text.foldCase type.name

/-- The type that the host registers under a tag. -/
def ofHostTag (tag : String) : ActionType :=
  .custom (bareName tag)

/-- The type that a tag names. -/
def ofTag (tag : String) : ActionType :=
  match builtIn? tag with
  | some type => .builtIn type
  | none => ofHostTag tag

def name : ActionType → String
  | .builtIn type => type.name
  | .custom name => name

/-- The tag that documents write for a type. -/
def tag (type : ActionType) : String :=
  opening ++ type.name

def isCustom : ActionType → Bool
  | .builtIn _ => false
  | .custom _ => true

/-- The order of types: the built-in ones in their order, then the others by name. -/
def before : ActionType → ActionType → Bool
  | .builtIn a, .builtIn b => BuiltIn.all.idxOf a ≤ BuiltIn.all.idxOf b
  | .builtIn _, .custom _ => true
  | .custom _, .builtIn _ => false
  | .custom a, .custom b => a ≤ b

end ActionType

end StepFlow
