import StepFlow.ActionType
import StepFlow.ExprOr

/-!
# Steps and flows

A flow is a list of steps. Most steps are a single operation; a step that shows a modal view or
calls a remote endpoint may own further flows, run with what the view or the endpoint answered.
Every step may carry a condition under which it is skipped.
-/

namespace StepFlow

/-- One name of a region and the value it is set to. Expressions anywhere in the
value are evaluated. -/
structure StateUpdate where
  stateName : String
  newValue : Value
deriving DecidableEq

/-- The description of a request to a remote endpoint. -/
structure DataSource where
  method : Option (ExprOr .httpMethod)
  url : ExprOr .text
  headers : Value
  body : Value
deriving DecidableEq

structure ModalView where
  viewId : ExprOr .text
  args : Value
  barrierDismissible : Bool
deriving DecidableEq

/-- What a step without nested flows does. -/
inductive Operation where
  | showToast (message : ExprOr .text) (duration : Option (ExprOr .toastDuration))
  /-- Without a region the flow's own region is meant. -/
  | setState (region : Option String) (updates : List StateUpdate) (rebuild : Bool)
  | rebuildState (region : Option String)
  | navigateToPage (pageId : ExprOr .text) (args : Value) (replace : Bool)
  | navigateBack (result : Value)
  | openUrl (url : ExprOr .text) (launchMode : Option (ExprOr .launchMode))
  | setAppState (updates : List StateUpdate) (rebuild : Bool)
  | controlObject (object method : ExprOr .text) (args : Value)
  | share (message : ExprOr .text) (subject : Option (ExprOr .text))
  | delay (durationInMs : ExprOr (.int .signed64))
  | copyToClipboard (message : ExprOr .text)
  | postMessage (name : ExprOr .text) (payload : Value)
  | fireEvent (name : ExprOr .text) (payload : Value)
  /-- Does nothing; it may stand for a step of an unknown type, whose tag it keeps. -/
  | noop (originalTag : Option String)
  /-- A step for the host: its tag as written and its own fields. -/
  | custom (tag : String) (fields : Object)
deriving DecidableEq

/-- A list of steps, with a display hint for whatever launches them. -/
structure FlowOf (α : Type) where
  steps : List α
  inkWell : Bool

/-- The condition under which a step is skipped. -/
abbrev Condition : Type := Option (ExprOr .bool)

inductive Action where
  | simple (operation : Operation) (disableIf : Condition)
  | modal (kind : ModalKind) (view : ModalView) (onResult : Option (FlowOf Action))
      (disableIf : Condition)
  | request (source : DataSource) (onSuccess onError : Option (FlowOf Action))
      (disableIf : Condition)

abbrev Flow : Type := FlowOf Action

def ModalKind.stepType : ModalKind → BuiltIn
  | .dialog => .showDialog
  | .bottomSheet => .showBottomSheet

def Operation.type : Operation → ActionType
  | .showToast _ _ => .builtIn .showToast
  | .setState _ _ _ => .builtIn .setState
  | .rebuildState _ => .builtIn .rebuildState
  | .navigateToPage _ _ _ => .builtIn .navigateToPage
  | .navigateBack _ => .builtIn .navigateBack
  | .openUrl _ _ => .builtIn .openUrl
  | .setAppState _ _ => .builtIn .setAppState
  | .controlObject _ _ _ => .builtIn .controlObject
  | .share _ _ => .builtIn .share
  | .delay _ => .builtIn .delay
  | .copyToClipboard _ => .builtIn .copyToClipboard
  | .postMessage _ _ => .builtIn .postMessage
  | .fireEvent _ _ => .builtIn .fireEvent
  | .noop _ => .builtIn .noop
  | .custom tag _ => ActionType.ofHostTag tag

namespace Action

def type : Action → ActionType
  | .simple operation _ => operation.type
  | .modal kind _ _ _ => .builtIn kind.stepType
  | .request _ _ _ _ => .builtIn .callRestApi

def disableIf : Action → Condition
  | .simple _ c | .modal _ _ _ c | .request _ _ _ c => c

/-- Whether a step is skipped: its condition must evaluate to true, so that a step without one, or
with one that cannot be evaluated, is run. -/
def isDisabled (look : Bindings) (a : Action) : Bool :=
  (a.disableIf.bind fun condition => condition.evaluate look).getD false

/-- The flows that a step owns, each in a named slot. -/
def nested : Action → List (String × Option Flow)
  | .simple _ _ => []
  | .modal _ _ onResult _ => [("onResult", onResult)]
  | .request _ onSuccess onError _ => [("onSuccess", onSuccess), ("onError", onError)]

mutual

def decEq : (a b : Action) → Decidable (a = b)
  | .simple o c, .simple o' c' =>
    if h : o = o' ∧ c = c' then isTrue (by rw [h.1, h.2])
    else isFalse (by simpa using h)
  | .modal k v r c, .modal k' v' r' c' =>
    if h : k = k' ∧ v = v' ∧ c = c' then
      match decEqSlot r r' with
      | isTrue hr => isTrue (by rw [h.1, h.2.1, h.2.2, hr])
      | isFalse hr => isFalse (by simp [hr])
    else isFalse (by intro e; cases e; exact h ⟨rfl, rfl, rfl⟩)
  | .request s r e c, .request s' r' e' c' =>
    if h : s = s' ∧ c = c' then
      match decEqSlot r r', decEqSlot e e' with
      | isTrue hr, isTrue he => isTrue (by rw [h.1, h.2, hr, he])
      | isFalse hr, _ => isFalse (by simp [hr])
      | _, isFalse he => isFalse (by simp [he])
    else isFalse (by intro e; cases e; exact h ⟨rfl, rfl⟩)
  | .simple _ _, .modal _ _ _ _ | .simple _ _, .request _ _ _ _ | .modal _ _ _ _, .simple _ _
  | .modal _ _ _ _, .request _ _ _ _ | .request _ _ _ _, .simple _ _
  | .request _ _ _ _, .modal _ _ _ _ => isFalse (by simp)

def decEqSlot : (a b : Option (FlowOf Action)) → Decidable (a = b)
  | none, none => isTrue rfl
  | none, some _ => isFalse (by simp)
  | some _, none => isFalse (by simp)
  | some f, some g =>
    match decEqFlow f g with
    | isTrue h => isTrue (by rw [h])
    | isFalse h => isFalse (by simp [h])

def decEqFlow : (a b : FlowOf Action) → Decidable (a = b)
  | ⟨steps, inkWell⟩, ⟨steps', inkWell'⟩ =>
    if h : inkWell = inkWell' then
      match decEqSteps steps steps' with
      | isTrue hs => isTrue (by rw [h, hs])
      | isFalse hs => isFalse (by simp [hs])
    else isFalse (by simp [h])

def decEqSteps : (a b : List Action) → Decidable (a = b)
  | [], [] => isTrue rfl
  | [], _ :: _ => isFalse (by simp)
  | _ :: _, [] => isFalse (by simp)
  | x :: xs, y :: ys =>
    match decEq x y, decEqSteps xs ys with
    | isTrue h, isTrue hs => isTrue (by rw [h, hs])
    | isFalse h, _ => isFalse (by simp [h])
    | _, isFalse hs => isFalse (by simp [hs])

end

instance : DecidableEq Action := decEq

instance : DecidableEq Flow := decEqFlow

end Action

end StepFlow
