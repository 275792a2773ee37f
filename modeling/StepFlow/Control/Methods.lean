import StepFlow.Control

/-!
# Methods of objects

A method is found by the category that an object claims and by its name. It is declared for one kind
of object, and calling it on an object of another kind is an error in which nothing happens.
Registering a method again replaces it.
-/

namespace StepFlow

namespace Arguments

/-- An argument of a shape, if it is there and converts to it. -/
def get? (shape : Shape) (args : Object) (name : String) : Option shape.Carrier :=
  (Object.get? args name).bind shape.ofValue?

def getOr (shape : Shape) (args : Object) (name : String) (default : shape.Carrier) :
    shape.Carrier :=
  (get? shape args name).getD default

/-- An argument of a shape that has to be there. -/
def required (shape : Shape) (args : Object) (name : String) : Except ActionError shape.Carrier :=
  match get? shape args name with
  | some a => .ok a
  | none => .error (.invalidParameters (.missingArgument name))

end Arguments

section Table

variable {κ : Type} {State : κ → Type}

/-- What a method does to an object of its kind, at a time and with arguments. -/
structure MethodOf {κ : Type} (State : κ → Type) where
  kind : κ
  run : Nat → Object → State kind → Except ActionError (Value × State kind)

namespace MethodOf

def call [DecidableEq κ] (m : MethodOf State) (now : Nat) (args : Object) (c : ControlOf State) :
    Except ActionError (Value × ControlOf State) :=
  if h : c.kind = m.kind then
    (m.run now args (h ▸ c.state)).map fun result => (result.1, ⟨m.kind, c.category, result.2⟩)
  else .error (.executionFailed (.otherKind c.category))

end MethodOf

/-- A method with the category and the name under which it is found. -/
structure RegistrationOf {κ : Type} (State : κ → Type) where
  category : String
  name : String
  method : MethodOf State

/-- The registered methods, the latest first. -/
abbrev MethodsOf {κ : Type} (State : κ → Type) : Type := List (RegistrationOf State)

namespace MethodsOf

def register (ms : MethodsOf State) (category name : String) (method : MethodOf State) :
    MethodsOf State :=
  ⟨category, name, method⟩ :: ms

def registerAll (ms : MethodsOf State) (category : String)
    (methods : List (String × MethodOf State)) :
    MethodsOf State :=
  methods.foldl (fun ms entry => ms.register category entry.1 entry.2) ms

def hasCategory (ms : MethodsOf State) (category : String) : Bool :=
  ms.any fun r => r.category = category

def find? (ms : MethodsOf State) (category name : String) : Option (MethodOf State) :=
  (List.find? (fun r => r.category = category && r.name = name) ms).map RegistrationOf.method

def hasMethod (ms : MethodsOf State) (category name : String) : Bool :=
  (ms.find? category name).isSome

/-- The names of the methods of a category, in increasing order. -/
def names (ms : MethodsOf State) (category : String) : List String :=
  let all := (ms.filter fun r => r.category = category).map RegistrationOf.name
  (all.eraseDups).mergeSort fun a b => a ≤ b

def call [DecidableEq κ] (ms : MethodsOf State) (now : Nat) (c : ControlOf State) (name : String)
    (args : Object) : Except ActionError (Value × ControlOf State) :=
  if ms.hasCategory c.category then
    match ms.find? c.category name with
    | some m => m.call now args c
    | none => .error (.methodNotFound c.category name)
  else .error (.categoryNotFound c.category)

end MethodsOf

end Table

/-- A method of the objects of one of the kinds above. -/
abbrev Method : Type := MethodOf ControlKind.State

/-- The registered methods of objects of the kinds above. -/
abbrev Methods : Type := MethodsOf ControlKind.State

namespace Methods

/-! ## The built-in methods -/

/-- A method that cannot fail and needs no clock. -/
def plain (kind : ControlKind) (run : Object → kind.State → Value × kind.State) : Method :=
  ⟨kind, fun _ args state => .ok (run args state)⟩

def timer : List (String × Method) := [
  ("start", ⟨.timer, fun now _ t => (Timer.start t now).map fun r => (.bool r.1, r.2)⟩),
  ("pause", plain .timer fun _ t => (.null, Timer.pause t)),
  ("resume", plain .timer fun _ t => (.null, Timer.resume t)),
  ("reset", plain .timer fun _ t => (.null, Timer.reset t)),
  ("cancel", plain .timer fun _ t => (.bool (Timer.cancel t).1, (Timer.cancel t).2))]

/-- The method of cancellation tokens: it tells whether the token was not yet cancelled. -/
def cancelToken : List (String × Method) := [
  ("cancel", plain .cancelToken fun _ (cancelled : Bool) => (.bool (!cancelled), true))]

/-- The text argument of a method; one that is no text counts as empty. -/
def textArgument (args : Object) : String := Arguments.getOr .text args "text" ""

def text : List (String × Method) := [
  ("setValue", plain .text fun args _ => (.string (textArgument args), textArgument args)),
  ("clear", plain .text fun _ _ => (.null, "")),
  ("append", plain .text fun args (s : String) =>
    (.string (s ++ textArgument args), s ++ textArgument args))]

def stream : List (String × Method) := [
  ("add", ⟨.stream, fun _ args s =>
    (StreamControl.add s ((Object.get? args "value").getD .null)).map fun r => (.ofNat r.1, r.2)⟩),
  ("close", plain .stream fun _ s => (.null, StreamControl.close s))]

/-- Moves a scroll position and tells where it is then. -/
def scrollTo (s : ScrollControl) (offset : Float) : Value × ScrollControl :=
  (.ofFloat (s.jumpTo offset).offset, s.jumpTo offset)

/-- A numeric argument of a method; one that is no number counts as zero. -/
def numberArgument (args : Object) (name : String) : Float :=
  Arguments.getOr .float args name (0.0 : Float)

def scroll : List (String × Method) := [
  ("jumpTo", plain .scroll fun args s => scrollTo s (numberArgument args "offset")),
  ("scrollBy", plain .scroll fun args (s : ScrollControl) =>
    scrollTo s (s.offset + numberArgument args "delta"))]

def builtIn : Methods :=
  [(ControlKind.timer, timer), (.cancelToken, cancelToken), (.text, text), (.stream, stream),
    (.scroll, scroll)].foldl (fun ms entry => ms.registerAll entry.1.category entry.2) []

end Methods

end StepFlow
