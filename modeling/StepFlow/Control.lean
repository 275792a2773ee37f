import StepFlow.Broadcast
import StepFlow.Control.Timer
import StepFlow.Shape

/-!
# Objects that steps can control

An object is of one of a few kinds and holds a state of that kind. It also claims a category, by
which its methods are found; for the built-in kinds this is the name of the kind, but a host may
offer an object of its own under any category.
-/

namespace StepFlow

/-- A stream of values that steps can add to. -/
structure StreamControl where
  channel : Broadcast Value
  closed : Bool
  /-- How many listeners there ever were. -/
  issued : Nat

structure ScrollControl where
  maxExtent : Float
  offset : Float

inductive ControlKind where
  | timer
  | cancelToken
  | text
  | stream
  | scroll
  /-- An object of the host, of which nothing is known. -/
  | foreign
deriving DecidableEq, Repr

namespace ControlKind

def State : ControlKind → Type
  | .timer => Timer
  | .cancelToken => Bool
  | .text => String
  | .stream => StreamControl
  | .scroll => ScrollControl
  | .foreign => Unit

def category : ControlKind → String
  | .timer => "timer"
  | .cancelToken => "cancelToken"
  | .text => "textController"
  | .stream => "streamController"
  | .scroll => "scrollController"
  | .foreign => ""

end ControlKind

namespace StreamControl

def ofCapacity (capacity : Nat) : StreamControl := ⟨Broadcast.ofCapacity capacity, false, 0⟩

def listen (s : StreamControl) : Nat × StreamControl :=
  (s.issued, { s with channel := s.channel.subscribe s.issued, issued := s.issued + 1 })

/-- Adds a value to an open stream and tells how many listeners it reaches. -/
def add (s : StreamControl) (v : Value) : Except ActionError (Nat × StreamControl) :=
  if s.closed then .error (.executionFailed .streamClosed)
  else .ok (s.channel.readerCount, { s with channel := s.channel.send v })

/-- Closes a stream: nothing is added any more, but listeners can still read. -/
def close (s : StreamControl) : StreamControl := { s with closed := true }

end StreamControl

namespace ScrollControl

/-- A position at zero; an extent below zero counts as zero. -/
def ofExtent (extent : Float) : ScrollControl := ⟨if extent > 0.0 then extent else 0.0, 0.0⟩

/-- A position brought between zero and the extent. -/
def clamp (s : ScrollControl) (offset : Float) : Float :=
  if offset < 0.0 then 0.0 else if offset > s.maxExtent then s.maxExtent else offset

/-- Moves to a position, as far as possible. -/
def jumpTo (s : ScrollControl) (offset : Float) : ScrollControl :=
  { s with offset := s.clamp offset }

end ScrollControl

/-- An object that steps can control, given what the objects of each kind hold. -/
structure ControlOf {κ : Type} (State : κ → Type) where
  kind : κ
  /-- The category that the object claims. -/
  category : String
  state : State kind

/-- An object of one of the kinds above. -/
abbrev Control : Type := ControlOf ControlKind.State

def ControlOf.ofState (kind : ControlKind) (state : kind.State) : Control :=
  ⟨kind, kind.category, state⟩

namespace Control

/-- An object of the host that claims a category. -/
def foreign (category : String) : Control := ⟨.foreign, category, ()⟩

/-- The object when all ticks due before `now` have taken place. -/
def advance (now : Nat) : Control → Control
  | ⟨.timer, category, t⟩ => ⟨.timer, category, Timer.advance t now⟩
  | c => c

/-- The object when nobody can call it any more: a timer stops. -/
def release : Control → Control
  | ⟨.timer, category, t⟩ => ⟨.timer, category, (Timer.cancel t).2⟩
  | c => c

end Control

end StepFlow
