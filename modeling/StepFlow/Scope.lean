import StepFlow.Value

/-!
# Scopes

A scope is a chain of frames, the innermost first. A frame binds variables of its own and
may be backed by a live source, which answers from the present state of the world each time
it is asked. A variable is looked up in the own bindings of a frame, then in its source,
then in the enclosing frames.
-/

namespace StepFlow

structure Frame (σ : Type) where
  /-- For display only. -/
  name : String
  /-- The variables of its own. -/
  bound : Object
  /-- Asked after the own variables, against the present world. -/
  source : Option (σ → String → Option Value)

namespace Frame

variable {σ : Type}

def empty (name : String) : Frame σ := ⟨name, [], none⟩

/-- What a frame by itself says about a variable. -/
def lookup (frame : Frame σ) (world : σ) (key : String) : Option Value :=
  match Object.get? frame.bound key with
  | some v => some v
  | none => frame.source.bind fun ask => ask world key

end Frame

/-- A chain of frames: the innermost one and those around it. -/
structure Scope (σ : Type) where
  inner : Frame σ
  enclosing : List (Frame σ)

namespace Scope

variable {σ : Type}

def root (name : String) : Scope σ := ⟨Frame.empty name, []⟩

def frames (s : Scope σ) : List (Frame σ) := s.inner :: s.enclosing

/-- A new frame inside another scope. -/
def child (parent : Scope σ) (name : String) : Scope σ := ⟨Frame.empty name, parent.frames⟩

/-- Binds variables in the innermost frame, a later one over an earlier one. The frame keeps its
source, and the frames around it stay. -/
def extend (s : Scope σ) (bindings : List (String × Value)) : Scope σ :=
  { s with inner := { s.inner with bound := Object.insertAll s.inner.bound bindings } }

/-- Backs the innermost frame with a live source. -/
def withSource (s : Scope σ) (source : σ → String → Option Value) : Scope σ :=
  { s with inner := { s.inner with source := some source } }

/-- Puts the innermost frame inside another scope. -/
def withEnclosing (s parent : Scope σ) : Scope σ := { s with enclosing := parent.frames }

/-- What a list of frames says about a variable: the first frame that binds it. -/
def lookupIn (world : σ) (key : String) : List (Frame σ) → Option Value
  | [] => none
  | frame :: rest =>
    match frame.lookup world key with
    | some v => some v
    | none => lookupIn world key rest

/-- What a variable stands for. Null is a value: a variable bound to it is bound. -/
def lookup (s : Scope σ) (world : σ) (key : String) : Option Value :=
  lookupIn world key s.frames

def depth (s : Scope σ) : Nat := s.frames.length

/-- The chain of frames given from the outermost to the innermost, each with its bindings. -/
def ofFrames? (name : String) : List Object → Option (Scope σ)
  | [] => none
  | outermost :: rest =>
    some (rest.foldl (fun scope bound => (scope.child name).extend bound)
      ((root name).extend outermost))

end Scope

end StepFlow
