import StepFlow.Control.Store

/-!
# Objects under a clock

A host that owns a store can let time pass, plan the cancellation of a token for later, and wait for
a token to be cancelled. Time passes only here, so how long a wait takes is exact.
-/

namespace StepFlow

/-- A store of objects at a time, with the cancellations to come. -/
structure TimedObjects where
  /-- Milliseconds since the start. -/
  now : Nat
  store : ObjectStore
  /-- When which token will be cancelled. -/
  planned : List (Nat × ObjectId)

namespace TimedObjects

def empty : TimedObjects := ⟨0, [], []⟩

def cancelToken : Control → Control
  | ⟨.cancelToken, category, _⟩ => ⟨.cancelToken, category, true⟩
  | c => c

def isCancelled : Control → Bool
  | ⟨.cancelToken, _, cancelled⟩ => cancelled
  | _ => false

/-- Carries out the planned cancellations before a time, or up to and with it. -/
def carryOut (objects : TimedObjects) (isDue : Nat → Bool) : TimedObjects :=
  { objects with
    store := (objects.planned.filter fun plan => isDue plan.1).foldl
      (fun store plan =>
        ObjectStore.modify (fun o => { o with control := cancelToken o.control }) store plan.2)
      objects.store
    planned := objects.planned.filter fun plan => !isDue plan.1 }

/-- Lets time pass until a moment. What is due at the moment itself has not taken place yet. -/
def advanceTo (objects : TimedObjects) (moment : Nat) : TimedObjects :=
  let later := objects.carryOut fun time => time < moment
  { later with now := moment, store := ObjectStore.advance moment later.store }

def sleep (objects : TimedObjects) (ms : Nat) : TimedObjects :=
  objects.advanceTo (objects.now + ms)

/-- Plans the cancellation of a token. -/
def cancelLater (objects : TimedObjects) (id : ObjectId) (ms : Nat) : TimedObjects :=
  { objects with planned := objects.planned ++ [(objects.now + ms, id)] }

/-- Waits until a token is cancelled, but no longer than some time, and tells whether it was. -/
def waitCancelled (objects : TimedObjects) (id : ObjectId) (ms : Nat) : Bool × TimedObjects :=
  let cancelled := (ObjectStore.get? objects.store id).any fun o => isCancelled o.control
  if cancelled then (true, objects)
  else
    let times := (objects.planned.filter fun plan => plan.2 = id).map Prod.fst
    match times.min? with
    | some time =>
      if time < objects.now + ms then
        (true, (objects.advanceTo time).carryOut fun t => t ≤ time)
      else (false, objects.sleep ms)
    | none => (false, objects.sleep ms)

end TimedObjects

end StepFlow
