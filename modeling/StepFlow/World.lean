import StepFlow.Bus
import StepFlow.Control.Store
import StepFlow.Event
import StepFlow.Region
import StepFlow.Scope
import StepFlow.Task

/-!
# The world that steps act on

Everything that a step can change or see is in the world: the clock, the state regions, the objects,
the bus, the effects that the host has performed, the events of all runs, and the journal of the
host's own processors. What does not change during a run (how the host answers to effects, the
methods of objects, which region is the application's) is in `Host`.
-/

namespace StepFlow

structure World where
  /-- Milliseconds since the start. -/
  clock : Nat
  regions : Regions
  objects : ObjectStore
  bus : Bus
  /-- The effects that were performed or refused, the latest first. -/
  performed : List Effect
  /-- Every event with its time, the latest first. -/
  events : List (Nat × Event)
  /-- What the host's own processors wrote down, the latest first. -/
  journal : List Value
  /-- How many identifiers were given out. -/
  issued : Nat

/-- How the host answers to an effect: after some time, with a document or an error. -/
structure Answer where
  wait : Nat
  result : Except ActionError Value

/-- What a run can rely on. -/
structure Host where
  /-- The answer to an effect, given the effects before it, the latest first. -/
  perform : List Effect → Effect → Answer
  methods : Methods
  /-- The region of the application. -/
  appState : RegionId

/-- A task over the world that may fail. -/
abbrev Attempt (α : Type) : Type := ExceptT ActionError (Task World) α

namespace World

/-- The world after some time; timers have ticked. -/
def pass (ms : Nat) (w : World) : World :=
  { w with clock := w.clock + ms, objects := w.objects.advance (w.clock + ms) }

/-- Adds an event at the present time. -/
def emit (e : Event) (w : World) : World := { w with events := (w.clock, e) :: w.events }

def modifyRegion (id : RegionId) (change : Region → Region) (w : World) : World :=
  { w with regions := w.regions.modify change id }

/-- Gives out an identifier. -/
def freshId (w : World) : String × World :=
  ("id-" ++ toString (w.issued + 1), { w with issued := w.issued + 1 })

def send (m : Message) (w : World) : Nat × World :=
  ((w.bus.send m).1, { w with bus := (w.bus.send m).2 })

def values (w : World) (id : RegionId) : Object :=
  match w.regions.get? id with
  | some r => r.values
  | none => []

end World

namespace Host

/-- Hands an effect to the host and waits for the answer. -/
def hand (host : Host) (e : Effect) : Attempt Value := ExceptT.mk do
  let answer ← Task.modifyGet fun w : World =>
    (host.perform w.performed e, { w with performed := e :: w.performed })
  Task.sleep answer.wait
  pure answer.result

/-- A host that answers every effect at once with null. -/
def silent (appState : RegionId) : Host := ⟨fun _ _ => ⟨0, .ok .null⟩, Methods.builtIn, appState⟩

/-- A host that answers at once as agreed for the kind of an effect: with a refusal if there is one,
else with a document, null if there is none. -/
def agreed (responses failures : Object) (appState : RegionId) : Host where
  perform _ e :=
    match (Object.get? failures e.kind).bind Value.string? with
    | some reason => ⟨0, .error (.effectFailed reason)⟩
    | none => ⟨0, .ok ((Object.get? responses e.kind).getD .null)⟩
  methods := Methods.builtIn
  appState := appState

end Host

end StepFlow
