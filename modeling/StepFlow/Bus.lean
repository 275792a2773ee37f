import StepFlow.Broadcast
import StepFlow.Effect

/-!
# The message bus

Messages go to named channels. A channel is there from the time someone first observes it until the
bus is cleared, or until something is sent to it while nobody observes it any more. Each observer
gets the messages sent after it began to observe, in the order sent; one that falls behind silently
loses the oldest. Clearing the bus ends every observer.
-/

namespace StepFlow

structure Message where
  /-- The channel. -/
  name : String
  payload : Value
  /-- Who sent it, if known. -/
  origin : Option String
deriving DecidableEq

namespace Message

/-- Reads a message: a record, or a list of its fields, of which the last may be left out. -/
def ofValue? (v : Value) : Option Message := do
  let names := match v with
    | .array [_, _] => ["name", "payload"]
    | _ => ["name", "payload", "origin"]
  let o ← Record.fields? names v
  pure ⟨← Record.text? o "name", ← Object.get? o "payload", ← Record.textOrNull? o "origin"⟩

def toValue (m : Message) : Value :=
  .ofEntries ([("name", .string m.name), ("payload", m.payload)] ++
    (m.origin.map fun origin => ("origin", .string origin)).toList)

end Message

/-- A message with the epoch in which it was sent. -/
structure Envelope where
  epoch : Nat
  message : Message
deriving DecidableEq

structure Bus where
  /-- The wanted capacity of each channel. -/
  capacity : Nat
  /-- How many times the bus was cleared. -/
  epoch : Nat
  /-- Every ring that was ever made; a ring goes by its place here. -/
  rings : List (Broadcast Envelope)
  /-- The ring on which each channel sends. -/
  channels : List (String × Nat)
  /-- How many subscriptions were ever made. -/
  issued : Nat

structure Subscription where
  channel : String
  ring : Nat
  reader : Nat
deriving DecidableEq, Repr

inductive Delivery where
  | message (m : Message)
  /-- Nothing yet. -/
  | pending
  /-- Nothing any more. -/
  | ended
deriving DecidableEq

namespace Bus

def ofCapacity (capacity : Nat) : Bus := ⟨capacity, 0, [], [], 0⟩

def channelCount (bus : Bus) : Nat := bus.channels.length

/-- Whether a channel sends on a ring. A ring without a channel is closed. -/
def isOpen (bus : Bus) (ring : Nat) : Bool := bus.channels.any fun entry => entry.2 = ring

def modifyRing (bus : Bus) (ring : Nat) (change : Broadcast Envelope → Broadcast Envelope) : Bus :=
  { bus with rings := bus.rings.modify ring change }

/-- The ring of a channel; the channel is made if there is none. -/
def ringFor (bus : Bus) (name : String) : Nat × Bus :=
  match bus.channels.lookup name with
  | some ring => (ring, bus)
  | none =>
    (bus.rings.length,
      { bus with
        rings := bus.rings ++ [Broadcast.ofCapacity bus.capacity]
        channels := (name, bus.rings.length) :: bus.channels })

/-- Begins to observe a channel, which is made if there is none. -/
def observe (bus : Bus) (name : String) : Subscription × Bus :=
  let (ring, bus) := bus.ringFor name
  (⟨name, ring, bus.issued⟩,
    { bus.modifyRing ring (Broadcast.subscribe · bus.issued) with issued := bus.issued + 1 })

def unsubscribe (bus : Bus) (s : Subscription) : Bus :=
  bus.modifyRing s.ring (Broadcast.unsubscribe · s.reader)

def removeChannel (bus : Bus) (name : String) : Bus :=
  { bus with channels := bus.channels.filter fun entry => entry.1 ≠ name }

def readerCount (bus : Bus) (ring : Nat) : Nat :=
  (bus.rings[ring]?.map Broadcast.readerCount).getD 0

/-- Sends a message and tells how many observers it reaches. A channel that nobody observes is
removed. -/
def send (bus : Bus) (m : Message) : Nat × Bus :=
  match bus.channels.lookup m.name with
  | none => (0, bus)
  | some ring =>
    if bus.readerCount ring = 0 then (0, bus.removeChannel m.name)
    else (bus.readerCount ring, bus.modifyRing ring (Broadcast.send · ⟨bus.epoch, m⟩))

/-- Reads a ring for one reader up to the next message of an epoch. Messages of other epochs and
notices of lost messages are passed over. -/
def readCurrent (epoch reader : Nat) (ring : Broadcast Envelope) :
    Option Message × Broadcast Envelope :=
  match _h : ring.receive reader with
  | (.nothing, ring') => (none, ring')
  | (.lost _, ring') => readCurrent epoch reader ring'
  | (.value e, ring') =>
    if e.epoch = epoch then (some e.message, ring') else readCurrent epoch reader ring'
termination_by ring.behind reader
decreasing_by all_goals exact Broadcast.behind_receive_lt _h nofun

def receive (bus : Bus) (s : Subscription) : Delivery × Bus :=
  match bus.rings[s.ring]? with
  | none => (.ended, bus)
  | some ring =>
    if ring.hasReader s.reader then
      match readCurrent bus.epoch s.reader ring with
      | (some m, ring) => (.message m, bus.modifyRing s.ring fun _ => ring)
      | (none, ring) =>
        (if bus.isOpen s.ring then .pending else .ended, bus.modifyRing s.ring fun _ => ring)
    else (.ended, bus)

/-- All that an observer can get at present. Reading stops at the first time there is nothing, and a
channel never keeps more than its room. -/
def drain (bus : Bus) (s : Subscription) : List Message × Bus :=
  go (Broadcast.roomFor bus.capacity) bus
where
  /-- Reads at most so many messages. -/
  go : Nat → Bus → List Message × Bus
    | 0, bus => ([], bus)
    | n + 1, bus =>
      match bus.receive s with
      | (.message m, bus) =>
        let (rest, bus) := go n bus
        (m :: rest, bus)
      | (_, bus) => ([], bus)

/-- All that several observers can get at present, one after another. -/
def drainAll (bus : Bus) : List Subscription → List (List Message) × Bus
  | [] => ([], bus)
  | s :: rest =>
    let (messages, bus) := bus.drain s
    let (others, bus) := bus.drainAll rest
    (messages :: others, bus)

def observeAll (bus : Bus) : List String → List Subscription × Bus
  | [] => ([], bus)
  | name :: rest =>
    let (s, bus) := bus.observe name
    let (others, bus) := bus.observeAll rest
    (s :: others, bus)

/-- Removes every channel, and with them whatever was not read yet. -/
def clear (bus : Bus) : Bus := { bus with epoch := bus.epoch + 1, channels := [] }

end Bus

end StepFlow
