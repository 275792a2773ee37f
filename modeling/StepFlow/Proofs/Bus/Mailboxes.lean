import Mathlib.Algebra.Order.Ring.Nat
import Mathlib.Data.List.Basic
import Mathlib.Data.Nat.Log
import StepFlow.Proofs.Bus.Ring

/-!
# A bus of mailboxes

What the bus means to those who use it: every subscriber has a queue of its own, which drops its
oldest message when it is full; sending a message puts it into the queue of everyone who observes
its channel; and clearing the bus takes all queues and channels away. Subscribers go by the number
of subscriptions made before theirs.

From this alone it follows that a subscriber gets a part of what is sent on its channel while it
observes it, in the order sent (`Mailboxes.received_sublist`).
-/

namespace StepFlow

inductive BusOperation where
  | observe (channel : String)
  | unsubscribe (subscriber : Nat)
  | send (m : Message)
  | receive (subscriber : Nat)
  | clear
  | count

inductive BusResult where
  | done
  /-- A message reached so many subscribers. -/
  | delivered (count : Nat)
  | received (d : Delivery)
  /-- There are so many channels. -/
  | channels (count : Nat)
deriving DecidableEq

namespace BusOperation

def results {σ : Type} (step : σ → BusOperation → BusResult × σ) :
    σ → List BusOperation → List BusResult
  | _, [] => []
  | s, op :: rest => (step s op).1 :: results step (step s op).2 rest

/-- The message that a subscriber got by an operation. -/
def taken? (subscriber : Nat) : BusOperation → BusResult → Option Message
  | .receive k, .received (.message m) => if k = subscriber then some m else none
  | _, _ => none

/-- The messages that a subscriber got by several operations. -/
def receivedBy (subscriber : Nat) (ops : List BusOperation) (results : List BusResult) :
    List Message :=
  (ops.zip results).filterMap fun entry => taken? subscriber entry.1 entry.2

/-- The messages sent on a channel until a subscriber ends or the bus is cleared. -/
def sentUntilEnd (subscriber : Nat) (channel : String) : List BusOperation → List Message
  | [] => []
  | .unsubscribe k :: ops => if k = subscriber then [] else sentUntilEnd subscriber channel ops
  | .clear :: _ => []
  | .send m :: ops =>
    if m.name = channel then m :: sentUntilEnd subscriber channel ops
    else sentUntilEnd subscriber channel ops
  | .observe _ :: ops | .receive _ :: ops | .count :: ops => sentUntilEnd subscriber channel ops

/-- The messages that are sent on the channel of a subscriber while it observes it. The subscriber
is the one that begins to observe after so many others. -/
def offered (subscriber : Nat) : Nat → List BusOperation → List Message
  | _, [] => []
  | 0, .observe channel :: ops => sentUntilEnd subscriber channel ops
  | others + 1, .observe _ :: ops => offered subscriber others ops
  | others, _ :: ops => offered subscriber others ops

end BusOperation

/-- What a subscriber has: its queue holds what it did not read yet, the oldest message first. -/
structure Mailbox where
  subscriber : Nat
  channel : String
  queue : List Message

/-- A mailbox after a message was sent: one of its channel goes into the queue. -/
def Mailbox.put (room : Nat) (m : Message) (box : Mailbox) : Mailbox :=
  if box.channel = m.name then { box with queue := Broadcast.enqueue room box.queue m } else box

/-- A mailbox with another queue, if it is the subscriber's. -/
def Mailbox.setQueue (subscriber : Nat) (queue : List Message) (box : Mailbox) : Mailbox :=
  if box.subscriber = subscriber then { box with queue } else box

namespace Mailbox

theorem subscriber_put (room : Nat) (m : Message) (box : Mailbox) :
    (put room m box).subscriber = box.subscriber := by
  unfold put
  split <;> rfl

theorem channel_put (room : Nat) (m : Message) (box : Mailbox) :
    (put room m box).channel = box.channel := by
  unfold put
  split <;> rfl

theorem subscriber_setQueue (subscriber : Nat) (queue : List Message) (box : Mailbox) :
    (setQueue subscriber queue box).subscriber = box.subscriber := by
  unfold setQueue
  split <;> rfl

theorem channel_setQueue (subscriber : Nat) (queue : List Message) (box : Mailbox) :
    (setQueue subscriber queue box).channel = box.channel := by
  unfold setQueue
  split <;> rfl

end Mailbox

structure Mailboxes where
  /-- How many messages fit into a queue. -/
  room : Nat
  channels : List String
  /-- The mailboxes of all who observe a channel. -/
  boxes : List Mailbox
  /-- How many subscriptions were ever made. -/
  issued : Nat

namespace Mailboxes

/-- Nobody observes anything; queues have room for the least power of two that is not below the
wanted capacity, and at least for one message. -/
def ofCapacity (capacity : Nat) : Mailboxes := ⟨2 ^ Nat.clog 2 (max 1 capacity), [], [], 0⟩

/-- Makes a channel, if there is none of the name. -/
def openChannel (b : Mailboxes) (name : String) : Mailboxes :=
  if name ∈ b.channels then b else { b with channels := name :: b.channels }

/-- Begins to observe a channel, with an empty queue. -/
def observe (b : Mailboxes) (name : String) : Mailboxes :=
  { b.openChannel name with
    boxes := ⟨b.issued, name, []⟩ :: b.boxes
    issued := b.issued + 1 }

def unsubscribe (b : Mailboxes) (subscriber : Nat) : Mailboxes :=
  { b with boxes := b.boxes.filter fun box => box.subscriber ≠ subscriber }

/-- The mailboxes of a channel. -/
def reached (b : Mailboxes) (name : String) : List Mailbox :=
  b.boxes.filter fun box => box.channel = name

/-- Puts a message into the queue of everyone who observes its channel; without anyone,
the channel is gone. -/
def send (b : Mailboxes) (m : Message) : Mailboxes :=
  { b with
    channels :=
      if b.reached m.name = [] then b.channels.filter fun name => name ≠ m.name else b.channels
    boxes := b.boxes.map (Mailbox.put b.room m) }

def box? (b : Mailboxes) (subscriber : Nat) : Option Mailbox :=
  b.boxes.find? fun box => box.subscriber = subscriber

def putQueue (b : Mailboxes) (subscriber : Nat) (queue : List Message) : Mailboxes :=
  { b with boxes := b.boxes.map (Mailbox.setQueue subscriber queue) }

/-- Takes the oldest message out of a subscriber's queue. -/
def receive (b : Mailboxes) (subscriber : Nat) : Delivery × Mailboxes :=
  match b.box? subscriber with
  | none => (.ended, b)
  | some box =>
    match box.queue with
    | [] => (.pending, b)
    | m :: rest => (.message m, b.putQueue subscriber rest)

def clear (b : Mailboxes) : Mailboxes := { b with channels := [], boxes := [] }

def step (b : Mailboxes) : BusOperation → BusResult × Mailboxes
  | .observe channel => (.done, b.observe channel)
  | .unsubscribe subscriber => (.done, b.unsubscribe subscriber)
  | .send m => (.delivered (b.reached m.name).length, b.send m)
  | .receive subscriber => (.received (b.receive subscriber).1, (b.receive subscriber).2)
  | .clear => (.done, b.clear)
  | .count => (.channels b.channels.length, b)

/-! ## What an operation does to one mailbox -/

variable {b b' : Mailboxes} {subscriber : Nat} {box : Mailbox}

theorem box?_eq_none : b.box? subscriber = none ↔ ∀ box ∈ b.boxes, box.subscriber ≠ subscriber := by
  simp [box?, List.find?_eq_none]

theorem subscriber_of_box? (h : b.box? subscriber = some box) : box.subscriber = subscriber := by
  simpa using List.find?_some h

theorem mem_of_box? (h : b.box? subscriber = some box) : box ∈ b.boxes :=
  List.mem_of_find?_eq_some h

@[simp] theorem boxes_openChannel (name : String) : (b.openChannel name).boxes = b.boxes := by
  unfold openChannel
  split <;> rfl

@[simp] theorem box?_observe_self (name : String) :
    (b.observe name).box? b.issued = some ⟨b.issued, name, []⟩ := by
  simp [box?, observe]

theorem box?_observe_of_ne (name : String) (h : subscriber ≠ b.issued) :
    (b.observe name).box? subscriber = b.box? subscriber := by
  simp [box?, observe, h.symm]

@[simp] theorem box?_unsubscribe_self : (b.unsubscribe subscriber).box? subscriber = none := by
  simp [box?_eq_none, unsubscribe]

theorem box?_unsubscribe_of_ne {other : Nat} (h : subscriber ≠ other) :
    (b.unsubscribe other).box? subscriber = b.box? subscriber := by
  simp only [box?, unsubscribe, List.find?_filter]
  congr 1
  funext box
  by_cases hb : box.subscriber = subscriber <;> simp [hb, h]

theorem box?_map (f : Mailbox → Mailbox) (hf : ∀ box, (f box).subscriber = box.subscriber)
    (hb : b'.boxes = b.boxes.map f) : b'.box? subscriber = (b.box? subscriber).map f := by
  simp only [box?, hb, List.find?_map]
  congr 2
  funext box
  simp [hf]

theorem box?_send (m : Message) :
    (b.send m).box? subscriber = (b.box? subscriber).map (Mailbox.put b.room m) :=
  box?_map _ (Mailbox.subscriber_put _ _) rfl

theorem box?_putQueue (other : Nat) (queue : List Message) :
    (b.putQueue other queue).box? subscriber =
      (b.box? subscriber).map (Mailbox.setQueue other queue) :=
  box?_map _ (Mailbox.subscriber_setQueue _ _) rfl

@[simp] theorem box?_clear : b.clear.box? subscriber = none := rfl

/-! ## What one subscriber gets -/

/-- The subscribers who observe something are among those who were ever given a number. -/
def Numbered (b : Mailboxes) : Prop := ∀ box ∈ b.boxes, box.subscriber < b.issued

theorem Numbered.lt (h : b.Numbered) (hbox : b.box? subscriber = some box) :
    subscriber < b.issued :=
  subscriber_of_box? hbox ▸ h box (mem_of_box? hbox)

@[simp] theorem issued_openChannel (name : String) : (b.openChannel name).issued = b.issued := by
  unfold openChannel
  split <;> rfl

theorem Numbered.map (h : b.Numbered) {f : Mailbox → Mailbox}
    (hf : ∀ box, (f box).subscriber = box.subscriber) :
    Numbered { b with boxes := b.boxes.map f } := by
  intro box hmem
  obtain ⟨old, hold, rfl⟩ := List.mem_map.1 hmem
  rw [hf]
  exact h old hold

theorem Numbered.observe (h : b.Numbered) (name : String) : (b.observe name).Numbered := by
  intro box hmem
  obtain rfl | hmem := List.mem_cons.1 hmem
  · exact Nat.lt_succ_self _
  · exact Nat.lt_succ_of_lt (h box hmem)

theorem Numbered.receive (h : b.Numbered) (k : Nat) : (b.receive k).2.Numbered := by
  unfold Mailboxes.receive
  split
  · exact h
  · split
    · exact h
    · exact h.map (Mailbox.subscriber_setQueue _ _)

theorem Numbered.step (h : b.Numbered) (op : BusOperation) : (b.step op).2.Numbered := by
  cases op with
  | observe name => exact h.observe name
  | unsubscribe k => exact fun box hmem => h box (List.mem_of_mem_filter hmem)
  | send m => exact h.map (Mailbox.subscriber_put _ _)
  | receive k => exact h.receive k
  | clear => exact nofun
  | count => exact h

theorem issued_receive (k : Nat) : (b.receive k).2.issued = b.issued := by
  unfold receive
  split
  · rfl
  · split <;> rfl

open BusOperation

theorem receivedBy_cons (op : BusOperation) (ops : List BusOperation) :
    receivedBy subscriber (op :: ops) (results step b (op :: ops)) =
      (taken? subscriber op (b.step op).1).toList ++
        receivedBy subscriber ops (results step (b.step op).2 ops) := by
  simp only [results, receivedBy, List.zip_cons_cons, List.filterMap_cons]
  cases taken? subscriber op (b.step op).1 <;> rfl

/-- Only reading gets a subscriber anything. -/
theorem taken?_of_ne_receive {op : BusOperation} (hop : op ≠ .receive subscriber) (r : BusResult) :
    taken? subscriber op r = none := by
  unfold taken?
  split
  · next k m =>
    rw [if_neg]
    rintro rfl
    exact hop rfl
  · rfl

/-- Reading for one subscriber changes the mailbox of no other. -/
theorem box?_receive_of_ne {other : Nat} (h : other ≠ subscriber) :
    (b.receive other).2.box? subscriber = b.box? subscriber := by
  unfold receive
  split
  · rfl
  · split
    · rfl
    · rw [box?_putQueue]
      cases hbox : b.box? subscriber with
      | none => rfl
      | some box =>
        rw [Option.map_some, Mailbox.setQueue, if_neg]
        rw [subscriber_of_box? hbox]
        exact h.symm

theorem receive_of_none (hnone : b.box? subscriber = none) :
    b.receive subscriber = (.ended, b) := by
  rw [receive, hnone]

theorem receive_of_nil (hbox : b.box? subscriber = some box) (hqueue : box.queue = []) :
    b.receive subscriber = (.pending, b) := by
  simp only [receive, hbox, hqueue]

theorem receive_of_cons {m : Message} {rest : List Message} (hbox : b.box? subscriber = some box)
    (hqueue : box.queue = m :: rest) :
    b.receive subscriber = (.message m, b.putQueue subscriber rest) := by
  simp only [receive, hbox, hqueue]

/-- Whoever does not observe anything any more does not begin again. -/
theorem box?_step_of_none (op : BusOperation) (hnone : b.box? subscriber = none)
    (hissued : subscriber < b.issued) :
    (b.step op).2.box? subscriber = none ∧ subscriber < (b.step op).2.issued ∧
      taken? subscriber op (b.step op).1 = none := by
  cases op with
  | observe name =>
    exact ⟨(box?_observe_of_ne name hissued.ne).trans hnone, Nat.lt_succ_of_lt hissued, rfl⟩
  | unsubscribe k =>
    refine ⟨box?_eq_none.2 fun box hmem => ?_, hissued, rfl⟩
    exact box?_eq_none.1 hnone box (List.mem_of_mem_filter hmem)
  | send m => exact ⟨by rw [step, box?_send, hnone]; rfl, hissued, rfl⟩
  | receive k =>
    by_cases hk : k = subscriber
    · subst hk
      simp only [step, receive_of_none hnone]
      exact ⟨hnone, hissued, rfl⟩
    · refine ⟨(box?_receive_of_ne hk).trans hnone, ?_, ?_⟩
      · exact hissued.trans_eq (issued_receive k).symm
      · exact taken?_of_ne_receive (by simpa using hk) _
  | clear => exact ⟨rfl, hissued, rfl⟩
  | count => exact ⟨hnone, hissued, rfl⟩

/-- Whoever does not observe anything any more gets nothing. -/
theorem received_of_ended (ops : List BusOperation) (hnone : b.box? subscriber = none)
    (hissued : subscriber < b.issued) : receivedBy subscriber ops (results step b ops) = [] := by
  induction ops generalizing b with
  | nil => rfl
  | cons op ops ih =>
    obtain ⟨hnone', hissued', htaken⟩ := box?_step_of_none op hnone hissued
    rw [receivedBy_cons, htaken, ih hnone' hissued']
    rfl

/-- Whoever observes a channel gets a part of what is in the queue and of what is sent on the
channel from now on, in this order. -/
theorem received_of_box (ops : List BusOperation) (h : b.Numbered)
    (hbox : b.box? subscriber = some box) :
    (receivedBy subscriber ops (results step b ops)).Sublist
      (box.queue ++ sentUntilEnd subscriber box.channel ops) := by
  induction ops generalizing b box with
  | nil => exact List.nil_sublist _
  | cons op ops ih =>
    have hafter := h.step op
    rw [receivedBy_cons]
    cases op with
    | observe name => exact ih hafter ((box?_observe_of_ne name (h.lt hbox).ne).trans hbox)
    | unsubscribe k =>
      by_cases hk : k = subscriber
      · subst hk
        show (receivedBy k ops (results step (b.unsubscribe k) ops)).Sublist _
        rw [received_of_ended ops box?_unsubscribe_self (h.lt hbox)]
        exact List.nil_sublist _
      · rw [sentUntilEnd, if_neg hk]
        exact ih hafter ((box?_unsubscribe_of_ne (Ne.symm hk)).trans hbox)
    | send m =>
      have hrest := ih hafter (box?_send m |>.trans (congrArg _ hbox))
      rw [sentUntilEnd]
      by_cases hm : box.channel = m.name
      · rw [if_pos hm.symm]
        rw [Mailbox.put, if_pos hm] at hrest
        refine hrest.trans ?_
        rw [List.append_cons]
        exact (List.drop_sublist _ _).append (List.Sublist.refl _)
      · rw [if_neg (Ne.symm hm)]
        rwa [Mailbox.put, if_neg hm] at hrest
    | receive k =>
      by_cases hk : k = subscriber
      · subst hk
        rw [sentUntilEnd]
        cases hqueue : box.queue with
        | nil =>
          simp only [step, receive_of_nil hbox hqueue]
          exact hqueue ▸ ih h hbox
        | cons m rest =>
          simp only [step, receive_of_cons hbox hqueue] at hafter ⊢
          have hrest := ih hafter (box?_putQueue k rest |>.trans (congrArg _ hbox))
          rw [Mailbox.setQueue, if_pos (subscriber_of_box? hbox)] at hrest
          simpa [taken?] using hrest
      · rw [taken?_of_ne_receive (by simpa using hk)]
        exact ih hafter ((box?_receive_of_ne hk).trans hbox)
    | clear =>
      show (receivedBy subscriber ops (results step b.clear ops)).Sublist _
      rw [received_of_ended ops box?_clear (h.lt hbox)]
      exact List.nil_sublist _
    | count => exact ih h hbox

/-- Every subscriber gets a part of the messages that are sent on its channel while it observes
it, in the order sent. -/
theorem received_sublist (ops : List BusOperation) {others : Nat} (h : b.Numbered)
    (hissued : b.issued + others = subscriber) :
    (receivedBy subscriber ops (results step b ops)).Sublist (offered subscriber others ops) := by
  induction ops generalizing b others with
  | nil => exact List.nil_sublist _
  | cons op ops ih =>
    have hafter := h.step op
    rw [receivedBy_cons]
    cases op with
    | observe name =>
      cases others with
      | zero =>
        obtain rfl : b.issued = subscriber := hissued
        exact received_of_box ops hafter (box?_observe_self name)
      | succ others =>
        refine ih hafter ?_
        show b.issued + 1 + others = subscriber
        omega
    | receive k =>
      have hnothing : taken? subscriber (.receive k) (b.step (.receive k)).1 = none := by
        by_cases hk : k = subscriber
        · subst hk
          have hnone : b.box? k = none := box?_eq_none.2 fun box hmem => by
            have := h box hmem
            omega
          simp only [step, receive_of_none hnone]
          rfl
        · exact taken?_of_ne_receive (by simpa using hk) _
      rw [hnothing]
      exact ih hafter ((issued_receive k).symm ▸ hissued)
    | unsubscribe | send | clear | count => exact ih hafter hissued

end Mailboxes

end StepFlow
