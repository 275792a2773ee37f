import Mathlib.Data.List.DropRight
import StepFlow.Proofs.Bus.Refinement

/-!
# Reading a bus out

Whoever observes a channel and reads nothing until the end then finds in its queue the last
messages that were sent on the channel, as many as a queue has room for. This is shown for the
mailboxes that a bus mirrors: sending keeps the last messages of each queue, and reading one of
them out leaves the others alone.
-/

namespace StepFlow

namespace Broadcast

variable {α : Type}

/-- Of a queue that goes on, only the last values matter. -/
theorem rtake_enqueue_append (room : Nat) (queue : List α) (a : α) (more : List α) :
    (enqueue room queue a ++ more).rtake room = (queue ++ a :: more).rtake room := by
  have joined : queue ++ a :: more = (queue ++ [a]) ++ more := List.append_cons queue a more
  have dropped : enqueue room queue a ++ more =
      (queue ++ a :: more).drop (queue.length + 1 - room) := by
    rw [joined, List.drop_append_of_le_length (by simp), enqueue]
  rw [dropped, List.rtake, List.rtake, List.drop_drop, List.length_drop]
  congr 1
  simp only [List.length_append, List.length_cons]
  omega

theorem length_enqueue_le (room : Nat) (queue : List α) (a : α) :
    (enqueue room queue a).length ≤ room := by
  simp only [enqueue, List.length_drop, List.length_append, List.length_singleton]
  omega

theorem rtake_eq_self {l : List α} {room : Nat} : l.rtake room = l ↔ l.length ≤ room := by
  constructor
  · intro all
    have length := congrArg List.length all
    rw [List.rtake, List.length_drop] at length
    omega
  · intro fits
    rw [List.rtake, Nat.sub_eq_zero_of_le fits]
    exact List.drop_zero

theorem le_roomFor (capacity : Nat) : capacity ≤ roomFor capacity := by
  rw [roomFor_eq]
  exact (Nat.le_max_right 1 capacity).trans (Nat.le_pow_clog (by decide) _)

end Broadcast

/-- A mailbox that gets messages, one after another, keeps the last ones of its channel. -/
theorem Mailbox.foldl_put (room : Nat) (ms : List Message) {box : Mailbox}
    (fits : box.queue.length ≤ room) :
    ms.foldl (fun box m => put room m box) box =
      { box with queue := (box.queue ++ ms.filter fun m => m.name = box.channel).rtake room } := by
  induction ms generalizing box with
  | nil => simp [List.rtake, Nat.sub_eq_zero_of_le fits]
  | cons m rest ih =>
    rw [List.foldl_cons, put]
    by_cases ours : box.channel = m.name
    · have first : (m :: rest).filter (fun m => m.name = box.channel) =
          m :: rest.filter fun m => m.name = box.channel :=
        List.filter_cons_of_pos (by simpa using ours.symm)
      rw [if_pos ours, ih (Broadcast.length_enqueue_le room box.queue m), first,
        ← Broadcast.rtake_enqueue_append]
    · have first : (m :: rest).filter (fun m => m.name = box.channel) =
          rest.filter fun m => m.name = box.channel :=
        List.filter_cons_of_neg (by simpa using Ne.symm ours)
      rw [if_neg ours, ih fits, first]

namespace Mailboxes

theorem box?_foldl_send (ms : List Message) (b : Mailboxes) (subscriber : Nat) :
    (ms.foldl send b).box? subscriber =
      (b.box? subscriber).map fun box => ms.foldl (fun box m => Mailbox.put b.room m box) box := by
  induction ms generalizing b with
  | nil => exact Option.map_id'.symm
  | cons m rest ih =>
    rw [List.foldl_cons, ih, box?_send, Option.map_map]
    rfl

theorem room_foldl_send (ms : List Message) (b : Mailboxes) : (ms.foldl send b).room = b.room := by
  induction ms generalizing b with
  | nil => rfl
  | cons m rest ih => exact ih (b.send m)

theorem room_foldl_observe (names : List String) (b : Mailboxes) :
    (names.foldl observe b).room = b.room := by
  induction names generalizing b with
  | nil => rfl
  | cons name rest ih =>
    have here : (b.observe name).room = b.room := by
      rw [observe, openChannel]
      split <;> rfl
    exact (ih (b.observe name)).trans here

end Mailboxes

namespace Mirrors

variable {o : Observed} {b : Mailboxes} {k n : Nat} {s : Subscription} {box : Mailbox}

/-- Sends several messages. -/
theorem sendAll (r : Mirrors o b) (ms : List Message) :
    Mirrors { o with bus := ms.foldl (fun bus m => (bus.send m).2) o.bus }
      (ms.foldl Mailboxes.send b) := by
  induction ms generalizing o b with
  | nil => exact r
  | cons m rest ih => exact ih (r.send m).2

/-! ## Observing several channels -/

/-- Every subscription has a mailbox, and nothing is in it. -/
def Unread (o : Observed) (b : Mailboxes) : Prop :=
  ∀ k s, o.subscriptions[k]? = some s → b.box? k = some ⟨k, s.channel, []⟩

theorem Unread.observe (fresh : Unread o b) (r : Mirrors o b) (name : String) :
    Unread (o.observe name) (b.observe name) := by
  intro k s found
  have issued : b.issued = o.subscriptions.length := r.issued_eq.trans r.subscribers.symm
  rw [Observed.observe] at found
  by_cases old : k < o.subscriptions.length
  · rw [List.getElem?_append_left old] at found
    rw [Mailboxes.box?_observe_of_ne name (issued ▸ old.ne)]
    exact fresh k s found
  · have newest : k = b.issued := by
      have bound := (List.getElem?_eq_some_iff.1 found).1
      rw [List.length_append, List.length_singleton] at bound
      omega
    rw [newest, issued, List.getElem?_concat_length] at found
    rw [newest, Mailboxes.box?_observe_self]
    cases found
    rfl

theorem observeAll (r : Mirrors o b) (fresh : Unread o b) (names : List String) :
    Mirrors ⟨(o.bus.observeAll names).2, o.subscriptions ++ (o.bus.observeAll names).1⟩
        (names.foldl Mailboxes.observe b) ∧
      Unread ⟨(o.bus.observeAll names).2, o.subscriptions ++ (o.bus.observeAll names).1⟩
        (names.foldl Mailboxes.observe b) ∧
      (o.bus.observeAll names).1.map Subscription.channel = names := by
  induction names generalizing o b with
  | nil =>
    rw [Bus.observeAll, List.append_nil]
    exact ⟨r, fresh, rfl⟩
  | cons name rest ih =>
    obtain ⟨mirrors, unread, channels⟩ := ih (r.observe name) (fresh.observe r name)
    rw [Observed.observe, List.append_assoc] at mirrors unread
    exact ⟨mirrors, unread, congrArg (name :: ·) channels⟩

/-! ## Reading queues out -/

/-- Reading for one subscriber, as often as there are messages in its queue, gets these messages. -/
theorem drain_go (r : Mirrors o b) (found : o.subscriptions[k]? = some s)
    (hbox : b.box? k = some box) (enough : box.queue.length ≤ n) :
    (Bus.drain.go s n o.bus).1 = box.queue ∧
      ∃ b', Mirrors { o with bus := (Bus.drain.go s n o.bus).2 } b' ∧ b'.room = b.room ∧
        ∀ j, j ≠ k → b'.box? j = b.box? j := by
  induction n generalizing o b box with
  | zero =>
    have empty := List.eq_nil_of_length_eq_zero (Nat.le_zero.1 enough)
    exact ⟨empty.symm, b, r, rfl, fun _ _ => rfl⟩
  | succ n ih =>
    obtain ⟨result, mirrors⟩ := r.receive_of_box found hbox
    rw [Bus.drain.go]
    rcases received : o.bus.receive s with ⟨delivery, bus⟩
    rw [received] at result mirrors
    cases queue : box.queue with
    | nil =>
      rw [Mailboxes.receive_of_nil hbox queue] at result mirrors
      obtain rfl : delivery = .pending := result
      exact ⟨rfl, b, mirrors, rfl, fun _ _ => rfl⟩
    | cons m rest =>
      rw [Mailboxes.receive_of_cons hbox queue] at result mirrors
      obtain rfl : delivery = .message m := result
      have left : (b.putQueue k rest).box? k = some { box with queue := rest } := by
        rw [Mailboxes.box?_putQueue, hbox, Option.map_some, Mailbox.setQueue,
          if_pos (Mailboxes.subscriber_of_box? hbox)]
      rw [queue, List.length_cons] at enough
      obtain ⟨drained, b', mirrors', room, others⟩ :=
        ih mirrors found left (Nat.le_of_succ_le_succ enough)
      refine ⟨congrArg (m :: ·) drained, b', mirrors', room, fun j other => ?_⟩
      rw [others j other, Mailboxes.box?_putQueue]
      cases theirs : b.box? j with
      | none => rfl
      | some box' =>
        rw [Option.map_some, Mailbox.setQueue, if_neg]
        rw [Mailboxes.subscriber_of_box? theirs]
        exact other

/-- Reading for all subscribers from one on, each of whom has a mailbox, gets what
is in their queues. -/
theorem drainAll (r : Mirrors o b) {subs : List Subscription} (last : o.subscriptions.drop k = subs)
    (queue : String → List Message) (fits : ∀ name, (queue name).length ≤ b.room)
    (boxes : ∀ j s, k ≤ j → o.subscriptions[j]? = some s →
      b.box? j = some ⟨j, s.channel, queue s.channel⟩) :
    (o.bus.drainAll subs).1 = subs.map fun s => queue s.channel := by
  induction subs generalizing o b k with
  | nil => rfl
  | cons s rest ih =>
    have found : o.subscriptions[k]? = some s := by
      rw [← List.head?_drop, last]
      rfl
    have enough : (queue s.channel).length ≤ Broadcast.roomFor o.bus.capacity :=
      r.room_eq ▸ fits s.channel
    obtain ⟨drained, b', mirrors, room, others⟩ :=
      r.drain_go found (boxes k s (Nat.le_refl k) found) enough
    have later := ih mirrors (k := k + 1) (by rw [← List.drop_drop, last]; rfl)
      (fun name => room ▸ fits name)
      fun j s behind found => (others j (by omega)).trans (boxes j s (by omega) found)
    exact congrArg₂ List.cons drained later

end Mirrors

/-- If some channels are observed from the start, and then messages are sent, those who observe get
the last ones of their channels, as many as there is room for, in the order sent. -/
theorem Bus.drainAll_sent (capacity : Nat) (names : List String) (ms : List Message) :
    let observed := (Bus.ofCapacity capacity).observeAll names
    ((ms.foldl (fun bus m => (bus.send m).2) observed.2).drainAll observed.1).1 =
      names.map fun name =>
        (ms.filter fun m => m.name = name).rtake (Broadcast.roomFor capacity) := by
  intro observed
  have fresh : Mirrors.Unread (.ofCapacity capacity) (.ofCapacity capacity) := nofun
  obtain ⟨mirrors, unread, channels⟩ := (Mirrors.ofCapacity capacity).observeAll fresh names
  have room : (names.foldl Mailboxes.observe (.ofCapacity capacity)).room =
      Broadcast.roomFor capacity :=
    (Mailboxes.room_foldl_observe names _).trans (Broadcast.roomFor_eq capacity).symm
  generalize names.foldl Mailboxes.observe (.ofCapacity capacity) = b at mirrors unread room
  have drained := (mirrors.sendAll ms).drainAll (k := 0) rfl
    (fun name => (ms.filter fun m => m.name = name).rtake b.room)
    (fun name => by
      rw [Mailboxes.room_foldl_send, List.rtake, List.length_drop]
      omega)
    fun j s _ found => by
      rw [Mailboxes.box?_foldl_send, unread j s found, Option.map_some,
        Mailbox.foldl_put _ _ (Nat.zero_le _)]
      rfl
  rw [← room]
  conv_rhs => rw [← channels, List.map_map]
  exact drained

end StepFlow
