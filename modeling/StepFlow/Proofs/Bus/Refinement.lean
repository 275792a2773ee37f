import Mathlib.Algebra.Order.Ring.Nat
import Mathlib.Data.List.Nodup
import Mathlib.Data.Nat.Log
import StepFlow.Proofs.Bus.Mailboxes

/-!
# The bus is a bus of mailboxes

The observers of a channel share a ring, in which each of them is a number, and a ring that was
cleared or abandoned lives on beside the one that took its place. None of this shows: whatever is
done with a bus, the results are those of the bus of mailboxes.

The relation between the two (`Mirrors`) says that the ring of every channel serves the mailboxes of
that channel (`Serves`), and that every other ring is exhausted: nobody reads it, or all that it
keeps is of an earlier epoch. Operations change one ring at a time, so each of them is a change of a
ring that serves a channel, or of an exhausted one.
-/

namespace StepFlow

/-- A bus with the subscriptions that it gave out, the oldest first. -/
structure Observed where
  bus : Bus
  subscriptions : List Subscription

namespace Observed

def ofCapacity (capacity : Nat) : Observed := ⟨.ofCapacity capacity, []⟩

def observe (o : Observed) (name : String) : Observed :=
  ⟨(o.bus.observe name).2, o.subscriptions ++ [(o.bus.observe name).1]⟩

def unsubscribe (o : Observed) (subscriber : Nat) : Observed :=
  match o.subscriptions[subscriber]? with
  | some s => { o with bus := o.bus.unsubscribe s }
  | none => o

def receive (o : Observed) (subscriber : Nat) : Delivery × Observed :=
  match o.subscriptions[subscriber]? with
  | some s => ((o.bus.receive s).1, { o with bus := (o.bus.receive s).2 })
  | none => (.ended, o)

def step (o : Observed) : BusOperation → BusResult × Observed
  | .observe channel => (.done, o.observe channel)
  | .unsubscribe subscriber => (.done, o.unsubscribe subscriber)
  | .send m => (.delivered (o.bus.send m).1, { o with bus := (o.bus.send m).2 })
  | .receive subscriber => (.received (o.receive subscriber).1, (o.receive subscriber).2)
  | .clear => (.done, { o with bus := o.bus.clear })
  | .count => (.channels o.bus.channelCount, o)

end Observed

namespace Bus

/-- The mailbox that a reader of a ring amounts to. -/
def mailbox (channel : String) (ring : Broadcast Envelope) (entry : Nat × Nat) : Mailbox :=
  ⟨entry.1, channel, (ring.pending entry.2).map Envelope.message⟩

/-- The ring of a channel, at an epoch, has a reader for every mailbox of the channel, who has
before it what is in the queue. -/
structure Serves (room epoch : Nat) (boxes : List Mailbox) (channel : String)
    (ring : Broadcast Envelope) : Prop where
  valid : ring.Valid
  room_eq : ring.room = room
  current : ∀ e ∈ ring.kept, e.epoch = epoch
  boxes_eq : boxes.filter (fun box => box.channel = channel) =
    ring.readers.map (mailbox channel ring)

/-- Nobody gets anything from a ring. -/
def Exhausted (epoch : Nat) (ring : Broadcast Envelope) : Prop :=
  ring.readers = [] ∨ ∀ e ∈ ring.kept, e.epoch < epoch

end Bus

theorem mem_of_lookup {α : Type} [BEq α] [LawfulBEq α] {l : List (α × Nat)} {a : α} {n : Nat}
    (h : l.lookup a = some n) : (a, n) ∈ l := by
  obtain ⟨before, after, rfl, -⟩ := List.lookup_eq_some_iff.1 h
  simp

theorem not_mem_of_lookup {l : List (String × Nat)} {name : String} (h : l.lookup name = none)
    (id : Nat) : (name, id) ∉ l := by
  intro hmem
  simpa using List.lookup_eq_none_iff.1 h _ hmem

open Bus in
/-- A bus mirrors mailboxes. -/
structure Mirrors (o : Observed) (b : Mailboxes) : Prop where
  room_eq : b.room = Broadcast.roomFor o.bus.capacity
  issued_eq : b.issued = o.bus.issued
  subscribers : o.subscriptions.length = o.bus.issued
  reader_eq : ∀ {k : Nat} {s : Subscription}, o.subscriptions[k]? = some s → s.reader = k
  channels_eq : b.channels = o.bus.channels.map Prod.fst
  /-- A name and a ring belong to one channel. -/
  nodup_names : (o.bus.channels.map Prod.fst).Nodup
  ring_inj : ∀ {name name' : String} {ring : Nat}, (name, ring) ∈ o.bus.channels →
    (name', ring) ∈ o.bus.channels → name = name'
  /-- A subscription reads the ring of no other channel. -/
  channel_eq : ∀ {s : Subscription} {name : String}, s ∈ o.subscriptions →
    (name, s.ring) ∈ o.bus.channels → name = s.channel
  ring_lt : ∀ {s : Subscription}, s ∈ o.subscriptions → s.ring < o.bus.rings.length
  serves : ∀ {name : String} {id : Nat}, (name, id) ∈ o.bus.channels →
    ∃ ring, o.bus.rings[id]? = some ring ∧ Serves b.room o.bus.epoch b.boxes name ring
  exhausted : ∀ {id : Nat} {ring : Broadcast Envelope}, o.bus.rings[id]? = some ring →
    (∀ name, (name, id) ∉ o.bus.channels) → Exhausted o.bus.epoch ring
  /-- Every mailbox belongs to a subscription of a channel that is there. -/
  owner : ∀ {box : Mailbox}, box ∈ b.boxes → ∃ s, o.subscriptions[box.subscriber]? = some s ∧
    s.channel = box.channel ∧ (s.channel, s.ring) ∈ o.bus.channels

namespace Mirrors

open Bus

variable {o : Observed} {b : Mailboxes}

theorem ofCapacity (capacity : Nat) : Mirrors (.ofCapacity capacity) (.ofCapacity capacity) where
  room_eq := (Broadcast.roomFor_eq capacity).symm
  issued_eq := rfl
  subscribers := rfl
  reader_eq h := by cases h
  channels_eq := rfl
  nodup_names := List.nodup_nil
  ring_inj h := by cases h
  channel_eq h := by cases h
  ring_lt h := by cases h
  serves h := by cases h
  exhausted h := by cases h
  owner h := by cases h

theorem ring_unique (r : Mirrors o b) {name : String} {id id' : Nat}
    (h : (name, id) ∈ o.bus.channels) (h' : (name, id') ∈ o.bus.channels) : id = id' :=
  congrArg Prod.snd (List.inj_on_of_nodup_map r.nodup_names h h' rfl)

theorem serves_of_ring (r : Mirrors o b) {name : String} {id : Nat} {ring : Broadcast Envelope}
    (hopen : (name, id) ∈ o.bus.channels) (hring : o.bus.rings[id]? = some ring) :
    Serves b.room o.bus.epoch b.boxes name ring := by
  obtain ⟨ring', hring', hserves⟩ := r.serves hopen
  cases hring.symm.trans hring'
  exact hserves

theorem lt_length (r : Mirrors o b) {name : String} {id : Nat} (h : (name, id) ∈ o.bus.channels) :
    id < o.bus.rings.length := by
  obtain ⟨ring, hring, -⟩ := r.serves h
  exact (List.getElem?_eq_some_iff.1 hring).1

theorem not_mem_length (r : Mirrors o b) (name : String) :
    (name, o.bus.rings.length) ∉ o.bus.channels :=
  fun h => (r.lt_length h).ne rfl

theorem mem_names (r : Mirrors o b) {name : String} :
    name ∈ b.channels ↔ ∃ id, (name, id) ∈ o.bus.channels := by
  simp [r.channels_eq]

/-! ## Changing one ring -/

/-- The ring of a channel changes together with the mailboxes of the channel. -/
theorem modifyRing (r : Mirrors o b) {name : String} {id : Nat}
    (change : Broadcast Envelope → Broadcast Envelope) (boxes : List Mailbox)
    (hopen : (name, id) ∈ o.bus.channels)
    (hserves : ∀ ring, o.bus.rings[id]? = some ring → Serves b.room o.bus.epoch b.boxes name ring →
      Serves b.room o.bus.epoch boxes name (change ring))
    (hother : ∀ other, other ≠ name →
      boxes.filter (fun box => box.channel = other) =
        b.boxes.filter (fun box => box.channel = other))
    (howner : ∀ box ∈ boxes, ∃ s, o.subscriptions[box.subscriber]? = some s ∧
      s.channel = box.channel ∧ (s.channel, s.ring) ∈ o.bus.channels) :
    Mirrors { o with bus := o.bus.modifyRing id change } { b with boxes } where
  room_eq := r.room_eq
  issued_eq := r.issued_eq
  subscribers := r.subscribers
  reader_eq := r.reader_eq
  channels_eq := r.channels_eq
  nodup_names := r.nodup_names
  ring_inj := r.ring_inj
  channel_eq := r.channel_eq
  ring_lt h := (r.ring_lt h).trans_eq (List.length_modify _ _ _).symm
  serves {name' id'} h := by
    obtain ⟨ring, hring, hs⟩ := r.serves h
    simp only [Bus.modifyRing, List.getElem?_modify, hring]
    by_cases hid : id = id'
    · subst hid
      obtain rfl := r.ring_inj h hopen
      exact ⟨change ring, by simp, hserves ring hring hs⟩
    · have hname : name' ≠ name := by
        rintro rfl
        exact hid (r.ring_unique hopen h)
      exact ⟨ring, by simp [hid], hs.valid, hs.room_eq, hs.current,
        (hother _ hname).trans hs.boxes_eq⟩
  exhausted {id' ring} h hclosed := by
    have hid : id ≠ id' := fun h => hclosed name (h ▸ hopen)
    simp only [Bus.modifyRing, List.getElem?_modify, if_neg hid] at h
    exact r.exhausted (by simpa using h) hclosed
  owner := howner _

/-- A ring without a channel changes, and stays exhausted. -/
theorem modifyClosed (r : Mirrors o b) {id : Nat} (change : Broadcast Envelope → Broadcast Envelope)
    (hclosed : ∀ name, (name, id) ∉ o.bus.channels)
    (hexhausted : ∀ ring, Exhausted o.bus.epoch ring → Exhausted o.bus.epoch (change ring)) :
    Mirrors { o with bus := o.bus.modifyRing id change } b where
  room_eq := r.room_eq
  issued_eq := r.issued_eq
  subscribers := r.subscribers
  reader_eq := r.reader_eq
  channels_eq := r.channels_eq
  nodup_names := r.nodup_names
  ring_inj := r.ring_inj
  channel_eq := r.channel_eq
  ring_lt h := (r.ring_lt h).trans_eq (List.length_modify _ _ _).symm
  serves {name id'} h := by
    obtain ⟨ring, hring, hs⟩ := r.serves h
    have hid : id ≠ id' := fun heq => hclosed name (heq ▸ h)
    exact ⟨ring, by simp [Bus.modifyRing, hring, hid], hs⟩
  exhausted {id' ring} h hclosed' := by
    simp only [Bus.modifyRing, List.getElem?_modify, Option.map_eq_map, Option.map_eq_some_iff] at h
    obtain ⟨old, hold, rfl⟩ := h
    split
    · exact hexhausted old (r.exhausted hold hclosed')
    · exact r.exhausted hold hclosed'
  owner := r.owner

/-! ## Observing -/

/-- A channel that is not there is made, with a ring that nobody reads. -/
theorem makeChannel (r : Mirrors o b) {name : String} (hnew : ∀ id, (name, id) ∉ o.bus.channels) :
    Mirrors
      { o with bus := { o.bus with
          rings := o.bus.rings ++ [Broadcast.ofCapacity o.bus.capacity]
          channels := (name, o.bus.rings.length) :: o.bus.channels } }
      { b with channels := name :: b.channels } where
  room_eq := r.room_eq
  issued_eq := r.issued_eq
  subscribers := r.subscribers
  reader_eq := r.reader_eq
  channels_eq := by rw [r.channels_eq]; rfl
  nodup_names := by
    refine List.nodup_cons.2 ⟨fun hmem => ?_, r.nodup_names⟩
    obtain ⟨id, hmem⟩ := r.mem_names.1 (r.channels_eq ▸ hmem)
    exact hnew id hmem
  ring_inj h h' := by
    obtain heq | h := List.mem_cons.1 h
    · cases heq
      obtain heq' | h' := List.mem_cons.1 h'
      · cases heq'
        rfl
      · exact absurd h' (r.not_mem_length _)
    · obtain heq' | h' := List.mem_cons.1 h'
      · cases heq'
        exact absurd h (r.not_mem_length _)
      · exact r.ring_inj h h'
  channel_eq hs h := by
    obtain heq | h := List.mem_cons.1 h
    · exact absurd (congrArg Prod.snd heq) (r.ring_lt hs).ne
    · exact r.channel_eq hs h
  ring_lt h := (r.ring_lt h).trans (by simp)
  serves h := by
    obtain heq | h := List.mem_cons.1 h
    · cases heq
      refine ⟨_, List.getElem?_concat_length, Broadcast.valid_ofCapacity _,
        r.room_eq.symm, nofun, ?_⟩
      refine List.filter_eq_nil_iff.2 fun box hbox => ?_
      obtain ⟨s, -, hchannel, hmem⟩ := r.owner hbox
      have : box.channel ≠ name := fun heq => hnew s.ring (heq ▸ hchannel ▸ hmem)
      simpa using this
    · obtain ⟨ring, hring, hserves⟩ := r.serves h
      exact ⟨ring, (List.getElem?_append_left (r.lt_length h)).trans hring, hserves⟩
  exhausted {id ring} h hclosed := by
    have hid : id ≠ o.bus.rings.length := fun heq => hclosed name (heq ▸ List.mem_cons_self)
    have hlt : id < o.bus.rings.length + 1 := by
      simpa using (List.getElem?_eq_some_iff.1 h).1
    rw [List.getElem?_append_left (by omega)] at h
    exact r.exhausted h fun other hmem => hclosed other (List.mem_cons_of_mem _ hmem)
  owner h := by
    obtain ⟨s, hs, hchannel, hmem⟩ := r.owner h
    exact ⟨s, hs, hchannel, List.mem_cons_of_mem _ hmem⟩

theorem ringFor (r : Mirrors o b) (name : String) :
    Mirrors { o with bus := (o.bus.ringFor name).2 } (b.openChannel name) ∧
      (name, (o.bus.ringFor name).1) ∈ (o.bus.ringFor name).2.channels := by
  unfold Bus.ringFor Mailboxes.openChannel
  cases h : o.bus.channels.lookup name with
  | some id =>
    have hmem : (name, id) ∈ o.bus.channels := mem_of_lookup h
    rw [if_pos (r.mem_names.2 ⟨id, hmem⟩)]
    exact ⟨r, hmem⟩
  | none =>
    have hnew : ∀ id, (name, id) ∉ o.bus.channels := not_mem_of_lookup h
    rw [if_neg (fun hmem => (r.mem_names.1 hmem).elim hnew)]
    exact ⟨r.makeChannel hnew, List.mem_cons_self⟩

/-- A subscription is given out, before the ring has a reader for it. -/
theorem subscribe (r : Mirrors o b) {name : String} {id : Nat}
    (hopen : (name, id) ∈ o.bus.channels) :
    Mirrors ⟨{ o.bus with issued := o.bus.issued + 1 },
        o.subscriptions ++ [⟨name, id, o.bus.issued⟩]⟩
      { b with issued := b.issued + 1 } where
  room_eq := r.room_eq
  issued_eq := congrArg (· + 1) r.issued_eq
  subscribers := by simp [r.subscribers]
  reader_eq {k s} h := by
    obtain hlt | rfl := (Nat.lt_succ_iff_lt_or_eq.1
      ((List.getElem?_eq_some_iff.1 h).1.trans_eq (List.length_append ..)))
    · exact r.reader_eq ((List.getElem?_append_left hlt).symm.trans h)
    · rw [List.getElem?_concat_length] at h
      cases h
      exact r.subscribers.symm
  channels_eq := r.channels_eq
  nodup_names := r.nodup_names
  ring_inj := r.ring_inj
  channel_eq hs h := by
    obtain hs | hs := List.mem_append.1 hs
    · exact r.channel_eq hs h
    · obtain rfl := List.mem_singleton.1 hs
      exact r.ring_inj h hopen
  ring_lt hs := by
    obtain hs | hs := List.mem_append.1 hs
    · exact r.ring_lt hs
    · obtain rfl := List.mem_singleton.1 hs
      exact r.lt_length hopen
  serves := r.serves
  exhausted := r.exhausted
  owner h := by
    obtain ⟨s, hs, hchannel, hmem⟩ := r.owner h
    exact ⟨s, (List.getElem?_append_left (List.getElem?_eq_some_iff.1 hs).1).trans hs,
      hchannel, hmem⟩

theorem observe (r : Mirrors o b) (name : String) : Mirrors (o.observe name) (b.observe name) := by
  obtain ⟨hopened, hmem⟩ := r.ringFor name
  have hissued : (b.openChannel name).issued = (o.bus.ringFor name).2.issued := hopened.issued_eq
  have hobserve : b.observe name =
      { b.openChannel name with
        boxes := ⟨(b.openChannel name).issued, name, []⟩ :: (b.openChannel name).boxes
        issued := (b.openChannel name).issued + 1 } := by
    simp [Mailboxes.observe]
  have hsubscribed := hopened.subscribe hmem
  rw [hobserve]
  refine hsubscribed.modifyRing (Broadcast.subscribe · (o.bus.ringFor name).2.issued) _ hmem
    (fun ring _ hs => ?_) (fun other hother => ?_) (fun box hbox => ?_)
  · refine ⟨hs.valid.subscribe, hs.room_eq, hs.current, ?_⟩
    have hself : mailbox name ring ((o.bus.ringFor name).2.issued, ring.sent) =
        ⟨(b.openChannel name).issued, name, []⟩ := by
      rw [mailbox, hissued, Broadcast.pending_sent]
      rfl
    rw [List.filter_cons_of_pos (by simp), hs.boxes_eq, ← hself]
    rfl
  · exact List.filter_cons_of_neg (by simpa using hother.symm)
  · obtain rfl | hbox := List.mem_cons.1 hbox
    · refine ⟨⟨name, (o.bus.ringFor name).1, (o.bus.ringFor name).2.issued⟩, ?_, rfl, hmem⟩
      rw [hissued, ← hopened.subscribers]
      exact List.getElem?_concat_length
    · exact hsubscribed.owner hbox

/-! ## Mailboxes and subscriptions -/

/-- All mailboxes of a subscriber are for the channel of its subscription, which is there. -/
theorem channel_of_box (r : Mirrors o b) {k : Nat} {s : Subscription} {box : Mailbox}
    (hs : o.subscriptions[k]? = some s) (hbox : box ∈ b.boxes) (hk : box.subscriber = k) :
    box.channel = s.channel ∧ (s.channel, s.ring) ∈ o.bus.channels := by
  obtain ⟨s', hs', hchannel, hmem⟩ := r.owner hbox
  rw [hk] at hs'
  cases hs.symm.trans hs'
  exact ⟨hchannel.symm, hmem⟩

/-- A subscriber without a subscription, or with one to a ring that has no
channel, has no mailbox. -/
theorem box?_eq_none (r : Mirrors o b) {k : Nat}
    (hclosed : ∀ s, o.subscriptions[k]? = some s → ∀ name, (name, s.ring) ∉ o.bus.channels) :
    b.box? k = none := by
  refine Mailboxes.box?_eq_none.2 ?_
  rintro box hbox rfl
  obtain ⟨s, hs, -, hmem⟩ := r.owner hbox
  exact hclosed s hs _ hmem

/-! ## Ending a subscription -/

theorem unsubscribe_of_none {k : Nat} (h : b.box? k = none) : b.unsubscribe k = b := by
  rw [Mailboxes.unsubscribe, List.filter_eq_self.2]
  simpa using Mailboxes.box?_eq_none.1 h

theorem unsubscribe (r : Mirrors o b) (k : Nat) : Mirrors (o.unsubscribe k) (b.unsubscribe k) := by
  unfold Observed.unsubscribe
  cases hs : o.subscriptions[k]? with
  | none =>
    rw [unsubscribe_of_none (r.box?_eq_none fun s h => by cases hs.symm.trans h)]
    exact r
  | some s =>
    obtain rfl := r.reader_eq hs
    by_cases hopen : ∃ name, (name, s.ring) ∈ o.bus.channels
    · obtain ⟨name, hopen⟩ := hopen
      obtain rfl : name = s.channel := r.channel_eq (List.mem_of_getElem? hs) hopen
      refine r.modifyRing (Broadcast.unsubscribe · s.reader) _ hopen (fun ring _ hserves => ?_)
        (fun other hother => ?_) (fun box hbox => r.owner (List.mem_of_mem_filter hbox))
      · refine ⟨hserves.valid.unsubscribe, hserves.room_eq, hserves.current, ?_⟩
        rw [List.filter_comm, hserves.boxes_eq, List.filter_map]
        rfl
      · rw [List.filter_filter]
        refine List.filter_congr fun box hbox => ?_
        by_cases hk : box.subscriber = s.reader
        · have := (r.channel_of_box hs hbox hk).1
          simp [hk, this, hother.symm]
        · simp [hk]
    · have hclosed : ∀ name, (name, s.ring) ∉ o.bus.channels := fun name h => hopen ⟨name, h⟩
      rw [unsubscribe_of_none (r.box?_eq_none fun s' h => by cases hs.symm.trans h; exact hclosed)]
      refine r.modifyClosed (Broadcast.unsubscribe · s.reader) hclosed ?_
      rintro ring (h | h)
      · exact .inl (by simp [Broadcast.unsubscribe, h])
      · exact .inr h

/-! ## Sending -/

/-- As many readers as mailboxes. -/
theorem readerCount_eq (r : Mirrors o b) {name : String} {id : Nat}
    (h : (name, id) ∈ o.bus.channels) :
    o.bus.readerCount id = (b.reached name).length := by
  obtain ⟨ring, hring, hserves⟩ := r.serves h
  rw [readerCount, hring, Mailboxes.reached, hserves.boxes_eq, List.length_map]
  rfl

theorem reached_eq_nil (r : Mirrors o b) {name : String} (h : ∀ id, (name, id) ∉ o.bus.channels) :
    b.reached name = [] := by
  refine List.filter_eq_nil_iff.2 fun box hbox hname => ?_
  obtain ⟨s, -, hchannel, hmem⟩ := r.owner hbox
  have hname : box.channel = name := by simpa using hname
  exact h s.ring (hname ▸ hchannel ▸ hmem)

/-- A channel without readers is removed. -/
theorem removeChannel (r : Mirrors o b) {name : String} (h : b.reached name = []) :
    Mirrors { o with bus := o.bus.removeChannel name }
      { b with channels := b.channels.filter fun other => other ≠ name } where
  room_eq := r.room_eq
  issued_eq := r.issued_eq
  subscribers := r.subscribers
  reader_eq := r.reader_eq
  channels_eq := by
    rw [r.channels_eq, List.filter_map]
    rfl
  nodup_names := r.nodup_names.sublist (List.filter_sublist.map _)
  ring_inj h h' := r.ring_inj (List.mem_of_mem_filter h) (List.mem_of_mem_filter h')
  channel_eq hs h := r.channel_eq hs (List.mem_of_mem_filter h)
  ring_lt := r.ring_lt
  serves h := r.serves (List.mem_of_mem_filter h)
  exhausted {id ring} hring hclosed := by
    by_cases hid : (name, id) ∈ o.bus.channels
    · have hserves := r.serves_of_ring hid hring
      exact .inl (List.map_eq_nil_iff.1 (hserves.boxes_eq.symm.trans h))
    · refine r.exhausted hring fun other hother => hclosed other (List.mem_filter.2 ⟨hother, ?_⟩)
      have : other ≠ name := fun heq => hid (heq ▸ hother)
      simpa using this
  owner {box} hbox := by
    obtain ⟨s, hs, hchannel, hmem⟩ := r.owner hbox
    refine ⟨s, hs, hchannel, List.mem_filter.2 ⟨hmem, ?_⟩⟩
    have := List.filter_eq_nil_iff.1 h box hbox
    simpa [hchannel] using this

theorem map_put_of_reached_eq_nil {m : Message} (h : b.reached m.name = []) :
    b.boxes.map (Mailbox.put b.room m) = b.boxes := by
  refine (List.map_congr_left fun box hbox => ?_).trans (List.map_id _)
  have := List.filter_eq_nil_iff.1 h box hbox
  rw [Mailbox.put, if_neg (by simpa using this)]
  rfl

theorem filter_map_eq {f : Mailbox → Mailbox} (hf : ∀ box, (f box).channel = box.channel)
    (boxes : List Mailbox) (name : String) :
    (boxes.map f).filter (fun box => box.channel = name) =
      (boxes.filter fun box => box.channel = name).map f := by
  rw [List.filter_map]
  congr 1
  refine List.filter_congr fun box _ => ?_
  rw [Function.comp_apply, hf]

theorem put_mailbox {m : Message} {epoch : Nat} {ring : Broadcast Envelope} (hvalid : ring.Valid)
    {entry : Nat × Nat} (hmem : entry ∈ ring.readers) :
    (mailbox m.name ring entry).put ring.room m = mailbox m.name (ring.send ⟨epoch, m⟩) entry := by
  have hchannel : (mailbox m.name ring entry).channel = m.name := rfl
  rw [Mailbox.put, if_pos hchannel, mailbox, mailbox,
    Broadcast.pending_send (List.ne_nil_of_mem hmem) (hvalid.next_le entry hmem),
    Broadcast.map_enqueue]

theorem send (r : Mirrors o b) (m : Message) :
    (o.bus.send m).1 = (b.reached m.name).length ∧
      Mirrors { o with bus := (o.bus.send m).2 } (b.send m) := by
  unfold Bus.send Mailboxes.send
  cases hl : o.bus.channels.lookup m.name with
  | none =>
    have hnone := r.reached_eq_nil (not_mem_of_lookup hl)
    have hchannels : b.channels.filter (fun name => name ≠ m.name) = b.channels := by
      refine List.filter_eq_self.2 fun name hname => ?_
      obtain ⟨id, hmem⟩ := r.mem_names.1 hname
      have : name ≠ m.name := fun heq => not_mem_of_lookup hl id (heq ▸ hmem)
      simpa using this
    rw [map_put_of_reached_eq_nil hnone, if_pos hnone, hchannels, hnone]
    exact ⟨rfl, r⟩
  | some id =>
    have hopen : (m.name, id) ∈ o.bus.channels := mem_of_lookup hl
    simp only [r.readerCount_eq hopen, List.length_eq_zero_iff]
    by_cases hnone : b.reached m.name = []
    · rw [map_put_of_reached_eq_nil hnone, if_pos hnone, if_pos hnone, hnone]
      exact ⟨rfl, r.removeChannel hnone⟩
    · rw [if_neg hnone, if_neg hnone]
      refine ⟨rfl, r.modifyRing (Broadcast.send · ⟨o.bus.epoch, m⟩) _ hopen
        (fun ring _ hserves => ?_)
        (fun other hother => ?_) (fun box hbox => ?_)⟩
      · refine ⟨hserves.valid.send _, (Broadcast.room_send _).trans hserves.room_eq,
          fun e he => ?_, ?_⟩
        · obtain rfl | he := Broadcast.mem_kept_send he
          · rfl
          · exact hserves.current e he
        · rw [filter_map_eq (Mailbox.channel_put _ _), hserves.boxes_eq, List.map_map,
            Broadcast.readers_send, ← hserves.room_eq]
          exact List.map_congr_left fun entry hmem => put_mailbox hserves.valid hmem
      · rw [filter_map_eq (Mailbox.channel_put _ _)]
        refine (List.map_congr_left fun box hbox => ?_).trans (List.map_id _)
        have hchannel : box.channel = other := by simpa using (List.mem_filter.1 hbox).2
        exact if_neg (hchannel ▸ hother)
      · obtain ⟨old, hold, rfl⟩ := List.mem_map.1 hbox
        rw [Mailbox.subscriber_put, Mailbox.channel_put]
        exact r.owner hold

/-! ## Receiving -/

theorem find?_filter_of_pos {α : Type} {xs : List α} {p q : α → Bool} {x : α}
    (h : xs.find? q = some x) (hp : p x = true) : (xs.filter p).find? q = some x := by
  obtain ⟨hq, before, after, rfl, hbefore⟩ := List.find?_eq_some_iff_append.1 h
  rw [List.filter_append, List.filter_cons_of_pos hp]
  refine List.find?_eq_some_iff_append.2 ⟨hq, before.filter p, after.filter p, rfl, fun y hy => ?_⟩
  exact hbefore y (List.mem_of_mem_filter hy)

theorem lookup_of_find? {l : List (Nat × Nat)} {k : Nat} {entry : Nat × Nat}
    (h : l.find? (fun entry => entry.1 = k) = some entry) : l.lookup k = some entry.2 := by
  obtain ⟨hk, before, after, rfl, hbefore⟩ := List.find?_eq_some_iff_append.1 h
  obtain rfl : entry.1 = k := by simpa using hk
  refine List.lookup_eq_some_iff.2 ⟨before, after, rfl, fun other hother => ?_⟩
  have hne : other.1 ≠ entry.1 := by simpa using hbefore other hother
  exact bne_iff_ne.2 hne.symm

/-- The reader behind a mailbox. -/
theorem reader_of_box (r : Mirrors o b) {k : Nat} {s : Subscription} {box : Mailbox}
    (hs : o.subscriptions[k]? = some s) (hbox : b.box? k = some box) :
    (s.channel, s.ring) ∈ o.bus.channels ∧
    ∃ ring next, o.bus.rings[s.ring]? = some ring ∧
      Serves b.room o.bus.epoch b.boxes s.channel ring ∧
      ring.readers.lookup k = some next ∧ box = mailbox s.channel ring (k, next) := by
  obtain ⟨hchannel, hopen⟩ :=
    r.channel_of_box hs (Mailboxes.mem_of_box? hbox) (Mailboxes.subscriber_of_box? hbox)
  obtain ⟨ring, hring, hserves⟩ := r.serves hopen
  have hfind := find?_filter_of_pos (p := fun box => box.channel = s.channel) hbox
    (by simpa using hchannel)
  rw [hserves.boxes_eq, List.find?_map, Option.map_eq_some_iff] at hfind
  obtain ⟨⟨k', next⟩, hentry, rfl⟩ := hfind
  have hk := List.find?_some hentry
  obtain rfl : k' = k := of_decide_eq_true hk
  exact ⟨hopen, ring, next, hring, hserves, lookup_of_find? hentry, rfl⟩

theorem isOpen_iff {bus : Bus} {id : Nat} :
    bus.isOpen id = true ↔ ∃ name, (name, id) ∈ bus.channels := by
  simp [isOpen]

theorem setQueue_mailbox {channel : String} {ring : Broadcast Envelope} {reader next : Nat}
    {rest : List Envelope} (hrest : ring.pending next = rest) (entry : Nat × Nat) :
    (mailbox channel ring entry).setQueue reader (rest.map Envelope.message) =
      mailbox channel ring (if entry.1 = reader then (reader, next) else entry) := by
  unfold Mailbox.setQueue
  by_cases h : (mailbox channel ring entry).subscriber = reader
  · rw [if_pos h, if_pos (show entry.1 = reader from h), ← hrest, ← h]
    rfl
  · rw [if_neg h, if_neg (show entry.1 ≠ reader from h)]

/-- A subscriber with a mailbox reads from the ring what is in the queue. -/
theorem receive_of_box (r : Mirrors o b) {k : Nat} {s : Subscription} {box : Mailbox}
    (hs : o.subscriptions[k]? = some s) (hbox : b.box? k = some box) :
    (o.bus.receive s).1 = (b.receive k).1 ∧
      Mirrors { o with bus := (o.bus.receive s).2 } (b.receive k).2 := by
  obtain ⟨hopen, ring, next, hring, hserves, hlookup, rfl⟩ := r.reader_of_box hs hbox
  obtain rfl := r.reader_eq hs
  have hreader : ring.hasReader s.reader = true := by rw [Broadcast.hasReader, hlookup]; rfl
  have hnext : next ≤ ring.sent := hserves.valid.next_le _ (mem_of_lookup hlookup)
  unfold Bus.receive
  simp only [hring, hreader, if_true]
  cases hpending : ring.pending next with
  | nil =>
    rw [Mailboxes.receive_of_nil hbox (by rw [mailbox, hpending]; rfl),
      readCurrent_of_pending_nil hserves.valid hlookup hnext hpending]
    refine ⟨if_pos (isOpen_iff.2 ⟨_, hopen⟩), ?_⟩
    refine r.modifyRing (fun _ => ring) b.boxes hopen (fun _ _ _ => hserves) (fun _ _ => rfl)
      fun _ => r.owner
  | cons e rest =>
    obtain ⟨next', hread, hnext', hrest⟩ :=
      readCurrent_of_pending_cons hserves.valid hserves.current hlookup hpending
    rw [Mailboxes.receive_of_cons hbox (by rw [mailbox, hpending]; rfl), hread]
    refine ⟨rfl, r.modifyRing (fun _ => ring.moveTo s.reader next') _ hopen (fun _ _ _ => ?_)
      (fun other hother => ?_) (fun box' hbox' => ?_)⟩
    · refine ⟨hserves.valid.moveTo hnext', hserves.room_eq, hserves.current, ?_⟩
      rw [filter_map_eq (Mailbox.channel_setQueue _ _), hserves.boxes_eq,
        Broadcast.moveTo, List.map_map, List.map_map]
      exact List.map_congr_left fun entry _ => setQueue_mailbox hrest entry
    · rw [filter_map_eq (Mailbox.channel_setQueue _ _)]
      refine (List.map_congr_left fun box hbox => if_neg fun hk => ?_).trans (List.map_id _)
      obtain ⟨hmem, hchannel⟩ := List.mem_filter.1 hbox
      exact hother ((of_decide_eq_true hchannel).symm.trans (r.channel_of_box hs hmem hk).1)
    · obtain ⟨old, hold, rfl⟩ := List.mem_map.1 hbox'
      rw [Mailbox.subscriber_setQueue, Mailbox.channel_setQueue]
      exact r.owner hold

/-- A subscriber without a mailbox has no reader, or one on an exhausted ring. -/
theorem receive_of_none (r : Mirrors o b) {k : Nat} {s : Subscription}
    (hs : o.subscriptions[k]? = some s) (hnone : b.box? k = none) :
    (o.bus.receive s).1 = .ended ∧ Mirrors { o with bus := (o.bus.receive s).2 } b := by
  obtain rfl := r.reader_eq hs
  unfold Bus.receive
  cases hring : o.bus.rings[s.ring]? with
  | none => exact ⟨rfl, r⟩
  | some ring =>
    by_cases hreader : ring.hasReader s.reader = true
    · obtain ⟨next, hlookup⟩ := Option.isSome_iff_exists.1 hreader
      have hmem : (s.reader, next) ∈ ring.readers := mem_of_lookup hlookup
      have hclosed : ∀ name, (name, s.ring) ∉ o.bus.channels := by
        intro name hopen
        have hserves := r.serves_of_ring hopen hring
        have hbox : mailbox name ring (s.reader, next) ∈ b.boxes :=
          List.mem_of_mem_filter (hserves.boxes_eq ▸ List.mem_map_of_mem hmem)
        exact Mailboxes.box?_eq_none.1 hnone _ hbox rfl
      have hstale : ∀ e ∈ ring.kept, e.epoch < o.bus.epoch :=
        (r.exhausted hring hclosed).resolve_left (List.ne_nil_of_mem hmem)
      have hnotOpen : o.bus.isOpen s.ring = false := by
        simpa using isOpen_iff.not.2 (not_exists.2 hclosed)
      obtain ⟨hread, hkept⟩ := readCurrent_stale s.reader fun e he => (hstale e he).ne
      simp only [hreader, if_true]
      split
      · next hsome =>
        rw [hsome] at hread
        cases hread
      · next ring' hnone =>
        rw [hnone] at hkept
        refine ⟨by rw [hnotOpen]; rfl, r.modifyClosed (fun _ => ring') hclosed fun _ _ => .inr ?_⟩
        exact hkept ▸ hstale
    · simp only [hreader]
      exact ⟨rfl, r⟩

theorem receive (r : Mirrors o b) (k : Nat) :
    (o.receive k).1 = (b.receive k).1 ∧ Mirrors (o.receive k).2 (b.receive k).2 := by
  unfold Observed.receive
  cases hs : o.subscriptions[k]? with
  | none =>
    rw [Mailboxes.receive_of_none (r.box?_eq_none fun s h => by cases hs.symm.trans h)]
    exact ⟨rfl, r⟩
  | some s =>
    cases hbox : b.box? k with
    | some box => exact r.receive_of_box hs hbox
    | none =>
      rw [Mailboxes.receive_of_none hbox]
      exact r.receive_of_none hs hbox

theorem clear (r : Mirrors o b) : Mirrors { o with bus := o.bus.clear } b.clear where
  room_eq := r.room_eq
  issued_eq := r.issued_eq
  subscribers := r.subscribers
  reader_eq := r.reader_eq
  channels_eq := rfl
  nodup_names := List.nodup_nil
  ring_inj h := by cases h
  channel_eq _ h := by cases h
  ring_lt := r.ring_lt
  serves h := by cases h
  exhausted {id ring} hring _ := by
    by_cases hopen : ∃ name, (name, id) ∈ o.bus.channels
    · obtain ⟨name, hopen⟩ := hopen
      have hserves := r.serves_of_ring hopen hring
      exact .inr fun e he => Nat.lt_succ_of_le (hserves.current e he).le
    · exact (r.exhausted hring fun name h => hopen ⟨name, h⟩).imp_right
        fun h e he => Nat.lt_succ_of_lt (h e he)
  owner h := by cases h

/-! ## Running -/

/-- Whatever is done with a bus has the result that it has with the mailboxes, and again the bus
mirrors the mailboxes. -/
theorem step (r : Mirrors o b) (op : BusOperation) :
    (o.step op).1 = (b.step op).1 ∧ Mirrors (o.step op).2 (b.step op).2 := by
  cases op with
  | observe name => exact ⟨rfl, r.observe name⟩
  | unsubscribe k => exact ⟨rfl, r.unsubscribe k⟩
  | send m => exact ⟨congrArg _ (r.send m).1, (r.send m).2⟩
  | receive k => exact ⟨congrArg _ (r.receive k).1, (r.receive k).2⟩
  | clear => exact ⟨rfl, r.clear⟩
  | count =>
    refine ⟨?_, r⟩
    rw [Observed.step, Mailboxes.step, r.channels_eq, List.length_map]
    rfl

theorem results_eq (r : Mirrors o b) (ops : List BusOperation) :
    BusOperation.results Observed.step o ops = BusOperation.results Mailboxes.step b ops := by
  induction ops generalizing o b with
  | nil => rfl
  | cons op ops ih =>
    obtain ⟨hresult, hmirrors⟩ := r.step op
    rw [BusOperation.results, BusOperation.results, hresult, ih hmirrors]

end Mirrors

/-- Whatever is done with a bus, by however many subscribers, the results are those of a bus where
every subscriber has a queue of its own. So every subscriber gets a part of the messages that are
sent on its channel while it observes it, in the order sent: none twice, none from before, and
none across a clearing. -/
theorem bus_refines_mailboxes (capacity : Nat) (ops : List BusOperation) :
    BusOperation.results Observed.step (.ofCapacity capacity) ops =
      BusOperation.results Mailboxes.step (.ofCapacity capacity) ops ∧
    ∀ subscriber,
      (BusOperation.receivedBy subscriber ops
        (BusOperation.results Observed.step (.ofCapacity capacity) ops)).Sublist
      (BusOperation.offered subscriber subscriber ops) := by
  have hresults := (Mirrors.ofCapacity capacity).results_eq ops
  refine ⟨hresults, fun subscriber => ?_⟩
  rw [hresults]
  exact Mailboxes.received_sublist ops nofun (Nat.zero_add subscriber)

end StepFlow
