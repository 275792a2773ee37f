import Mathlib.Algebra.Order.Ring.Nat
import Mathlib.Data.List.Basic
import Mathlib.Data.Nat.Log
import StepFlow.Bus

/-!
# What a ring has for its readers

A ring keeps the values sent last, and a reader is only a number; together they stand for a queue,
the values that the reader will get if nothing more is sent (`Broadcast.pending`). Sending adds to
the queue of every reader and drops the oldest value of one that has no room left, reading takes the
oldest value away, and what one reader does changes the queue of no other.
-/

namespace StepFlow

namespace Broadcast

variable {α : Type} {c : Broadcast α} {reader next : Nat}

/-- What reading and sending rely on and keep: there is room, as many values are kept as were sent
and fit in, and no reader is ahead of what was sent. -/
structure Valid (c : Broadcast α) : Prop where
  room_pos : 0 < c.room
  length_kept : c.kept.length = min c.room c.sent
  next_le : ∀ entry ∈ c.readers, entry.2 ≤ c.sent

/-- The values for a reader who reads a number next, the oldest first. -/
def pending (c : Broadcast α) (next : Nat) : List α := (c.kept.take (c.sent - next)).reverse

/-- A queue with another value behind it; the oldest values go when there is no room. -/
def enqueue (room : Nat) (queue : List α) (a : α) : List α :=
  (queue ++ [a]).drop (queue.length + 1 - room)

theorem map_enqueue {β : Type} (f : α → β) (room : Nat) (queue : List α) (a : α) :
    (enqueue room queue a).map f = enqueue room (queue.map f) (f a) := by
  simp [enqueue, List.map_drop]

theorem roomFor_eq (capacity : Nat) : roomFor capacity = 2 ^ Nat.clog 2 (max 1 capacity) := by
  unfold roomFor
  split
  · next h =>
    rw [Nat.max_eq_left h]
    rfl
  · next h =>
    have least : (capacity - 1).log2 < Nat.clog 2 capacity := by
      have := Nat.log2_self_le (n := capacity - 1) (by omega)
      exact (Nat.lt_clog_iff_pow_lt (by decide)).2 (by omega)
    have enough : Nat.clog 2 capacity ≤ (capacity - 1).log2 + 1 := by
      have := Nat.lt_log2_self (n := capacity - 1)
      exact (Nat.clog_le_iff_le_pow (by decide)).2 (by omega)
    rw [Nat.max_eq_right (by omega), Nat.one_shiftLeft, Nat.le_antisymm enough least]

theorem roomFor_pos (capacity : Nat) : 0 < roomFor capacity := by
  rw [roomFor_eq]
  exact Nat.two_pow_pos _

theorem valid_ofCapacity (capacity : Nat) : (ofCapacity capacity : Broadcast α).Valid where
  room_pos := roomFor_pos capacity
  length_kept := (Nat.min_zero _).symm
  next_le := nofun

/-! ## Readers come, go and move -/

@[simp] theorem pending_sent : c.pending c.sent = [] := by
  simp [pending]

theorem Valid.subscribe (h : c.Valid) : (c.subscribe reader).Valid where
  room_pos := h.room_pos
  length_kept := h.length_kept
  next_le := List.forall_mem_cons.2 ⟨Nat.le_refl _, h.next_le⟩

theorem Valid.unsubscribe (h : c.Valid) : (c.unsubscribe reader).Valid where
  room_pos := h.room_pos
  length_kept := h.length_kept
  next_le entry hmem := h.next_le entry (List.mem_of_mem_filter hmem)

theorem Valid.moveTo (h : c.Valid) (hle : next ≤ c.sent) : (c.moveTo reader next).Valid where
  room_pos := h.room_pos
  length_kept := h.length_kept
  next_le entry hmem := by
    obtain ⟨old, hold, rfl⟩ := List.mem_map.1 hmem
    split
    · exact hle
    · exact h.next_le old hold

theorem moveTo_moveTo (next' : Nat) :
    (c.moveTo reader next).moveTo reader next' = c.moveTo reader next' := by
  simp only [moveTo, List.map_map]
  congr 1
  refine List.map_congr_left fun entry _ => ?_
  by_cases h : entry.1 = reader <;> simp [h]

/-! ## Sending -/

@[simp] theorem readers_send (a : α) : (c.send a).readers = c.readers := by
  unfold Broadcast.send
  split <;> rfl

@[simp] theorem room_send (a : α) : (c.send a).room = c.room := by
  unfold Broadcast.send
  split <;> rfl

theorem mem_kept_send {a a' : α} (h : a' ∈ (c.send a).kept) : a' = a ∨ a' ∈ c.kept := by
  unfold Broadcast.send at h
  split at h
  · exact .inr h
  · exact List.mem_cons.1 (List.mem_of_mem_take h)

theorem Valid.send (h : c.Valid) (a : α) : (c.send a).Valid := by
  unfold Broadcast.send
  split
  · exact h
  · exact
      { room_pos := h.room_pos
        length_kept := by
          have := h.length_kept
          simp only [List.length_take, List.length_cons]
          omega
        next_le := fun entry hmem => Nat.le_succ_of_le (h.next_le entry hmem) }

/-- What is sent goes behind everything that a reader has not read yet. -/
theorem pending_send (hreaders : c.readers ≠ []) (hnext : next ≤ c.sent) (a : α) :
    (c.send a).pending next = enqueue c.room (c.pending next) a := by
  have hsend : c.send a = { c with sent := c.sent + 1, kept := (a :: c.kept).take c.room } := by
    rw [Broadcast.send, if_neg (by simpa using hreaders)]
  have hreverse : (c.pending next ++ [a]).reverse = (a :: c.kept).take (c.sent - next + 1) := by
    simp [pending]
  have hlength : (c.pending next).length + 1 = (c.pending next ++ [a]).reverse.length := by simp
  rw [enqueue, hlength, List.length_reverse, hsend, ← List.reverse_reverse (List.drop _ _),
    ← List.take_reverse, hreverse]
  simp only [pending, List.take_take]
  rw [show c.sent + 1 - next = c.sent - next + 1 by omega, Nat.min_comm]

/-! ## Receiving -/

theorem receive_of_pending_nil (h : c.Valid) (hreader : c.readers.lookup reader = some next)
    (hnext : next ≤ c.sent) (hp : c.pending next = []) : c.receive reader = (.nothing, c) := by
  have hlength : min (c.sent - next) (min c.room c.sent) = 0 := by
    rw [← h.length_kept, ← List.length_take, ← List.length_reverse]
    exact congrArg List.length hp
  have hroom := h.room_pos
  have hall : next = c.sent := by omega
  subst hall
  simp only [receive, hreader]
  rw [if_neg (by omega)]
  split
  · rw [if_neg (Nat.lt_irrefl _)]
  · rfl

/-- Reading when there is something: either the reader learns that it has fallen behind, which takes
nothing away from its queue, or it gets the oldest value of it. -/
theorem receive_of_pending_cons {a : α} {rest : List α} (h : c.Valid)
    (hreader : c.readers.lookup reader = some next) (hp : c.pending next = a :: rest) :
    (∃ count next', c.receive reader = (.lost count, c.moveTo reader next') ∧ next' ≤ c.sent ∧
      c.pending next' = a :: rest) ∨
    (c.receive reader = (.value a, c.moveTo reader (next + 1)) ∧ next + 1 ≤ c.sent ∧
      c.pending (next + 1) = rest) := by
  have hkept := h.length_kept
  simp only [receive, hreader]
  by_cases hlost : next + c.room < c.sent
  · rw [if_pos hlost]
    refine .inl ⟨_, _, rfl, Nat.sub_le _ _, ?_⟩
    rw [← hp, pending, pending, List.take_of_length_le (by omega),
      List.take_of_length_le (by omega)]
  · rw [if_neg hlost]
    have hnext : next < c.sent := by
      refine Nat.lt_of_not_le fun hle => ?_
      rw [pending, Nat.sub_eq_zero_of_le hle] at hp
      cases hp
    have hindex : c.sent - 1 - next < c.kept.length := by omega
    rw [pending, show c.sent - next = c.sent - 1 - next + 1 by omega,
      List.take_succ_eq_append_getElem hindex, List.reverse_concat] at hp
    rw [List.getElem?_eq_getElem hindex]
    cases hp
    refine .inr ⟨if_pos hnext, hnext, ?_⟩
    rw [pending, show c.sent - (next + 1) = c.sent - 1 - next by omega]

theorem kept_of_receive {c' : Broadcast α} {r : Received α} (h : c.receive reader = (r, c')) :
    c'.kept = c.kept := by
  have hkept : (c.receive reader).2.kept = c.kept := by
    unfold receive
    repeat' split
    all_goals rfl
  rwa [h] at hkept

theorem mem_kept_of_receive {c' : Broadcast α} {a : α} (h : c.receive reader = (.value a, c')) :
    a ∈ c.kept := by
  unfold receive at h
  split at h
  · cases h
  · split at h
    · cases h
    · split at h
      · next hget =>
        split at h
        · cases h
          exact List.mem_of_getElem? hget
        · cases h
      · cases h

end Broadcast

namespace Bus

open Broadcast

variable {c : Broadcast Envelope} {epoch reader next : Nat}

theorem readCurrent_of_pending_nil (h : c.Valid) (hreader : c.readers.lookup reader = some next)
    (hnext : next ≤ c.sent) (hp : c.pending next = []) :
    readCurrent epoch reader c = (none, c) := by
  unfold readCurrent
  rw [receive_of_pending_nil h hreader hnext hp]

/-- On a ring of the present epoch, the next message is the oldest one of the queue. -/
theorem readCurrent_of_pending_cons (h : c.Valid) (hcurrent : ∀ e ∈ c.kept, e.epoch = epoch)
    (hreader : c.readers.lookup reader = some next) {e : Envelope} {rest : List Envelope}
    (hp : c.pending next = e :: rest) :
    ∃ next', readCurrent epoch reader c = (some e.message, c.moveTo reader next') ∧
      next' ≤ c.sent ∧ c.pending next' = rest := by
  fun_induction readCurrent epoch reader c generalizing next with
  | case1 c c' hr =>
    obtain ⟨_, _, hlost, -, -⟩ | ⟨hvalue, -, -⟩ := receive_of_pending_cons h hreader hp
    · cases hlost.symm.trans hr
    · cases hvalue.symm.trans hr
  | case2 c count c' hr ih =>
    obtain ⟨_, next₁, hlost, hle, hp₁⟩ | ⟨hvalue, -, -⟩ := receive_of_pending_cons h hreader hp
    · cases hlost.symm.trans hr
      have hreader₁ : (c.moveTo reader next₁).readers.lookup reader = some next₁ := by
        rw [lookup_moveTo, hreader, Option.map_some]
      obtain ⟨next', hread, hle', hp'⟩ := ih (h.moveTo hle) hcurrent hreader₁ hp₁
      exact ⟨next', by rw [hread, moveTo_moveTo], hle', hp'⟩
    · cases hvalue.symm.trans hr
  | case3 c e' c' hr =>
    obtain ⟨_, _, hlost, -, -⟩ | ⟨hvalue, hle, hrest⟩ := receive_of_pending_cons h hreader hp
    · cases hlost.symm.trans hr
    · cases hvalue.symm.trans hr
      exact ⟨next + 1, rfl, hle, hrest⟩
  | case4 c e' c' hr hother ih =>
    exact absurd (hcurrent e' (mem_kept_of_receive hr)) hother

/-- On a ring of other epochs there is no message any more. -/
theorem readCurrent_stale (reader : Nat) (hstale : ∀ e ∈ c.kept, e.epoch ≠ epoch) :
    (readCurrent epoch reader c).1 = none ∧ (readCurrent epoch reader c).2.kept = c.kept := by
  fun_induction readCurrent epoch reader c with
  | case1 c c' hr => exact ⟨rfl, kept_of_receive hr⟩
  | case2 c count c' hr ih =>
    have hkept := kept_of_receive hr
    rw [← hkept] at hstale ⊢
    exact ih hstale
  | case3 c e c' hr hepoch => exact absurd hepoch (hstale e (mem_kept_of_receive hr))
  | case4 c e c' hr hother ih =>
    have hkept := kept_of_receive hr
    rw [← hkept] at hstale ⊢
    exact ih hstale

end Bus

end StepFlow
