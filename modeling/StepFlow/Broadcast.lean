/-!
# Broadcast channels with bounded room

Everything sent on a channel goes to all who read it at that time. The channel keeps only the values
that were sent last, as many as it has room for, and a reader is no more than the number of the
value it has to read next. A reader that falls behind is told how many values it has lost and goes
on with the oldest one kept. What is sent while nobody reads is not kept at all.
-/

namespace StepFlow

structure Broadcast (α : Type) where
  /-- How many values are kept. -/
  room : Nat
  /-- How many values were ever sent to a reader. -/
  sent : Nat
  /-- The values sent last, the newest first. -/
  kept : List α
  /-- Each reader with the number of the value it reads next. -/
  readers : List (Nat × Nat)

inductive Received (α : Type) where
  | value (a : α)
  /-- So many values were lost since the last time. -/
  | lost (count : Nat)
  | nothing
deriving DecidableEq, Repr

namespace Broadcast

variable {α : Type}

/-- The room of a channel for a wanted capacity: the least power of two that is not smaller, one for
a capacity of zero. -/
def roomFor (capacity : Nat) : Nat :=
  if capacity ≤ 1 then 1 else 1 <<< ((capacity - 1).log2 + 1)

def ofCapacity (capacity : Nat) : Broadcast α := ⟨roomFor capacity, 0, [], []⟩

def readerCount (c : Broadcast α) : Nat := c.readers.length

def hasReader (c : Broadcast α) (reader : Nat) : Bool := (c.readers.lookup reader).isSome

/-- Adds a reader, who gets what is sent from now on. -/
def subscribe (c : Broadcast α) (reader : Nat) : Broadcast α :=
  { c with readers := (reader, c.sent) :: c.readers }

def unsubscribe (c : Broadcast α) (reader : Nat) : Broadcast α :=
  { c with readers := c.readers.filter fun entry => entry.1 ≠ reader }

def send (c : Broadcast α) (a : α) : Broadcast α :=
  if c.readers.isEmpty then c
  else { c with sent := c.sent + 1, kept := (a :: c.kept).take c.room }

def moveTo (c : Broadcast α) (reader next : Nat) : Broadcast α :=
  { c with readers := c.readers.map fun entry =>
    if entry.1 = reader then (reader, next) else entry }

def receive (c : Broadcast α) (reader : Nat) : Received α × Broadcast α :=
  match c.readers.lookup reader with
  | none => (.nothing, c)
  | some next =>
    if next + c.room < c.sent then
      (.lost (c.sent - c.room - next), c.moveTo reader (c.sent - c.room))
    else
      match c.kept[c.sent - 1 - next]? with
      | some a => if next < c.sent then (.value a, c.moveTo reader (next + 1)) else (.nothing, c)
      | none => (.nothing, c)

/-- How many of the values ever sent a reader has not come to. -/
def behind (c : Broadcast α) (reader : Nat) : Nat :=
  match c.readers.lookup reader with
  | none => 0
  | some next => c.sent - next

theorem lookup_moveTo (c : Broadcast α) (reader next : Nat) :
    (c.moveTo reader next).readers.lookup reader = (c.readers.lookup reader).map fun _ => next := by
  show (c.readers.map _).lookup reader = _
  induction c.readers with
  | nil => rfl
  | cons entry rest ih =>
    obtain ⟨other, number⟩ := entry
    by_cases h : other = reader
    · simp [h]
    · have h' : (reader == other) = false := beq_eq_false_iff_ne.2 (Ne.symm h)
      simp only [List.map_cons, if_neg h, List.lookup_cons, h', ih]

theorem behind_moveTo {c : Broadcast α} {reader next : Nat}
    (h : c.readers.lookup reader = some next)
    (next' : Nat) : (c.moveTo reader next').behind reader = c.sent - next' := by
  simp only [behind, lookup_moveTo, h, Option.map_some]
  rfl

/-- Whoever reads something comes closer to the value that was sent last. -/
theorem behind_receive_lt {c c' : Broadcast α} {reader : Nat} {r : Received α}
    (h : c.receive reader = (r, c')) (hr : r ≠ .nothing) : c'.behind reader < c.behind reader := by
  cases hn : c.readers.lookup reader with
  | none =>
    rw [receive, hn] at h
    cases h
    exact absurd rfl hr
  | some next =>
    have here : c.behind reader = c.sent - next := by rw [behind, hn]
    simp only [receive, hn] at h
    split at h
    · cases h
      rw [behind_moveTo hn]
      omega
    · split at h
      · split at h
        · cases h
          rw [behind_moveTo hn]
          omega
        · cases h
          exact absurd rfl hr
      · cases h
        exact absurd rfl hr

end Broadcast

end StepFlow
