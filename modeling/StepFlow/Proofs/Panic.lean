/-!
# Computations that could panic

Some operations end a program on the spot when they are used wrongly: taking an item or a slice that
is not there, dividing integers by zero or beyond their range, getting into a branch that should
never be taken, or calling too deeply. A computation that uses them returns a result, fails with an
error, or panics. `Risky.sure` puts computations that do not panic among these, so that to show of a
computation that it never panics, and what it comes to, is to show that it is sure.
-/

namespace StepFlow

/-- How an operation that is used wrongly ends a program. -/
inductive Panic where
  /-- An item of a list, at or beyond its end. -/
  | item (index length : Nat)
  /-- A part of a text that is out of order or range, or cuts through a character. -/
  | slice (start stop : Nat)
  | divisionByZero
  /-- An integer that its type does not hold. -/
  | overflow
  | unreachable
  /-- A call that is nested too deeply. -/
  | depth
deriving DecidableEq, Repr

/-- A computation that returns, fails or panics. -/
abbrev Risky (ε : Type) : Type → Type := ExceptT ε (Except Panic)

namespace Risky

variable {ε α β : Type}

def panic (p : Panic) : Risky ε α := ExceptT.mk (.error p)

/-- Returns or fails, but does not panic. -/
def sure (x : Except ε α) : Risky ε α := ExceptT.mk (.ok x)

theorem pure_eq_sure (a : α) : (pure a : Risky ε α) = sure (.ok a) := rfl

theorem throw_eq_sure (e : ε) : (throw e : Risky ε α) = sure (.error e) := rfl

@[simp] theorem sure_ok_bind (a : α) (f : α → Risky ε β) : (sure (.ok a) >>= f) = f a := rfl

@[simp] theorem sure_error_bind (e : ε) (f : α → Risky ε β) :
    (sure (.error e) >>= f) = sure (.error e) :=
  rfl

/-- What is done with a result for sure can be done before. -/
theorem sure_bind {x : Except ε α} {f : α → Risky ε β} {g : α → Except ε β}
    (h : ∀ a, x = .ok a → f a = sure (g a)) : (sure x >>= f) = sure (x >>= g) := by
  cases x with
  | error e => rfl
  | ok a => exact h a rfl

/-! ## Operations that can panic -/

/-- An item of a list. -/
def item (items : List α) (index : Nat) : Risky ε α :=
  match items[index]? with
  | some a => pure a
  | none => panic (.item index items.length)

/-- The part of a text between two offsets, counted in bytes. -/
def slice (s : String) (start stop : Nat) : Risky ε String :=
  if h : (String.Pos.Raw.mk start).IsValid s ∧ (String.Pos.Raw.mk stop).IsValid s ∧
    start ≤ stop then
    pure (String.extract (s.pos _ h.1) (s.pos _ h.2.1))
  else panic (.slice start stop)

/-- A part of a text between two others can be taken. -/
theorem slice_append {s a b c : String} (split : s = a ++ (b ++ c)) :
    slice s a.utf8ByteSize (a.utf8ByteSize + b.utf8ByteSize) = (sure (.ok b) : Risky ε String) := by
  have start : (String.Pos.Raw.mk a.utf8ByteSize).IsValid s :=
    String.Pos.Raw.isValid_iff_exists_append.2 ⟨a, b ++ c, split, rfl⟩
  have stop : (String.Pos.Raw.mk (a.utf8ByteSize + b.utf8ByteSize)).IsValid s := by
    refine String.Pos.Raw.isValid_iff_exists_append.2 ⟨a ++ b, c, ?_, ?_⟩
    · rw [split, String.append_assoc]
    · rw [String.Pos.Raw.ext_iff, String.byteIdx_rawEndPos, String.utf8ByteSize_append]
  have bytes : s.toByteArray.extract a.utf8ByteSize (a.utf8ByteSize + b.utf8ByteSize) =
      b.toByteArray := by
    rw [split, String.toByteArray_append, String.toByteArray_append, ← String.size_toByteArray,
      ← String.size_toByteArray]
    have behind := ByteArray.extract_append_size_add (a := a.toByteArray)
      (b := b.toByteArray ++ c.toByteArray) (i := 0) (j := b.toByteArray.size)
    rw [Nat.add_zero] at behind
    rw [behind, ByteArray.extract_append_eq_left rfl]
  have part : String.extract (s.pos _ start) (s.pos _ stop) = b := String.toByteArray_inj.1 bytes
  rw [slice, dif_pos ⟨start, stop, Nat.le_add_right ..⟩, pure_eq_sure, part]

end Risky

end StepFlow
