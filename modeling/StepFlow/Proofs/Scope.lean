import StepFlow.Proofs.Object
import StepFlow.Scope

/-!
# What variables of a scope stand for

A scope that is extended answers for the new variables itself, the later of two bindings of one
name, and for every other variable as it did before. A frame inside it that binds the same
variables answers alike.
-/

namespace StepFlow.Scope

variable {σ : Type}

theorem lookup_extend (s : Scope σ) (bound : List (String × Value)) (world : σ) (key : String) :
    (s.extend bound).lookup world key =
      (Object.get? (Object.ofList bound) key).or (s.lookup world key) := by
  have own :
      ({ s.inner with bound := Object.insertAll s.inner.bound bound } : Frame σ).lookup world key =
      (Object.get? (Object.ofList bound) key).or (s.inner.lookup world key) := by
    rw [Frame.lookup, Frame.lookup, Object.get?_insertAll]
    cases Object.get? (Object.ofList bound) key <;> rfl
  rw [lookup, lookup, frames, frames, extend, lookupIn, lookupIn, own]
  cases Object.get? (Object.ofList bound) key <;> rfl

/-- A single frame without bindings says what its source says. -/
theorem lookup_withSource_root (name : String) (source : σ → String → Option Value) (world : σ)
    (key : String) : ((root name).withSource source).lookup world key = source world key := by
  have frame : ((root name).withSource source).inner.lookup world key = source world key := rfl
  rw [lookup, frames, lookupIn, frame]
  cases source world key <;> rfl

/-- Binding no variable of a name leaves what the name stands for. -/
theorem lookup_extend_of_notMem (s : Scope σ) {bound : List (String × Value)}
    {key : String} (world : σ)
    (h : key ∉ bound.map Prod.fst) : (s.extend bound).lookup world key = s.lookup world key := by
  rw [lookup_extend, Object.get?_ofList_eq_none.2 h, Option.none_or]

/-- The last value given for a variable counts, and without one the scope answers as it did. -/
theorem lookup_extend_eq_last (s : Scope σ) (bound : List (String × Value)) (world : σ)
    (key : String) :
    (s.extend bound).lookup world key =
      ((bound.reverse.find? fun entry => entry.1 = key).map Prod.snd).or (s.lookup world key) := by
  rw [lookup_extend, Object.get?_ofList]

/-- A frame without bindings leaves every variable to the frames around it. -/
theorem lookup_child (s : Scope σ) (name : String) (world : σ) (key : String) :
    (s.child name).lookup world key = s.lookup world key := rfl

/-- Bindings over those of a frame and bindings in a frame inside it stand for the same. -/
theorem lookup_extend_child (s : Scope σ) (name : String)
    (bound : List (String × Value)) (world : σ) (key : String) :
    ((s.child name).extend bound).lookup world key = (s.extend bound).lookup world key := by
  rw [lookup_extend, lookup_extend, lookup_child]

end StepFlow.Scope
