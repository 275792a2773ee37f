import StepFlow.Task

/-!
# Tasks that agree

Before any time passes a task comes to its end or to a wait. Two tasks agree, each from a
world of its own, if they come to the same and go on like that: they wait for the same times,
and at each of these moments and at the end their worlds are related, and in the end their
results are too. How a task gets from one wait to the next does not matter, so that what it
does at once may be put otherwise.

A time limit cannot tell apart tasks that agree.
-/

namespace StepFlow.Task

variable {σ α β γ δ : Type}

theorem bind_done (t : Task σ α) : t.bind .done = t := by
  induction t with
  | done a => rfl
  | look next ih => exact congrArg Task.look (funext ih)
  | update change next ih => exact congrArg (Task.update change) ih
  | wait ms next ih => exact congrArg (Task.wait ms) ih

theorem bind_assoc (t : Task σ α) (f : α → Task σ β) (g : β → Task σ γ) :
    (t.bind f).bind g = t.bind fun a => (f a).bind g := by
  induction t with
  | done a => rfl
  | look next ih => exact congrArg Task.look (funext ih)
  | update change next ih => exact congrArg (Task.update change) ih
  | wait ms next ih => exact congrArg (Task.wait ms) ih

instance : LawfulMonad (Task σ) :=
  LawfulMonad.mk' (Task σ) bind_done (fun _ _ => rfl) bind_assoc

/-- Where a task comes to before any time passes. -/
inductive Stop (σ α : Type) : Type where
  | ended (result : α) (world : σ)
  | waits (ms : Nat) (next : Task σ α) (world : σ)

/-- Runs a task until it ends or waits. -/
def settle : Task σ α → σ → Stop σ α
  | .done a, s => .ended a s
  | .look next, s => settle (next s) s
  | .update change next, s => settle next (change s)
  | .wait ms next, s => .waits ms next s

@[simp] theorem settle_pure (a : α) (s : σ) : (pure a : Task σ α).settle s = .ended a s := rfl

@[simp] theorem settle_read (f : σ → α) (s : σ) : (read f).settle s = .ended (f s) s := rfl

@[simp] theorem settle_modify (change : σ → σ) (s : σ) :
    (modify change).settle s = .ended () (change s) := rfl

@[simp] theorem settle_modifyGet (change : σ → α × σ) (s : σ) :
    (modifyGet change).settle s = .ended (change s).1 (change s).2 := rfl

theorem settle_bind (t : Task σ α) (f : α → Task σ β) (s : σ) :
    (t.bind f).settle s =
      match t.settle s with
      | .ended a u => (f a).settle u
      | .waits ms next u => .waits ms (next.bind f) u := by
  induction t generalizing s with
  | done a => rfl
  | look next ih => exact ih s s
  | update change next ih => exact ih (change s)
  | wait ms next => rfl

theorem settle_bind_of_ended {t : Task σ α} {f : α → Task σ β} {s u : σ} {a : α}
    (h : t.settle s = .ended a u) : (t.bind f).settle s = (f a).settle u := by
  rw [settle_bind, h]

theorem settle_bind_of_waits {t next : Task σ α} {f : α → Task σ β} {s u : σ} {ms : Nat}
    (h : t.settle s = .waits ms next u) : (t.bind f).settle s = .waits ms (next.bind f) u := by
  rw [settle_bind, h]

theorem settle_limit (limit : Nat) (t : Task σ α) (s : σ) :
    (t.limit limit).settle s =
      match t.settle s with
      | .ended a u => .ended (some a) u
      | .waits ms next u =>
        if ms ≤ limit then .waits ms (next.limit (limit - ms)) u
        else .waits limit (.done none) u := by
  induction t generalizing s with
  | done a => rfl
  | look next ih => exact ih s s
  | update change next ih => exact ih (change s)
  | wait ms next =>
    rw [Task.limit]
    split <;> simp [settle, *]

theorem run_of_settle (pass : Nat → σ → σ) (t : Task σ α) (s : σ) :
    t.run pass s =
      match t.settle s with
      | .ended a u => (a, u)
      | .waits ms next u => next.run pass (pass ms u) := by
  induction t generalizing s with
  | done a => rfl
  | look next ih => exact ih s s
  | update change next ih => exact ih (change s)
  | wait ms next => rfl

/-! ## Agreement -/

section Agrees

variable (pass : Nat → σ → σ) (R : σ → σ → Prop) (Q : α → β → Prop)

/-- Two tasks agree, with their worlds related by `R` each time that they wait and when they end,
and their results by `Q`. -/
inductive Agrees : Task σ α → σ → Task σ β → σ → Prop
  | ended {t s t' s' a b u u'} (left : t.settle s = .ended a u) (right : t'.settle s' = .ended b u')
    (worlds : R u u') (results : Q a b) : Agrees t s t' s'
  | waits {t s t' s' ms next next' u u'} (left : t.settle s = .waits ms next u)
    (right : t'.settle s' = .waits ms next' u') (worlds : R u u')
    (rest : Agrees next (pass ms u) next' (pass ms u')) : Agrees t s t' s'

end Agrees

namespace Agrees

variable {pass : Nat → σ → σ} {R : σ → σ → Prop} {Q Q' : α → β → Prop} {P : γ → δ → Prop}
variable {t t₁ : Task σ α} {t' t₁' : Task σ β} {s s₁ s' s₁' : σ}

/-- What a task does before it waits or ends may be put otherwise. -/
theorem congr (h : Agrees pass R Q t s t' s') (left : t₁.settle s₁ = t.settle s)
    (right : t₁'.settle s₁' = t'.settle s') : Agrees pass R Q t₁ s₁ t₁' s₁' := by
  cases h with
  | ended hleft hright worlds results =>
    exact .ended (left.trans hleft) (right.trans hright) worlds results
  | waits hleft hright worlds rest =>
    exact .waits (left.trans hleft) (right.trans hright) worlds rest

theorem pure {a : α} {b : β} (worlds : R s s') (results : Q a b) :
    Agrees pass R Q (.done a) s (.done b) s' :=
  .ended rfl rfl worlds results

theorem mono (h : Agrees pass R Q t s t' s') (hQ : ∀ a b, Q a b → Q' a b) :
    Agrees pass R Q' t s t' s' := by
  induction h with
  | ended left right worlds results => exact .ended left right worlds (hQ _ _ results)
  | waits left right worlds rest ih => exact .waits left right worlds ih

/-- A task agrees with itself. -/
theorem refl (t : Task σ α) (s : σ) : Agrees pass Eq Eq t s t s := by
  induction t generalizing s with
  | done a => exact .ended rfl rfl rfl rfl
  | look next ih => exact (ih s s).congr rfl rfl
  | update change next ih => exact (ih (change s)).congr rfl rfl
  | wait ms next ih => exact .waits rfl rfl rfl (ih (pass ms s))

theorem bind {f : α → Task σ γ} {g : β → Task σ δ} (h : Agrees pass R Q t s t' s')
    (hf : ∀ a b u u', R u u' → Q a b → Agrees pass R P (f a) u (g b) u') :
    Agrees pass R P (t.bind f) s (t'.bind g) s' := by
  induction h with
  | ended left right worlds results =>
    exact (hf _ _ _ _ worlds results).congr (settle_bind_of_ended left) (settle_bind_of_ended right)
  | waits left right worlds rest ih =>
    exact .waits (settle_bind_of_waits left) (settle_bind_of_waits right) worlds ih

/-- What follows need only agree from what the tasks come to when they are run. -/
theorem bindRun {f : α → Task σ γ} {g : β → Task σ δ} (h : Agrees pass R Q t s t' s')
    (hf : Agrees pass R P (f (t.run pass s).1) (t.run pass s).2 (g (t'.run pass s').1)
      (t'.run pass s').2) : Agrees pass R P (t.bind f) s (t'.bind g) s' := by
  induction h with
  | ended left right worlds results =>
    rw [run_of_settle, run_of_settle, left, right] at hf
    exact hf.congr (settle_bind_of_ended left) (settle_bind_of_ended right)
  | waits left right worlds rest ih =>
    rw [run_of_settle, run_of_settle, left, right] at hf
    exact .waits (settle_bind_of_waits left) (settle_bind_of_waits right) worlds (ih hf)

/-- What ends at once can be passed over. -/
theorem after {f : α → Task σ γ} {g : β → Task σ δ} {a : α} {b : β} {u u' : σ}
    (left : t.settle s = .ended a u) (right : t'.settle s' = .ended b u')
    (h : Agrees pass R P (f a) u (g b) u') : Agrees pass R P (t.bind f) s (t'.bind g) s' :=
  h.congr (settle_bind_of_ended left) (settle_bind_of_ended right)

theorem mapResult {f : α → γ} {g : β → δ} (h : Agrees pass R Q t s t' s')
    (hP : ∀ a b, Q a b → P (f a) (g b)) :
    Agrees pass R P (t.mapResult f) s (t'.mapResult g) s' :=
  h.bind fun a b _ _ worlds results => .pure worlds (hP a b results)

theorem mapLeft {f : α → γ} {P : γ → β → Prop} (h : Agrees pass R Q t s t' s')
    (hP : ∀ a b, Q a b → P (f a) b) : Agrees pass R P (t.mapResult f) s t' s' := by
  have hboth : Agrees pass R P (t.mapResult f) s (t'.bind .done) s' :=
    h.bind fun a b _ _ worlds results => .pure worlds (hP a b results)
  rwa [bind_done] at hboth

/-- A time limit cuts both tasks off at the same moment, or neither. -/
theorem limit (hpass : ∀ ms u u', R u u' → R (pass ms u) (pass ms u'))
    (h : Agrees pass R Q t s t' s') (ms : Nat) :
    Agrees pass R (Option.Rel Q) (t.limit ms) s (t'.limit ms) s' := by
  induction h generalizing ms with
  | ended left right worlds results =>
    refine .ended ?_ ?_ worlds (.some results)
    · rw [settle_limit, left]
    · rw [settle_limit, right]
  | @waits t s t' s' span next next' u u' left right worlds rest ih =>
    by_cases hspan : span ≤ ms
    · refine .waits ?_ ?_ worlds (ih (ms - span))
      · simp only [settle_limit, left, if_pos hspan]
      · simp only [settle_limit, right, if_pos hspan]
    · have left' : (t.limit ms).settle s = .waits ms (.done none) u := by
        simp only [settle_limit, left, if_neg hspan]
      have right' : (t'.limit ms).settle s' = .waits ms (.done none) u' := by
        simp only [settle_limit, right, if_neg hspan]
      exact .waits left' right' worlds (.pure (hpass ms _ _ worlds) .none)

theorem run (h : Agrees pass R Q t s t' s') :
    Q (t.run pass s).1 (t'.run pass s').1 ∧ R (t.run pass s).2 (t'.run pass s').2 := by
  induction h with
  | ended left right worlds results =>
    rw [run_of_settle, run_of_settle, left, right]
    exact ⟨results, worlds⟩
  | waits left right worlds rest ih =>
    rw [run_of_settle, run_of_settle, left, right]
    exact ih

end Agrees

end StepFlow.Task
