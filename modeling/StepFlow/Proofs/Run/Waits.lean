import StepFlow.Task

/-!
# What holds while a task waits

A task that is cut off is left where it waits, so what is known of the worlds in which a task waits
is known of every world in which it can be left. `AtWaits` says that a property holds in all of
them; the world in which a task ends by itself is not among them and is spoken of through `run`.
-/

namespace StepFlow.Task

variable {σ α β : Type} {P Q : σ → Prop} {pass : Nat → σ → σ}

/-- A property holds each time that a task comes to wait. -/
def AtWaits (pass : Nat → σ → σ) (P : σ → Prop) : Task σ α → σ → Prop
  | .done _, _ => True
  | .look next, s => AtWaits pass P (next s) s
  | .update change next, s => AtWaits pass P next (change s)
  | .wait ms next, s => P s ∧ AtWaits pass P next (pass ms s)

@[simp] theorem atWaits_sleep {ms : Nat} {s : σ} : (sleep ms).AtWaits pass P s ↔ P s :=
  ⟨fun h => h.1, fun h => ⟨h, trivial⟩⟩

/-- A sequence waits where its first part does, and then where its second part does in the world
that the first one leaves. -/
theorem atWaits_bind {t : Task σ α} {f : α → Task σ β} {s : σ} :
    (t.bind f).AtWaits pass P s ↔
      t.AtWaits pass P s ∧ (f (t.run pass s).1).AtWaits pass P (t.run pass s).2 := by
  induction t generalizing s with
  | done a =>
    constructor
    · intro h
      exact ⟨trivial, h⟩
    · rintro ⟨-, h⟩
      exact h
  | look next ih => exact ih s
  | update change next ih => exact ih
  | wait ms next ih =>
    constructor
    · rintro ⟨hs, h⟩
      obtain ⟨hnext, hf⟩ := ih.1 h
      exact ⟨⟨hs, hnext⟩, hf⟩
    · rintro ⟨⟨hs, hnext⟩, hf⟩
      exact ⟨hs, ih.2 ⟨hnext, hf⟩⟩

@[simp] theorem atWaits_mapResult {f : α → β} {t : Task σ α} {s : σ} :
    (t.mapResult f).AtWaits pass P s ↔ t.AtWaits pass P s := by
  constructor
  · intro h
    exact (atWaits_bind.1 h).1
  · intro h
    exact atWaits_bind.2 ⟨h, trivial⟩

theorem AtWaits.mono {t : Task σ α} {s : σ} (h : t.AtWaits pass P s) (hPQ : ∀ s, P s → Q s) :
    t.AtWaits pass Q s := by
  induction t generalizing s with
  | done a => trivial
  | look next ih => exact ih s h
  | update change next ih => exact ih h
  | wait ms next ih => exact ⟨hPQ s h.1, ih h.2⟩

theorem atWaits_true (t : Task σ α) (s : σ) : t.AtWaits pass (fun _ => True) s := by
  induction t generalizing s with
  | done a => trivial
  | look next ih => exact ih s s
  | update change next ih => exact ih (change s)
  | wait ms next ih => exact ⟨trivial, ih (pass ms s)⟩

/-- A time limit adds no place to wait. -/
theorem AtWaits.limit {t : Task σ α} {s : σ} (h : t.AtWaits pass P s) (ms : Nat) :
    (t.limit ms).AtWaits pass P s := by
  induction t generalizing s ms with
  | done a => trivial
  | look next ih => exact ih s h ms
  | update change next ih => exact ih h ms
  | wait span next ih =>
    unfold Task.limit
    split
    · exact ⟨h.1, ih h.2 (ms - span)⟩
    · exact ⟨h.1, trivial⟩

/-- Within a time limit a task comes to its own end, or is left some time after it came to wait. -/
theorem AtWaits.run_limit {t : Task σ α} {s : σ} (h : t.AtWaits pass P s) (ms : Nat) :
    (t.limit ms).run pass s = (some (t.run pass s).1, (t.run pass s).2) ∨
      ∃ s' rest, P s' ∧ (t.limit ms).run pass s = (none, pass rest s') := by
  induction t generalizing s ms with
  | done a => exact .inl rfl
  | look next ih => exact ih s h ms
  | update change next ih => exact ih h ms
  | wait span next ih =>
    unfold Task.limit
    split
    · exact ih h.2 (ms - span)
    · exact .inr ⟨s, ms, h.1, rfl⟩

end StepFlow.Task
