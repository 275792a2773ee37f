import StepFlow.Proofs.Run.Settle
import StepFlow.Proofs.Run.Waits

/-!
# Tasks under watch

Two tasks may agree only as long as something does not happen, or go on to agree in another way once
it has. What happens is told by a third task that runs beside the first one of them: it comes to the
same waits, and ends when it is known whether the moment comes, with what there is to be seen at
that moment or with none. `Watched` says that the two tasks agree in one way until then, and from
then on in the other way, provided that what is seen is as it should be.

A time limit that ends the tasks before the moment comes ends the watch too.
-/

namespace StepFlow.Task

variable {σ α β γ δ κ : Type} {pass : Nat → σ → σ}

/-! ## More about agreement -/

theorem atWaits_of_waits {P : σ → Prop} {t next : Task σ α} {s u : σ} {ms : Nat}
    (h : t.AtWaits pass P s) (hsettle : t.settle s = .waits ms next u) :
    P u ∧ next.AtWaits pass P (pass ms u) := by
  induction t generalizing s with
  | done a => cases hsettle
  | look more ih => exact ih s h hsettle
  | update change more ih => exact ih h hsettle
  | wait span more =>
    cases hsettle
    exact h

namespace Agrees

variable {R R' : σ → σ → Prop} {Q : α → β → Prop} {t : Task σ α} {t' : Task σ β} {s s' : σ}

theorem monoWorlds (h : Agrees pass R Q t s t' s') (hR : ∀ u u', R u u' → R' u u') :
    Agrees pass R' Q t s t' s' := by
  induction h with
  | ended left right worlds results => exact .ended left right (hR _ _ worlds) results
  | waits left right worlds rest ih => exact .waits left right (hR _ _ worlds) ih

/-- What holds of the worlds of each task by itself can be added to what relates them. -/
theorem also {P P' : σ → Prop} (h : Agrees pass R Q t s t' s') (left : t.AtWaits pass P s)
    (right : t'.AtWaits pass P' s') (leftEnd : P (t.run pass s).2)
    (rightEnd : P' (t'.run pass s').2) :
    Agrees pass (fun u u' => R u u' ∧ P u ∧ P' u') Q t s t' s' := by
  induction h with
  | ended hleft hright worlds results =>
    rw [run_of_settle, hleft] at leftEnd
    rw [run_of_settle, hright] at rightEnd
    exact .ended hleft hright ⟨worlds, leftEnd, rightEnd⟩ results
  | waits hleft hright worlds rest ih =>
    obtain ⟨hu, left⟩ := atWaits_of_waits left hleft
    obtain ⟨hu', right⟩ := atWaits_of_waits right hright
    rw [run_of_settle, hleft] at leftEnd
    rw [run_of_settle, hright] at rightEnd
    exact .waits hleft hright ⟨worlds, hu, hu'⟩ (ih left right leftEnd rightEnd)

end Agrees

/-! ## Watching -/

section Watched

variable (pass : Nat → σ → σ) (good : κ → Prop) (R₁ R₂ : σ → σ → Prop) (Q : α → β → Prop)

/-- Two tasks agree with their worlds related by `R₁` until the watch on the first of them ends, and
from then on by `R₁` again if it tells of nothing, or by `R₂` if it tells of something good. -/
inductive Watched : Task σ (Option κ) → Task σ α → σ → Task σ β → σ → Prop
  | missed {p t s t' s' u} (watch : p.settle s = .ended none u) (h : Agrees pass R₁ Q t s t' s') :
    Watched p t s t' s'
  | arrived {p t s t' s' u k} (watch : p.settle s = .ended (some k) u)
    (h : good k → Agrees pass R₂ Q t s t' s') : Watched p t s t' s'
  | waits {p t s t' s' ms p' next next' u u'} (watch : p.settle s = .waits ms p' u)
    (left : t.settle s = .waits ms next u) (right : t'.settle s' = .waits ms next' u')
    (worlds : R₁ u u') (rest : Watched p' next (pass ms u) next' (pass ms u')) :
    Watched p t s t' s'

end Watched

namespace Watched

variable {good : κ → Prop} {R₁ R₂ : σ → σ → Prop} {Q : α → β → Prop} {P : γ → δ → Prop}
variable {p p₁ : Task σ (Option κ)} {t t₁ : Task σ α} {t' t₁' : Task σ β} {s s₁ s' s₁' : σ}

theorem congr (h : Watched pass good R₁ R₂ Q p t s t' s') (watch : p₁.settle s₁ = p.settle s)
    (left : t₁.settle s₁ = t.settle s) (right : t₁'.settle s₁' = t'.settle s') :
    Watched pass good R₁ R₂ Q p₁ t₁ s₁ t₁' s₁' := by
  cases h with
  | missed hwatch h => exact .missed (watch.trans hwatch) (h.congr left right)
  | arrived hwatch h => exact .arrived (watch.trans hwatch) fun hk => (h hk).congr left right
  | waits hwatch hleft hright worlds rest =>
    exact .waits (watch.trans hwatch) (left.trans hleft) (right.trans hright) worlds rest

/-- Where nothing is to be watched, the tasks agree throughout. -/
theorem of_agrees (h : Agrees pass R₁ Q t s t' s') :
    Watched pass good R₁ R₂ Q (.done none) t s t' s' := .missed rfl h

/-- What ends at once can be passed over. -/
theorem after {τ τ' υ : Type} {p : Task σ υ} {t : Task σ τ} {t' : Task σ τ'} {f : τ → Task σ α}
    {g : τ' → Task σ β} {q : υ → Task σ (Option κ)} {a : τ} {b : τ'} {c : υ} {u u' : σ}
    (watch : p.settle s = .ended c u) (left : t.settle s = .ended a u)
    (right : t'.settle s' = .ended b u')
    (h : Watched pass good R₁ R₂ Q (q c) (f a) u (g b) u') :
    Watched pass good R₁ R₂ Q (p.bind q) (t.bind f) s (t'.bind g) s' :=
  h.congr (settle_bind_of_ended watch) (settle_bind_of_ended left) (settle_bind_of_ended right)

/-- The watch may begin after a first part, which it runs along with the first task. -/
theorem afterAgreed {τ τ' : Type} {t : Task σ τ} {t' : Task σ τ'} {f : τ → Task σ α}
    {g : τ' → Task σ β} {q : τ → Task σ (Option κ)} {S : τ → τ' → Prop}
    (h : Agrees pass R₁ S t s t' s')
    (hrest : ∀ a b u u', R₁ u u' → S a b → Watched pass good R₁ R₂ Q (q a) (f a) u (g b) u') :
    Watched pass good R₁ R₂ Q (t.bind q) (t.bind f) s (t'.bind g) s' := by
  induction h with
  | ended left right worlds results => exact after left left right (hrest _ _ _ _ worlds results)
  | waits left right worlds rest ih =>
    exact .waits (settle_bind_of_waits left) (settle_bind_of_waits left)
      (settle_bind_of_waits right)
      worlds ih

/-- What follows on the watched tasks need not be watched. -/
theorem bind {f : α → Task σ γ} {g : β → Task σ δ} (h : Watched pass good R₁ R₂ Q p t s t' s')
    (hf₁ : ∀ a b u u', R₁ u u' → Q a b → Agrees pass R₁ P (f a) u (g b) u')
    (hf₂ : ∀ a b u u', R₂ u u' → Q a b → Agrees pass R₂ P (f a) u (g b) u') :
    Watched pass good R₁ R₂ P p (t.bind f) s (t'.bind g) s' := by
  induction h with
  | missed watch h => exact .missed watch (h.bind hf₁)
  | arrived watch h => exact .arrived watch fun hk => (h hk).bind hf₂
  | waits watch left right worlds rest ih =>
    exact .waits watch (settle_bind_of_waits left) (settle_bind_of_waits right) worlds ih

theorem mapResult {f : α → γ} {g : β → δ} (h : Watched pass good R₁ R₂ Q p t s t' s')
    (hP : ∀ a b, Q a b → P (f a) (g b)) :
    Watched pass good R₁ R₂ P p (t.mapResult f) s (t'.mapResult g) s' :=
  h.bind (fun a b _ _ worlds results => .pure worlds (hP a b results))
    fun a b _ _ worlds results => .pure worlds (hP a b results)

theorem limit (hpass₁ : ∀ ms u u', R₁ u u' → R₁ (pass ms u) (pass ms u'))
    (hpass₂ : ∀ ms u u', R₂ u u' → R₂ (pass ms u) (pass ms u'))
    (h : Watched pass good R₁ R₂ Q p t s t' s') (ms : Nat) :
    Watched pass good R₁ R₂ (Option.Rel Q) ((p.limit ms).mapResult Option.join) (t.limit ms) s
      (t'.limit ms) s' := by
  induction h generalizing ms with
  | @missed p t s t' s' u watch h =>
    have hlimit : (p.limit ms).settle s = .ended (some none) u := by rw [settle_limit, watch]
    exact .missed (settle_bind_of_ended hlimit) (h.limit hpass₁ ms)
  | @arrived p t s t' s' u k watch h =>
    have hlimit : (p.limit ms).settle s = .ended (some (some k)) u := by rw [settle_limit, watch]
    exact .arrived (settle_bind_of_ended hlimit) fun hk => (h hk).limit hpass₂ ms
  | @waits p t s t' s' span p' next next' u u' watch left right worlds rest ih =>
    by_cases hspan : span ≤ ms
    · have hlimit : (p.limit ms).settle s = .waits span (p'.limit (ms - span)) u := by
        simp only [settle_limit, watch, if_pos hspan]
      refine .waits (settle_bind_of_waits hlimit) ?_ ?_ worlds (ih (ms - span))
      · simp only [settle_limit, left, if_pos hspan]
      · simp only [settle_limit, right, if_pos hspan]
    · have hlimit : (p.limit ms).settle s = .waits ms (.done none) u := by
        simp only [settle_limit, watch, if_neg hspan]
      have hcut : Agrees pass R₁ (Option.Rel Q) (.done none) (pass ms u) (.done none)
          (pass ms u') :=
        .pure (hpass₁ ms _ _ worlds) .none
      refine .waits (settle_bind_of_waits hlimit) ?_ ?_ worlds (.missed rfl hcut)
      · simp only [settle_limit, left, if_neg hspan]
      · simp only [settle_limit, right, if_neg hspan]

/-- Where the agreement is the same before and after, the watch makes no difference. -/
theorem agrees (h : Watched pass good R₁ R₁ Q p t s t' s') (hgood : ∀ k, good k) :
    Agrees pass R₁ Q t s t' s' := by
  induction h with
  | missed watch h => exact h
  | arrived watch h => exact h (hgood _)
  | waits watch left right worlds rest ih => exact .waits left right worlds ih

/-- At the end the worlds are related according to what was seen. -/
theorem run (h : Watched pass good R₁ R₂ Q p t s t' s') :
    ((p.run pass s).1 = none → R₁ (t.run pass s).2 (t'.run pass s').2) ∧
      ∀ k, (p.run pass s).1 = some k → good k → R₂ (t.run pass s).2 (t'.run pass s').2 := by
  induction h with
  | missed watch h =>
    rw [run_of_settle pass _ _, watch]
    exact ⟨fun _ => h.run.2, nofun⟩
  | arrived watch h =>
    rw [run_of_settle pass _ _, watch]
    refine ⟨nofun, ?_⟩
    rintro k ⟨⟩ hk
    exact (h hk).run.2
  | waits watch left right worlds rest ih =>
    rw [run_of_settle, watch, run_of_settle, left, run_of_settle, right]
    exact ih

end Watched

end StepFlow.Task
