import Mathlib.Data.List.Chain
import StepFlow.Proofs.Run.Settle

/-!
# The moments of a run

While a task works, nobody else sees the world; what others can see are the worlds in which it
waits and the one that it leaves. These are the moments of a run. `Follows` says of a relation
that it holds from each moment to the next one, and from a given world to the first. It composes
as tasks do, and where the relation is transitive, it then holds from each moment to every later
one (`Follows.related`).
-/

namespace StepFlow.Task

variable {σ α β : Type} {pass : Nat → σ → σ} {R : σ → σ → Prop} {P : σ → Prop}
variable {t : Task σ α} {s u v : σ}

/-- The worlds in which a task waits, in turn, and the one that it leaves. -/
def moments (pass : Nat → σ → σ) : Task σ α → σ → List σ
  | .done _, s => [s]
  | .look next, s => moments pass (next s) s
  | .update change next, s => moments pass next (change s)
  | .wait ms next, s => s :: moments pass next (pass ms s)

theorem moments_ne_nil (t : Task σ α) (s : σ) : t.moments pass s ≠ [] := by
  induction t generalizing s with
  | done a => exact List.cons_ne_nil _ _
  | look next ih => exact ih s s
  | update change next ih => exact ih (change s)
  | wait ms next => exact List.cons_ne_nil _ _

/-- The last moment is the end. -/
theorem getLast?_moments (t : Task σ α) (s : σ) :
    (t.moments pass s).getLast? = some (t.run pass s).2 := by
  induction t generalizing s with
  | done a => rfl
  | look next ih => exact ih s s
  | update change next ih => exact ih (change s)
  | wait ms next ih =>
    rw [moments, List.getLast?_cons_of_ne_nil (moments_ne_nil next _)]
    exact ih (pass ms s)

/-- The moments of a run do not depend on what a task does before it waits or ends. -/
theorem moments_of_settle (pass : Nat → σ → σ) (t : Task σ α) (s : σ) :
    t.moments pass s =
      match t.settle s with
      | .ended _ u => [u]
      | .waits ms next u => u :: next.moments pass (pass ms u) := by
  induction t generalizing s with
  | done a => rfl
  | look next ih => exact ih s s
  | update change next ih => exact ih (change s)
  | wait ms next => rfl

/-- The run leads from its start to its end. -/
theorem start_end_sublist (t : Task σ α) (u s : σ) :
    [u, (t.run pass s).2].Sublist (u :: t.moments pass s) :=
  (List.singleton_sublist.2 (List.mem_of_getLast? (getLast?_moments t s))).cons_cons u

/-- A relation holds from a world to the first moment of a run, and from each
moment to the next one. -/
def Follows (pass : Nat → σ → σ) (R : σ → σ → Prop) : σ → Task σ α → σ → Prop
  | u, .done _, s => R u s
  | u, .look next, s => Follows pass R u (next s) s
  | u, .update change next, s => Follows pass R u next (change s)
  | u, .wait ms next, s => R u s ∧ Follows pass R s next (pass ms s)

namespace Follows

theorem isChain (h : t.Follows pass R u s) : (u :: t.moments pass s).IsChain R := by
  induction t generalizing u s with
  | done a => exact List.isChain_cons_cons.2 ⟨h, .singleton s⟩
  | look next ih => exact ih s h
  | update change next ih => exact ih h
  | wait ms next ih => exact List.isChain_cons_cons.2 ⟨h.1, ih h.2⟩

/-! What takes no time is passed over. -/

theorem modify_iff {change : σ → σ} {f : Unit → Task σ β} :
    ((modify change).bind f).Follows pass R u s ↔ (f ()).Follows pass R u (change s) := Iff.rfl

theorem read_iff {look : σ → α} {f : α → Task σ β} :
    ((read look).bind f).Follows pass R u s ↔ (f (look s)).Follows pass R u s := Iff.rfl

theorem modifyGet_iff {change : σ → α × σ} {f : α → Task σ β} :
    ((modifyGet change).bind f).Follows pass R u s ↔
      (f (change s).1).Follows pass R u (change s).2 := Iff.rfl

/-- The moments of a run are related if all of them are known to be such that any
two of the kind are. -/
theorem of_known (known : ∀ v ∈ t.moments pass s, P v) (first : ∀ v, P v → R u v)
    (any : ∀ v v', P v → P v' → R v v') : t.Follows pass R u s := by
  induction t generalizing u s with
  | done a => exact first s (known s (List.mem_singleton_self _))
  | look next ih => exact ih s known first
  | update change next ih => exact ih known first
  | wait ms next ih =>
    have here : P s := known s List.mem_cons_self
    exact ⟨first s here,
      ih (fun v mem => known v (List.mem_cons_of_mem _ mem)) fun v => any s v here⟩

section Transitive

variable [Trans R R R]

/-- The relation holds from each moment to every later one. -/
theorem related (h : t.Follows pass R u s) {v v' : σ}
    (order : [v, v'].Sublist (u :: t.moments pass s)) : R v v' :=
  List.pairwise_iff_forall_sublist.1 h.isChain.pairwise order

/-- The relation holds from the start to each moment that is not the last. -/
theorem from_start (refl : R u u) (h : t.Follows pass R u s) {v v' : σ}
    (order : [v, v'].Sublist (u :: t.moments pass s)) : R u v := by
  rcases List.mem_cons.1 (order.subset List.mem_cons_self) with rfl | mem
  · exact refl
  · exact h.related ((List.singleton_sublist.2 mem).cons_cons u)

theorem from_earlier (earlier : R v u) (h : t.Follows pass R u s) : t.Follows pass R v s := by
  induction t generalizing u s with
  | done a =>
    have reached : R u s := h
    exact (Trans.trans earlier reached : R v s)
  | look next ih => exact ih s earlier h
  | update change next ih => exact ih earlier h
  | wait ms next => exact ⟨Trans.trans earlier h.1, h.2⟩

/-- A second task goes on from the world that the first one leaves. -/
theorem bind {f : α → Task σ β} (h : t.Follows pass R u s)
    (next : (f (t.run pass s).1).Follows pass R (t.run pass s).2 (t.run pass s).2) :
    (t.bind f).Follows pass R u s := by
  induction t generalizing u s with
  | done a => exact next.from_earlier h
  | look step ih => exact ih s h next
  | update change step ih => exact ih h next
  | wait ms step ih => exact ⟨h.1, ih h.2 next⟩

theorem mapResult {f : α → β} (refl : ∀ v, R v v) (h : t.Follows pass R u s) :
    (t.mapResult f).Follows pass R u s :=
  h.bind (refl _)

omit [Trans R R R] in
/-- A task that is cut off has come to some of its moments, and is left some time
after the last of them. -/
theorem limit (later : ∀ ms v, R v (pass ms v)) (h : t.Follows pass R u s) (ms : Nat) :
    (t.limit ms).Follows pass R u s := by
  induction t generalizing u s ms with
  | done a => exact h
  | look next ih => exact ih s h ms
  | update change next ih => exact ih h ms
  | wait span next ih =>
    unfold Task.limit
    split
    · exact ⟨h.1, ih h.2 (ms - span)⟩
    · exact ⟨h.1, later ms s⟩

end Transitive

end Follows

end StepFlow.Task
