import StepFlow.Expression

/-!
# The depth of a tree is its height

`Expr.depth` walks over a tree in rounds. A round visits one node, so that the walk ends after
as many rounds as the tree has nodes. What ties it to the tree is how deep the pending trees
reach, each from the level it stands at: the greatest of these and of the levels met so far is
the same after every round. In the beginning it is the height of the tree, in the end it is
what the walk has found.
-/

namespace StepFlow.Expr

theorem heightItems_entries (entries : List (Expr × Expr)) :
    heightItems (entries.flatMap fun entry => [entry.1, entry.2]) = heightEntries entries := by
  induction entries with
  | nil => rfl
  | cons entry rest ih => simp [heightEntries, heightItems, ih]

/-- A tree is one level higher than its immediate sub-expressions, the keys of a map among them. -/
theorem height_eq_children (e : Expr) : e.height = 1 + heightItems e.children := by
  cases e <;> simp [height, children, heightItems, heightItems_entries]

namespace Walk

variable {w next : Walk} {n : Nat}

/-- How deep pending trees reach, each from the level it stands at. -/
def reachPending : List (Expr × Nat) → Nat
  | [] => 0
  | (e, level) :: pending => max (level + heightItems e.children) (reachPending pending)

/-- How deep a walk gets. -/
def reach (w : Walk) : Nat :=
  max w.deepest (reachPending w.pending)

/-- Sub-expressions that stand one level further in reach as deep as they are high. -/
theorem reachPending_push (level : Nat) (pending : List (Expr × Nat)) (es : List Expr) :
    max level (reachPending (push (level + 1) pending es)) =
      max (level + heightItems es) (reachPending pending) := by
  -- `level` itself is counted, or the equation would fail where there is nothing
  -- to put on the stack.
  induction es generalizing pending with
  | nil => rfl
  | cons e es ih =>
    rw [push, List.foldl_cons, ← push, ih, reachPending, heightItems, height_eq_children e]
    omega

theorem le_reachPending {e : Expr} {level : Nat} {pending : List (Expr × Nat)}
    (h : (e, level) ∈ pending) : level + heightItems e.children ≤ reachPending pending := by
  induction pending with
  | nil => cases h
  | cons first pending ih =>
    rw [reachPending]
    cases h with
    | head => exact Nat.le_max_left _ _
    | tail _ later => exact Nat.le_trans (ih later) (Nat.le_max_right _ _)

/-! ## One round -/

theorem visit_eq_none : w.visit = none ↔ w.pending = [] := by
  obtain ⟨deepest, _ | ⟨first, pending⟩⟩ := w <;> simp [visit]

theorem size_eq_zero : w.size = 0 ↔ w.visit = none := by
  constructor
  · intro empty
    cases h : w.visit with
    | none => rfl
    | some next =>
      have := size_of_visit h
      omega
  · intro done
    rw [size, visit_eq_none.1 done]
    rfl

/-- A round does not change how deep the walk gets. -/
theorem reach_of_visit (h : w.visit = some next) : next.reach = w.reach := by
  obtain ⟨deepest, _ | ⟨⟨e, level⟩, pending⟩⟩ := w
  · cases h
  · cases h
    have children := reachPending_push level pending e.children
    simp only [reach, reachPending]
    omega

/-- When nothing is left to be visited, the walk has got as deep as it gets. -/
theorem reach_of_done (h : w.visit = none) : w.reach = w.deepest := by
  rw [reach, visit_eq_none.1 h]
  exact Nat.max_zero _

/-! ## Many rounds -/

def after (w : Walk) : Nat → Option Walk
  | 0 => some w
  | n + 1 => w.visit.bind (·.after n)

theorem reach_of_after (h : w.after n = some next) : next.reach = w.reach := by
  induction n generalizing w with
  | zero =>
    cases h
    rfl
  | succ n ih =>
    obtain ⟨second, first, rest⟩ := Option.bind_eq_some_iff.1 h
    rw [ih rest, reach_of_visit first]

/-- The rounds of a walk come to an end, one for each node. -/
theorem exists_after_size (w : Walk) : ∃ last, w.after w.size = some last ∧ last.visit = none := by
  induction rounds : w.size generalizing w with
  | zero => exact ⟨w, rfl, size_eq_zero.1 rounds⟩
  | succ n ih =>
    obtain ⟨next, first⟩ : ∃ next, w.visit = some next :=
      Option.ne_none_iff_exists'.1 fun done => by
        rw [size_eq_zero.2 done] at rounds
        cases rounds
    have left := size_of_visit first
    obtain ⟨last, rest, done⟩ := ih next (by omega)
    exact ⟨last, by rw [after, first, Option.bind_some, rest], done⟩

theorem finish_eq_reach (w : Walk) : w.finish = w.reach := by
  fun_induction finish w with
  | case1 w done => exact (reach_of_done done).symm
  | case2 w next h _ ih => rw [ih, reach_of_visit h]

end Walk

/-! ## A walk over one tree -/

theorem size_start (e : Expr) : (Walk.start e).size = e.size := by
  rw [Walk.start, Walk.size, List.map_cons, List.map_nil, sizeItems, sizeItems, Nat.add_zero]

theorem reach_start (e : Expr) : (Walk.start e).reach = e.height := by
  simp only [Walk.start, Walk.reach, Walk.reachPending, height_eq_children e]
  omega

/-- The walk finds the height of a tree. -/
theorem depth_eq_height (e : Expr) : e.depth = e.height := by
  rw [depth, Walk.finish_eq_reach, reach_start]

/-- The walk over a tree ends: it makes as many rounds as the tree has nodes. The depth of the tree
is what the walk has found by then, and this is the height of the tree. On the way no tree is
pending at a level from which it would reach deeper than the whole tree. -/
theorem walk_measures_height (e : Expr) :
    (∃ last, (Walk.start e).after e.size = some last ∧ last.visit = none ∧ last.deepest = e.depth) ∧
      e.depth = e.height ∧
      ∀ rounds w, (Walk.start e).after rounds = some w →
        w.deepest ≤ e.height ∧ ∀ t level, (t, level) ∈ w.pending →
        level + t.height ≤ e.height + 1 := by
  have kept {rounds : Nat} {w : Walk} (h : (Walk.start e).after rounds = some w) :
      w.reach = e.height :=
    (Walk.reach_of_after h).trans (reach_start e)
  refine ⟨?_, depth_eq_height e, fun rounds w h => ?_⟩
  · obtain ⟨last, rounds, done⟩ := Walk.exists_after_size (Walk.start e)
    rw [size_start] at rounds
    exact ⟨last, rounds, done, by rw [← Walk.reach_of_done done, kept rounds, depth_eq_height]⟩
  · rw [← kept h]
    refine ⟨Nat.le_max_left _ _, fun t level pending => ?_⟩
    have within : level + heightItems t.children ≤ w.reach :=
      Nat.le_trans (Walk.le_reachPending pending) (Nat.le_max_right _ _)
    rw [height_eq_children t]
    omega

/-- A map that is deepest in a key: when the key has been visited, its parts are pending
at the third level. -/
theorem walk_measures_height_key :
    (Walk.start (.map [(.index (.var "a") (.var "b"), .literal .null)])).after 3 =
        some ⟨2, [(.var "b", 3), (.var "a", 3)]⟩ ∧
      (Expr.map [(.index (.var "a") (.var "b"), .literal .null)]).depth = 3 ∧
      3 + (Expr.var "a").height ≤ 3 + 1 := by
  have rounds : (Walk.start (.map [(.index (.var "a") (.var "b"), .literal .null)])).after 3 =
      some ⟨2, [(.var "b", 3), (.var "a", 3)]⟩ := rfl
  obtain ⟨-, depth, pending⟩ :=
    walk_measures_height (.map [(.index (.var "a") (.var "b"), .literal .null)])
  exact ⟨rounds, depth, (pending 3 _ rounds).2 _ _ (.tail _ (.head _))⟩

end StepFlow.Expr
