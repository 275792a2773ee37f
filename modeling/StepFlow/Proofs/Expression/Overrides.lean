import StepFlow.Proofs.Expression.Variables

/-!
# Overriding variables

Variables can be overridden in two ways: in a copy of the innermost frame, which takes the new
values beside its old ones and keeps its source, or in a new frame inside the old one. The copy puts
a new value before an old one of the same frame, the new frame before all that the old frame says,
its source included. Nothing can tell the two apart but the number of frames.
-/

namespace StepFlow.Expr

/-- An expression has the same outcome whether variables are overridden in a copy of a scope or in a
frame inside it. In both, a variable stands for the last of its new values, be that null, or for
what it stood for if it has none, so an expression without an overridden variable keeps its outcome.
The frames of the scope stay: those around the copy are those around the scope, and the new frame
stands in the scope itself. -/
theorem eval_extend_eq_eval_child_extend {σ : Type} (s : Scope σ) (name : String)
    (overrides : List (String × Value)) (world : σ) :
    let copy := s.extend overrides
    let nested := (s.child name).extend overrides
    (∀ e : Expr, e.eval (copy.lookup world) = e.eval (nested.lookup world)) ∧
    (∀ key,
      copy.lookup world key =
        ((overrides.reverse.find? fun entry => entry.1 = key).map Prod.snd).or
          (s.lookup world key) ∧
      nested.lookup world key =
        ((overrides.reverse.find? fun entry => entry.1 = key).map Prod.snd).or
          (s.lookup world key)) ∧
    (∀ e : Expr, (∀ key ∈ overrides.map Prod.fst, key ∉ e.names) →
      e.eval (copy.lookup world) = e.eval (s.lookup world) ∧
      e.eval (nested.lookup world) = e.eval (s.lookup world)) ∧
    ∀ depth key,
      Scope.lookupIn world key (nested.enclosing.drop depth) =
        Scope.lookupIn world key (s.frames.drop depth) ∧
      Scope.lookupIn world key (copy.enclosing.drop depth) =
        Scope.lookupIn world key (s.enclosing.drop depth) := by
  intro copy nested
  have alike : ∀ key, copy.lookup world key = nested.lookup world key := fun key =>
    (s.lookup_extend_child name overrides world key).symm
  have same : ∀ e : Expr, e.eval (copy.lookup world) = e.eval (nested.lookup world) := fun e =>
    e.eval_congr fun key _ => alike key
  refine ⟨same, fun key => ?_, fun e free => ?_, fun depth key => ⟨rfl, rfl⟩⟩
  · have last := s.lookup_extend_eq_last overrides world key
    exact ⟨last, (alike key).symm.trans last⟩
  · have kept : e.eval (copy.lookup world) = e.eval (s.lookup world) :=
      e.eval_congr fun key occurs =>
        s.lookup_extend_of_notMem world fun overridden => free key overridden occurs
    exact ⟨kept, (same e).symm.trans kept⟩

/-- A frame whose source tells the present draft, below one that binds a title. -/
def drafting : Scope String :=
  ((((Scope.root "app").extend [("title", .string "inbox")]).child "page").withSource
    fun draft key =>
    if key = "draft" then some (.string draft) else none).extend [("hint", .null)]

/-- The draft is overridden by null and the hint twice, so the title is all that stays. -/
theorem eval_drafting :
    let overrides := [("hint", .string "old"), ("draft", .null), ("hint", .bool true)]
    let copy := drafting.extend overrides
    let nested := (drafting.child "form").extend overrides
    let all := Expr.list [.var "draft", .var "hint", .var "title"]
    all.eval (drafting.lookup "hello") = .ok (.array [.string "hello", .null, .string "inbox"]) ∧
    all.eval (copy.lookup "hello") = .ok (.array [.null, .bool true, .string "inbox"]) ∧
    all.eval (copy.lookup "hello") = all.eval (nested.lookup "hello") ∧
    nested.lookup "hello" "draft" = some .null ∧
    (Expr.var "title").eval (nested.lookup "hello") = .ok (.string "inbox") := by
  obtain ⟨same, last, kept, -⟩ := eval_extend_eq_eval_child_extend drafting "form"
    [("hint", .string "old"), ("draft", .null), ("hint", .bool true)] "hello"
  obtain ⟨-, title⟩ := kept (.var "title") (by decide)
  exact ⟨by decide +kernel, by decide +kernel, same _, (last "draft").2, title⟩

end StepFlow.Expr
