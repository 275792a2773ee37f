import StepFlow.Nested
import StepFlow.Proofs.Field

/-!
# All readings of a document value agree

A value of a document is read as a field, which may be evaluated later, or evaluated at once
as a value of some shape, or evaluated as a document with expressions anywhere inside. Each
way decides for itself whether a text is an expression, and what becomes of one that is not or
that has no value. `readings_agree` says that they decide alike: about every value, at every
shape, with all variables.
-/

namespace StepFlow

/-- A text with a block is an expression, and no other text is. -/
theorem Template.hasBlock_eq (s : String) : hasBlock s = (source? s).isSome := by
  unfold hasBlock source?
  cases pieces? s.toList with
  | none => rfl
  | some pieces =>
    dsimp only
    split
    · next cs single =>
      cases single
      rfl
    · next several found =>
      cases found
      cases pieces.any Piece.isBlock <;> rfl
    · next missing => cases missing

namespace ExprOr

variable {shape : Shape}

/-- A field that is a literal of another shape evaluates to nothing, as the literal does at once. -/
theorem evaluate_ofDocument (look : Bindings) (v : Value) :
    (ofDocument shape v).evaluate look = evaluateAs shape look v := by
  rw [evaluateAs]
  cases h : source? v with
  | some source =>
    rw [ofDocument_eq_expression h]
    rfl
  | none =>
    cases ha : shape.ofValue? (unescaped v) with
    | some a =>
      rw [ofDocument_eq_literal h ha]
      rfl
    | none =>
      rw [ofDocument_eq_unresolved h ha]
      rfl

end ExprOr

/-- Evaluating a value at a shape at once gives what the field gives that is read from it. A text is
an expression at a shape exactly if it has a block, whatever the shape. In a document a text gives
what it gives as a value of any kind, or null if that is nothing; this is what its field gives if it
has a block, and else the text without its escapes. -/
theorem readings_agree :
    (∀ (shape : Shape) (look : Bindings) (v : Value),
      ExprOr.evaluateAs shape look v = (ExprOr.ofDocument shape v).evaluate look) ∧
    (∀ (shape : Shape) (s : String),
      Template.hasBlock s = true ↔
      ∃ source, ExprOr.ofDocument shape (.string s) = .expression source) ∧
    ∀ (look : Bindings) (s : String),
      Nested.evaluate look (.string s) = (ExprOr.evaluateAs .value look (.string s)).getD .null ∧
      Nested.evaluate look (.string s) =
        if Template.hasBlock s then
          ((ExprOr.ofValue? .value (.string s)).bind fun field => field.evaluate look).getD .null
        else .string (Template.unescape s) := by
  refine ⟨?_, ?_, ?_⟩
  · intro shape look v
    exact (ExprOr.evaluate_ofDocument look v).symm
  · intro shape s
    rw [Template.hasBlock_eq]
    cases h : Template.source? s with
    | some source => exact ⟨fun _ => ⟨source, ExprOr.ofDocument_eq_expression h⟩, fun _ => rfl⟩
    | none =>
      constructor
      · intro block
        cases block
      · rintro ⟨source, expression⟩
        exact absurd expression (ExprOr.ofDocument_ne_expression (v := .string s) h)
  · intro look s
    rw [Template.hasBlock_eq, Nested.evaluate, Nested.evaluateText, ExprOr.evaluateAs,
      ExprOr.ofValue?, ExprOr.source?]
    cases Template.source? s with
    | some source =>
      have any : (StepFlow.evaluate look source).bind (Shape.ofValue? .value) =
          StepFlow.evaluate look source := Option.bind_fun_some _
      refine ⟨?_, ?_⟩
      · exact congrArg (Option.getD · Value.null) any.symm
      · exact congrArg (Option.getD · Value.null) any.symm
    | none => exact ⟨rfl, rfl⟩

/-- A block that is left open is plain text, an escape beside a block is part of the text that is
joined, and a block that has no value makes a null in a document. -/
example :
    Nested.evaluate .none (.string "@\x7bopen") = .string "@\x7bopen" ∧
    Nested.evaluate .none (.string "@@\x7bn\x7d is @\x7b3\x7d") = .string "@\x7bn\x7d is 3" ∧
    Nested.evaluate .none (.string "@\x7bmissing\x7d") = .null ∧
    ExprOr.evaluateAs .value .none (.string "@\x7bmissing\x7d") = none := by
  decide +kernel

end StepFlow
