import StepFlow.Proofs.Binary64
import StepFlow.Proofs.Field
import StepFlow.Proofs.Template.Rereading

/-!
# Every shape is stable

The shapes that steps use are stable one by one; here are the others, and with them all shapes, the
lists by recursion on what they hold. Only the floats need an argument: what a number is read as has
to be finite, as nothing else can be written, and integers are read as floats too.
-/

namespace StepFlow

namespace Shape

theorem stable_value : Stable .value := fun _ => rfl

theorem stable_object : Stable .object := fun _ => rfl

theorem isFinite_of_float? {v : Value} {f : Float} (h : float? v = some f) : f.isFinite = true := by
  cases v with
  | number n =>
    cases h
    cases n with
    | int n hn => exact Binary64.isFinite_floatOfInt hn
    | float f hf => exact hf
  | string s => exact (Option.filter_eq_some_iff.1 h).2
  | null | bool | array | object => cases h

theorem float?_ofFloat {f : Float} (finite : f.isFinite = true) : float? (.ofFloat f) = some f := by
  rw [Value.ofFloat, Number.ofFloat?, dif_pos finite]
  rfl

theorem stable_float : Stable .float := fun h => float?_ofFloat (isFinite_of_float? h)

theorem mapM_ofValue?_toValue {item : Shape} (stable : item.Stable) :
    ∀ {items : List Value} {xs : List item.Carrier}, items.mapM item.ofValue? = some xs →
      (xs.map item.toValue).mapM item.ofValue? = some xs
  | [], xs, h => by
    cases h
    rfl
  | v :: items, xs, h => by
    rw [List.mapM_cons] at h
    obtain ⟨x, hx, h⟩ := Option.bind_eq_some_iff.1 h
    obtain ⟨rest, hrest, hxs⟩ := Option.bind_eq_some_iff.1 h
    cases hxs
    rw [List.map_cons, List.mapM_cons, stable hx, mapM_ofValue?_toValue stable hrest]
    rfl

theorem stable_list {item : Shape} (stable : item.Stable) : Stable (.list item) := by
  intro v xs h
  cases v with
  | array items => exact mapM_ofValue?_toValue stable h
  | null | bool | number | string | object => cases h

/-- Whatever the shape, a value that was converted once converts to itself. -/
theorem stable (shape : Shape) : shape.Stable := by
  induction shape with
  | value => exact stable_value
  | bool => exact stable_bool
  | int kind => exact stable_int kind
  | float => exact stable_float
  | text => exact stable_text
  | object => exact stable_object
  | list item ih => exact stable_list ih
  | toastDuration => exact stable_toastDuration
  | launchMode => exact stable_launchMode
  | httpMethod => exact stable_httpMethod

end Shape

namespace ExprOr

/-- A text that is an expression is read back exactly if its blocks end at their braces. -/
theorem ofDocument_toValue_text_iff (shape : Shape) {s source : String}
    (h : Template.source? s = some source) :
    ofDocument shape (ofDocument shape (.string s)).toValue = ofDocument shape (.string s) ↔
      Template.BlocksClose s := by
  have read : ofDocument shape (.string s) = .expression source :=
    ofDocument_eq_expression (v := .string s) h
  rw [read, ← Template.source?_ofSource_iff h]
  show ofDocument shape (.string (Template.ofSource source)) = _ ↔ _
  constructor
  · intro back
    cases again : Template.source? (Template.ofSource source) with
    | none => exact (ofDocument_ne_expression (v := .string _) again back).elim
    | some source' =>
      rw [ofDocument_eq_expression (v := .string _) again] at back
      cases back
      rfl
  · exact ofDocument_eq_expression (v := .string _)

/-- Reading, writing and reading again gives what the first reading gave, for every shape and every
document value, exactly if the value is no text with a block that ends at another brace than the one
that closes it; no text has such a block unless it has 2147483648 braces that open. A text that is a
literal is read back as that literal, whatever delimiters, blocks and escapes are in it. -/
theorem fields_read_back (shape : Shape) (v : Value) (s : String) :
    (ofDocument shape (ofDocument shape v).toValue = ofDocument shape v ↔
      ∀ text, v = .string text → Template.BlocksClose text) ∧
    (s.toList.count '\x7b' < 2147483648 → Template.BlocksClose s) ∧
    ofDocument .text (literal s : ExprOr .text).toValue = (literal s : ExprOr .text) ∧
    ofDocument .value (literal (.string s) : ExprOr .value).toValue =
      (literal (.string s) : ExprOr .value) := by
  refine ⟨⟨?_, ofDocument_toValue_ofDocument shape.stable⟩, Template.blocksClose_of_count,
    ofDocument_toValue_literal rfl, ofDocument_toValue_literal rfl⟩
  rintro back text rfl
  cases h : Template.source? text with
  | none => exact Template.blocksClose_of_none h
  | some source => exact (ofDocument_toValue_text_iff shape h).1 back

/-- The text with 2147483648 braces that are never closed is read as an expression, and
that is not read back. -/
theorem unclosed_text_changes :
    let text : Value := .string (Template.unclosed 2147483647)
    ofDocument .text (ofDocument .text text).toValue ≠ ofDocument .text text := by
  intro text back
  have most : 2147483647 = Template.maxInner + 1 := rfl
  have block := Template.source?_unclosed
  rw [← most] at block
  have closed := (ofDocument_toValue_text_iff .text block).1 back
  have lost := Template.source?_ofSource_replicate (by decide) (Nat.le_refl Template.maxInner)
  rw [(Template.source?_ofSource_iff block).2 closed] at lost
  cases lost

end ExprOr

end StepFlow
