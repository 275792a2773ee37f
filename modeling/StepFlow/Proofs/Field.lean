import StepFlow.ExprOr
import StepFlow.Proofs.Template.Nesting

/-!
# Fields read back as they were written

Reading a document value as a field and writing the field loses nothing that a second reading could
tell apart. An expression is written as one block, which its source allows because it stood in
blocks that end at the braces that close them; a literal is written in the one form of its shape,
with the delimiters in a text escaped; and a value that does not fit the shape is kept as it is.

What a shape has to do for this is `Shape.Stable`: a value that was converted once converts to
itself. What a document has to do is `Value.BlocksClose`.
-/

namespace StepFlow

/-! ## The texts of a document -/

namespace Value

mutual

/-- The texts in a value. The keys of objects do not count. -/
def texts : Value → List String
  | .string s => [s]
  | .array items => textsOfItems items
  | .object entries => textsOfEntries entries
  | .null | .bool _ | .number _ => []

def textsOfItems : List Value → List String
  | [] => []
  | v :: rest => v.texts ++ textsOfItems rest

def textsOfEntries : List (String × Value) → List String
  | [] => []
  | (_, v) :: rest => v.texts ++ textsOfEntries rest

end

/-- The blocks of all texts in a value end at the braces that close them. -/
def BlocksClose (v : Value) : Prop := ∀ s ∈ v.texts, Template.BlocksClose s

theorem blocksClose_items {v : Value} {rest : List Value} :
    (array (v :: rest)).BlocksClose ↔ v.BlocksClose ∧ (array rest).BlocksClose :=
  List.forall_mem_append

theorem blocksClose_entries {key : String} {v : Value} {rest : Object} :
    (object ((key, v) :: rest)).BlocksClose ↔ v.BlocksClose ∧ (object rest).BlocksClose :=
  List.forall_mem_append

theorem BlocksClose.text {v : Value} (closed : v.BlocksClose) :
    ∀ s, v = .string s → Template.BlocksClose s := by
  rintro s rfl
  exact closed s (List.mem_singleton.2 rfl)

theorem BlocksClose.of_get? {o : Object} {key : String} {v : Value}
    (closed : (object o).BlocksClose) (h : o.get? key = some v) : v.BlocksClose := by
  induction o with
  | nil => cases h
  | cons entry rest ih =>
    obtain ⟨first, others⟩ := blocksClose_entries.1 closed
    rw [Object.get?] at h
    split at h
    · cases h
      exact first
    · exact ih others h

/-- A document none of whose texts opens more braces than are counted has no other blocks. -/
theorem blocksClose_of_count {v : Value} (few : ∀ s ∈ v.texts, s.toList.count '\x7b' < 2147483648) :
    v.BlocksClose := fun s hs => Template.blocksClose_of_count (few s hs)

end Value

namespace Shape

/-- Converting is stable: what a field holds is what its written form converts to. -/
def Stable (s : Shape) : Prop :=
  ∀ {v : Value} {a : s.Carrier}, s.ofValue? v = some a → s.ofValue? (s.toValue a) = some a

theorem stable_bool : Stable .bool := fun _ => rfl

theorem stable_text : Stable .text := fun _ => rfl

theorem stable_toastDuration : Stable .toastDuration := fun {_ d} _ => by
  cases d <;> decide

theorem stable_launchMode : Stable .launchMode := fun {_ m} _ => by
  cases m <;> decide

theorem stable_httpMethod : Stable .httpMethod := fun {_ m} _ => by
  cases m <;> decide

/-! ## Integers -/

theorem fitsSigned_of_intOfFloat? {f : Float} {n : Int} (h : intOfFloat? f = some n) :
    Number.FitsSigned n := by
  have hn := (Option.filter_eq_some_iff.1 h).2
  simp only [decide_eq_true_eq] at hn
  constructor <;> omega

theorem fitsSigned_of_signed? {v : Value} {n : Int} (h : signed? v = some n) :
    Number.FitsSigned n := by
  cases v with
  | number m =>
    simp only [signed?, signedOfNumber?] at h
    split at h
    · next i hi =>
      cases h
      cases m with
      | int k _ =>
        simp only [Number.signed?] at hi
        split at hi
        · next hk =>
          cases hi
          exact hk
        · cases hi
      | float => cases hi
    · exact fitsSigned_of_intOfFloat? h
  | string s =>
    simp only [signed?, signedOfText?] at h
    split at h
    · next hn =>
      cases h
      simpa using (Option.filter_eq_some_iff.1 hn).2
    · obtain ⟨f, -, hf⟩ := Option.bind_eq_some_iff.1 h
      exact fitsSigned_of_intOfFloat? hf
  | null | bool | array | object => cases h

theorem signed?_ofInt {n : Int} (h : Number.FitsSigned n) : signed? (.ofInt n) = some n := by
  have hw : Number.FitsWord n := ⟨h.1, by have := h.2; omega⟩
  simp only [Value.ofInt, Number.ofInt?, dif_pos hw, signed?, signedOfNumber?, Number.signed?,
    if_pos h]

theorem ofInt?_val (kind : IntKind) (n : kind.Carrier) : kind.ofInt? n.val = some n :=
  dif_pos n.property

theorem val_of_ofInt? {kind : IntKind} {n : Int} {a : kind.Carrier} (h : kind.ofInt? n = some a) :
    a.val = n := by
  rw [IntKind.ofInt?] at h
  split at h
  · cases h
    rfl
  · cases h

theorem stable_int (kind : IntKind) : Stable (.int kind) := by
  intro v a h
  obtain ⟨n, hn, ha⟩ := Option.bind_eq_some_iff.1 h
  have hr : signed? (.ofInt a.val) = some a.val := by
    rw [val_of_ofInt? ha]
    exact signed?_ofInt (fitsSigned_of_signed? hn)
  show (signed? (.ofInt a.val)).bind kind.ofInt? = some a
  rw [hr, Option.bind_some]
  exact ofInt?_val kind a

end Shape

namespace ExprOr

variable {shape : Shape}

/-! ## What a document value is read as -/

theorem ofDocument_eq_expression {v : Value} {source : String} (h : source? v = some source) :
    ofDocument shape v = .expression source := by
  simp only [ofDocument, ofValue?, h, Option.getD_some]

theorem ofDocument_eq_literal {v : Value} {a : shape.Carrier} (h : source? v = none)
    (ha : shape.ofValue? (unescaped v) = some a) : ofDocument shape v = .literal a := by
  simp only [ofDocument, ofValue?, h, ha, Option.map_some, Option.getD_some]

theorem ofDocument_eq_unresolved {v : Value} (h : source? v = none)
    (ha : shape.ofValue? (unescaped v) = none) : ofDocument shape v = .unresolved v := by
  simp only [ofDocument, ofValue?, h, ha, Option.map_none, Option.getD_none]

theorem ofDocument_ne_expression {v : Value} {source : String} (h : source? v = none) :
    ofDocument shape v ≠ .expression source := by
  cases ha : shape.ofValue? (unescaped v) with
  | some a =>
    rw [ofDocument_eq_literal h ha]
    exact nofun
  | none =>
    rw [ofDocument_eq_unresolved h ha]
    exact nofun

/-! ## Reading what was written -/

/-- A literal whose value converts to itself is read back from its written form. -/
theorem ofDocument_toValue_literal {a : shape.Carrier}
    (h : shape.ofValue? (shape.toValue a) = some a) :
    ofDocument shape (literal a).toValue = literal a := by
  have read : ofValue? shape (literal a).toValue = some (literal a) := by
    cases hv : shape.toValue a with
    | string s =>
      rw [hv] at h
      simp only [toValue, hv, ofValue?, source?, unescaped, Template.source?_escape,
        Template.unescape_escape, h, Option.map_some]
    | null | bool | number | array | object =>
      rw [hv] at h
      simp only [toValue, hv, ofValue?, source?, unescaped, h, Option.map_some]
  rw [ofDocument, read]
  rfl

/-- A field that came out of a document is read back from its written form. -/
theorem ofDocument_toValue_ofDocument (stable : shape.Stable) {v : Value}
    (closed : ∀ s, v = .string s → Template.BlocksClose s) :
    ofDocument shape (ofDocument shape v).toValue = ofDocument shape v := by
  cases hs : source? v with
  | some source =>
    have balanced : Template.Balanced 0 source.toList := by
      cases v with
      | string s => exact Template.balanced_of_source? hs fun _ found _ =>
        (closed s rfl).balanced found
      | null | bool | number | array | object => cases hs
    rw [ofDocument_eq_expression hs]
    exact ofDocument_eq_expression (Template.source?_ofSource balanced)
  | none =>
    cases ha : shape.ofValue? (unescaped v) with
    | some a =>
      rw [ofDocument_eq_literal hs ha]
      exact ofDocument_toValue_literal (stable ha)
    | none =>
      rw [ofDocument_eq_unresolved hs ha]
      exact ofDocument_eq_unresolved hs ha

end ExprOr

end StepFlow
