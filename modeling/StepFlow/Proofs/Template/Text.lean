import StepFlow.Proofs.Template.Containment

/-!
# Whether a template is a text

A template is the call of `concat` on its pieces, and `concat` joins lists to a list. As soon as
there is a text between the blocks, or one of the blocks has a value that is no list, the values
are joined to a text. But blocks that stand directly next to each other and all have lists for
values make a longer list.
-/

namespace StepFlow

namespace Template

variable {look : Bindings} {pieces : List Piece} {es : List Expr} {vs : List Value} {v : Value}

/-- The value that a piece has by itself. -/
def Piece.HasValue (look : Bindings) : Piece → Value → Prop
  | .literal cs, v => v = .string (String.ofList (unescapeChars cs))
  | .block cs, v => tryEvaluate look (String.ofList cs) = .ok v

theorem Piece.hasValue_of_standsFor {piece : Piece} {e : Expr} (stands : piece.StandsFor e)
    (value : e.eval look = .ok v) : piece.HasValue look v := by
  cases piece with
  | literal cs =>
    rw [stands] at value
    exact (Except.ok.inj value).symm
  | block cs =>
    rw [HasValue, tryEvaluate, show Parser.parse (String.ofList cs) = .ok e from stands]
    exact value

/-- The arguments of the call have the values of the pieces. -/
theorem hasValue_of_evalItems (stands : List.Forall₂ Piece.StandsFor pieces es)
    (values : Expr.evalItems look es = .ok vs) : List.Forall₂ (Piece.HasValue look) pieces vs := by
  induction stands generalizing vs with
  | nil =>
    cases values
    exact .nil
  | cons first _ ih =>
    rw [Expr.evalItems] at values
    obtain ⟨v, value, behind⟩ := bind_eq_ok.1 values
    obtain ⟨others, rest, all⟩ := bind_eq_ok.1 behind
    cases all
    exact .cons (Piece.hasValue_of_standsFor first value) (ih rest)

theorem exists_text_of_literal {cs : List Char}
    (values : List.Forall₂ (Piece.HasValue look) pieces vs)
    (literal : .literal cs ∈ pieces) : .string (String.ofList (unescapeChars cs)) ∈ vs := by
  induction values with
  | nil => cases literal
  | cons first _ ih =>
    obtain _ | ⟨_, literal⟩ := literal
    · rw [show _ = _ from first]
      exact List.mem_cons_self
    · exact List.mem_cons_of_mem _ (ih literal)

theorem exists_values_of_call (value : (Expr.call "concat" es).eval look = .ok v) :
    ∃ vs, Expr.evalItems look es = .ok vs ∧ Builtin.applyConcat vs = v := by
  have named : Builtin.ofName? "concat" = some .concat := by decide
  rw [Expr.eval] at value
  obtain ⟨vs, values, applied⟩ := bind_eq_ok.1 value
  simp only [named, Builtin.apply] at applied
  exact ⟨vs, values, Except.ok.inj applied⟩

theorem joined?_lists (lists : List (List Value)) :
    Builtin.joined? (lists.map .array) = some lists.flatten := by
  induction lists with
  | nil => rfl
  | cons items lists ih =>
    rw [List.map_cons, Builtin.joined?, ih]
    rfl

/-- Lists alone are joined to a list. -/
theorem applyConcat_lists {lists : List (List Value)} (some : lists ≠ []) :
    Builtin.applyConcat (lists.map .array) = .array lists.flatten := by
  obtain ⟨items, others, rfl⟩ := List.exists_cons_of_ne_nil some
  have joined := joined?_lists (items :: others)
  rw [Builtin.applyConcat.eq_def]
  split
  · next found =>
    rw [joined] at found
    cases found
    rfl
  · next none =>
    exact (none _ _ _ rfl joined).elim

/-- A template is no expression or the call of its pieces, if its blocks close no
parentheses but their own. -/
theorem exists_call_of_source? {s source : String} {e : Expr}
    (template : pieces? s.toList = some pieces)
    (several : ∀ cs, pieces ≠ [.block cs]) (contained : ∀ cs, .block cs ∈ pieces → Contained cs)
    (read : source? s = some source) (parsed : Parser.parse source = .ok e) :
    ∃ es, e = .call "concat" es ∧ List.Forall₂ Piece.StandsFor pieces es := by
  have passed : PassedBlocks pieces := passedBlocks_of_pieces? template
  rw [source?_of_pieces? template several] at read
  split at read
  · next blocks =>
    cases read
    obtain ⟨piece, isPiece, -⟩ := List.any_eq_true.1 blocks
    have enclosed := enclosed_of_contained passed contained parsed
    exact exists_call passed (List.ne_nil_of_mem isPiece)
      (fun cs block => exists_parse_of_enclosed passed parsed block (enclosed cs block)) parsed
  · cases read

/-- A template that evaluates has blocks that evaluate by themselves, as long as they close no
parentheses but their own. It gives a text, the texts of all its values joined, if there is a text
between its blocks or a block without a list for a value. If all values are lists, it gives a
list, all their items. -/
theorem template_is_text {s source : String} {look : Bindings} {pieces : List Piece} {v : Value}
    (template : pieces? s.toList = some pieces) (several : ∀ cs, pieces ≠ [.block cs])
    (contained : ∀ cs, .block cs ∈ pieces → Contained cs) (read : source? s = some source)
    (value : tryEvaluate look source = .ok v) :
    ∃ vs, List.Forall₂ (Piece.HasValue look) pieces vs ∧
      ((∃ cs, .literal cs ∈ pieces) ∨ (∃ u ∈ vs, ∀ items, u ≠ .array items) →
        v = .string (joinTexts vs)) ∧
      ∀ lists : List (List Value), vs = lists.map .array → v = .array lists.flatten := by
  obtain ⟨e, parsed, evaluated⟩ := bind_eq_ok.1 value
  obtain ⟨es, rfl, stands⟩ := exists_call_of_source? template several contained read parsed
  obtain ⟨vs, values, rfl⟩ := exists_values_of_call evaluated
  have own := hasValue_of_evalItems stands values
  refine ⟨vs, own, ?_, ?_⟩
  · rintro (⟨cs, literal⟩ | ⟨u, given, noList⟩)
    · exact applyConcat_eq (exists_text_of_literal own literal) (by simp)
    · exact applyConcat_eq given noList
  · rintro lists rfl
    refine applyConcat_lists fun none => ?_
    rw [none] at own
    cases own
    rw [source?_of_pieces? template several] at read
    cases read

def twoLists : Bindings := fun name =>
  if name = "a" then some (.array [.bool true])
  else if name = "b" then some (.array [.null])
  else none

/-- With a space between the blocks two lists are joined to a text. -/
theorem template_is_text_spaced :
    ∃ vs, List.Forall₂ (Piece.HasValue twoLists) [.block ['a'], .literal [' '], .block ['b']] vs ∧
      tryEvaluate twoLists "concat((a), ' ', (b))" = .ok (.string "[true] [null]") ∧
      Value.string "[true] [null]" = .string (joinTexts vs) := by
  have value : tryEvaluate twoLists "concat((a), ' ', (b))" = .ok (.string "[true] [null]") := by
    decide +kernel
  have contained : ∀ cs, .block cs ∈ [Piece.block ['a'], .literal [' '], .block ['b']] →
      Contained cs := by
    intro cs block
    have hcs : cs = ['a'] ∨ cs = ['b'] := by simpa using block
    obtain rfl | rfl := hcs
    · decide +kernel
    · decide +kernel
  obtain ⟨vs, own, text, -⟩ := template_is_text (s := "@\x7ba\x7d @\x7bb\x7d") (by decide +kernel)
    (by simp) contained (by decide +kernel) value
  exact ⟨vs, own, value, text (.inl ⟨[' '], by simp⟩)⟩

/-- Blocks next to each other join lists to a list, though the same blocks with a space between them
give a text. A block that closes the parenthesis of the call may turn the template into anything. -/
theorem template_of_lists :
    (pieces? "@\x7ba\x7d@\x7bb\x7d".toList = some [.block ['a'], .block ['b']] ∧
      Nested.evaluate twoLists (.string "@\x7ba\x7d@\x7bb\x7d") = .array [.bool true, .null] ∧
      Nested.evaluate twoLists (.string "@\x7ba\x7d @\x7bb\x7d") = .string "[true] [null]") ∧
    pieces? "x@\x7b1)) == ((2\x7d".toList = some [.literal ['x'], .block "1)) == ((2".toList] ∧
      ¬Contained "1)) == ((2".toList ∧
      Nested.evaluate twoLists (.string "x@\x7b1)) == ((2\x7d") = .bool false := by
  refine ⟨⟨?_, ?_, ?_⟩, ?_, ?_, ?_⟩
  all_goals decide +kernel

end Template

end StepFlow
