import StepFlow.Proofs.Template.Search

/-!
# Texts that the search for a closing brace passes over

A text is balanced if the search for the brace that closes a block comes out behind it as it went
in: as many braces are open, and no text between quotes is. A balanced text put between the
delimiters is a block of its own. The expression that a template stands for is balanced if its
blocks are, which is why it can be written as one block.
-/

namespace StepFlow.Template

/-- The search passes over a text with so many inner braces open, and as many are open behind it. -/
def Balanced (depth : Nat) (w : List Char) : Prop :=
  run (depth, .outside) w = some (depth, .outside)

/-- A character that opens or closes something for the search. -/
def IsDelimiter (c : Char) : Prop := c = '\x7b' ∨ c = '\x7d' ∨ c = '\'' ∨ c = '"'

instance (c : Char) : Decidable (IsDelimiter c) := inferInstanceAs (Decidable (_ ∨ _))

variable {v w rest body after : List Char} {c : Char} {depth : Nat}

/-! ## Balanced texts -/

theorem balanced_nil (depth : Nat) : Balanced depth [] := rfl

theorem Balanced.append (hv : Balanced depth v) (hw : Balanced depth w) : Balanced depth (v ++ w) :=
  (run_append_of hv w).trans hw

theorem step_plain (h : ¬IsDelimiter c) (depth : Nat) :
    step (depth, .outside) c = some (depth, .outside) := by
  simp only [IsDelimiter, not_or] at h
  rw [step, if_neg h.1, if_neg h.2.1, if_neg (not_or.2 h.2.2)]

theorem balanced_plain (h : ¬IsDelimiter c) (depth : Nat) : Balanced depth [c] := by
  rw [Balanced, run_cons, step_plain h]
  rfl

theorem balanced_of_plain (h : ∀ c ∈ w, ¬IsDelimiter c) (depth : Nat) : Balanced depth w := by
  induction w with
  | nil => exact balanced_nil depth
  | cons c rest ih =>
    have first : Balanced depth [c] := balanced_plain (h c (List.mem_cons_self ..)) depth
    exact first.append (ih fun d hd => h d (List.mem_cons_of_mem _ hd))

/-- A block that holds a balanced text ends at the brace behind it. -/
theorem Balanced.splitAtClose_eq (h : Balanced 0 w) (after : List Char) :
    splitAtClose 1 none (w ++ '\x7d' :: after) = some (w, after) :=
  splitAtClose_eq_some_iff.2 ⟨_, _, rfl, h, rfl⟩

/-- A block of a text stands behind an opening delimiter, and the search passes over it up to
the brace behind it. That brace closes the block, or it opens when as many inner braces are
open as are counted. -/
theorem split_of_mem_pieces {escaped : Bool} {reversed cs : List Char} {pieces : List Piece}
    (h : piecesFrom escaped reversed cs = some pieces) (hb : Piece.block body ∈ pieces) :
    ∃ front last after, cs = front ++ '@' :: '\x7b' :: (body ++ last :: after) ∧
      (Balanced 0 body ∧ last = '\x7d' ∨
        run start body = some (maxInner, .outside) ∧ last = '\x7b') := by
  have noBlock : ∀ reversed, Piece.block body ∉ literalPiece reversed := by
    intro reversed
    cases reversed <;> simp [literalPiece]
  fun_induction piecesFrom escaped reversed cs generalizing pieces with
  | case1 =>
    cases h
    exact absurd hb (noBlock _)
  | case2 _ _ ih =>
    obtain ⟨front, last, after, rfl, ended⟩ := ih h hb
    exact ⟨'@' :: '\x7b' :: front, last, after, rfl, ended⟩
  | case3 => cases h
  | case4 _ reversed rest _ b a hs ih =>
    obtain ⟨c, s, rfl, through, ends⟩ := splitAtClose_eq_some_iff.1 hs
    obtain ⟨pieces', hp, rfl⟩ := Option.map_eq_some_iff.1 h
    rcases List.mem_append.1 hb with hb | hb
    · exact absurd hb (noBlock _)
    · rcases List.mem_cons.1 hb with hb | hb
      · cases hb
        refine ⟨[], c, a, rfl, ?_⟩
        obtain ⟨rfl, rfl⟩ | ⟨rfl, rfl⟩ := cases_of_ends through ends
        · exact .inl ⟨through, rfl⟩
        · exact .inr ⟨through, rfl⟩
      · obtain ⟨front, last, after, rfl, ended⟩ := ih hp hb
        exact ⟨'@' :: '\x7b' :: (b ++ c :: front), last, after, by simp, ended⟩
  | case5 _ _ c _ _ ih =>
    obtain ⟨front, last, after, rfl, ended⟩ := ih h hb
    exact ⟨c :: front, last, after, rfl, ended⟩

/-! ## Texts between quotes, and the expression of a template -/

theorem run_quoteLiteral_tail (cs : List Char) (depth : Nat) :
    run (depth, .quoted '\'')
        (cs.flatMap (fun c => if c = '\\' ∨ c = '\'' then ['\\', c] else [c]) ++ ['\'']) =
      some (depth, .outside) := by
  induction cs with
  | nil => rfl
  | cons c tail ih =>
    rw [List.flatMap_cons, List.append_assoc]
    by_cases h : c = '\\' ∨ c = '\''
    · rw [if_pos h]
      exact ih
    · have through : run (depth, .quoted '\'') [c] = some (depth, .quoted '\'') := by
        rw [run_cons, step_quoted (not_or.1 h).1 (not_or.1 h).2]
        rfl
      rw [if_neg h]
      exact (run_append_of through _).trans ih

theorem balanced_quoteLiteral (cs : List Char) (depth : Nat) :
    Balanced depth (quoteLiteral cs) := by
  rw [quoteLiteral, List.append_assoc]
  exact run_quoteLiteral_tail cs depth

theorem Piece.balanced_source {piece : Piece} (h : ∀ cs, piece = .block cs → Balanced depth cs) :
    Balanced depth piece.source := by
  cases piece with
  | literal cs => exact balanced_quoteLiteral _ depth
  | block cs =>
    have left : Balanced depth ['('] := balanced_plain (by decide) depth
    have right : Balanced depth [')'] := balanced_plain (by decide) depth
    exact (left.append (h cs rfl)).append right

theorem balanced_intercalate {separator : List Char} {sources : List (List Char)}
    (hs : Balanced depth separator) (h : ∀ source ∈ sources, Balanced depth source) :
    Balanced depth (separator.intercalate sources) := by
  induction sources with
  | nil => exact balanced_nil depth
  | cons source rest ih =>
    have first : Balanced depth source := h source (List.mem_cons_self ..)
    have others := ih fun source hm => h source (List.mem_cons_of_mem _ hm)
    cases rest with
    | nil => simpa [List.intercalate] using first
    | cons second rest =>
      rw [List.intercalate_cons_cons]
      exact (first.append hs).append others

/-- The expression of a template is balanced if its blocks are. -/
theorem balanced_joinSource {pieces : List Piece}
    (h : ∀ cs, Piece.block cs ∈ pieces → Balanced depth cs) :
    Balanced depth (joinSource pieces) := by
  have opening : Balanced depth "concat(".toList :=
    balanced_of_plain (by simp [IsDelimiter]) depth
  have closing : Balanced depth [')'] := balanced_plain (by decide) depth
  have sources : Balanced depth ([',', ' '].intercalate (pieces.map Piece.source)) := by
    apply balanced_intercalate (balanced_of_plain (by simp [IsDelimiter]) depth)
    intro source hs
    obtain ⟨piece, hp, rfl⟩ := List.mem_map.1 hs
    exact Piece.balanced_source fun cs hcs => h cs (hcs ▸ hp)
  exact (opening.append sources).append closing

/-- The expression that a text of a document is, is balanced if its blocks are. -/
theorem balanced_of_source? {s source : String} (h : source? s = some source)
    (blocks : ∀ pieces, pieces? s.toList = some pieces →
      ∀ cs, .block cs ∈ pieces → Balanced 0 cs) : Balanced 0 source.toList := by
  unfold source? at h
  split at h
  · next cs hp =>
    cases h
    rw [String.toList_ofList]
    exact blocks _ hp cs (List.mem_singleton.2 rfl)
  · next pieces _ hp =>
    split at h
    · cases h
      rw [String.toList_ofList]
      exact balanced_joinSource (blocks _ hp)
    · cases h
  · cases h

/-- A balanced text between the delimiters is read as that text. -/
theorem source?_ofSource {source : String} (h : Balanced 0 source.toList) :
    source? (ofSource source) = some source := by
  have chars : (ofSource source).toList = '@' :: '\x7b' :: (source.toList ++ ['\x7d']) := by
    simp [ofSource]
  have pieces : pieces? (ofSource source).toList = some [.block source.toList] := by
    rw [pieces?, chars, piecesFrom_block (h.splitAtClose_eq []), piecesFrom_nil]
    rfl
  rw [source?, pieces]
  simp

end StepFlow.Template
