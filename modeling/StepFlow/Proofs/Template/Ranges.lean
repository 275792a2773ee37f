import StepFlow.Proofs.Template.Nesting
import StepFlow.Proofs.Text.Bytes

/-!
# Where the blocks of a template stand

A template is split into literal texts and blocks. Counted in bytes, every block takes a range of
the text: from an opening delimiter that is not escaped up to the brace that closes it, or up to one
that opens when more are open than can be counted. The ranges follow upon each other, and a
delimiter that is in none of them is escaped. A text that is not split has a delimiter that is
neither escaped nor closed.
-/

namespace StepFlow.Template

open Lexer (byteLength)

variable {c last : Char} {before behind body after cs front rest reversed : List Char}
  {piece : Piece} {pieces : List Piece} {found : List (Nat × Nat)} {escaped : Bool} {offset : Nat}

/-! ## Pieces and their ranges -/

/-- A block as it stands in its text, up to the brace that it ends with. -/
def blockText (body : List Char) (last : Char) : List Char := '@' :: '\x7b' :: (body ++ [last])

/-- The brace that a block ends with: the one that closes it, or one that opens when as many inner
braces are open as are counted. -/
inductive Ended (body : List Char) : Char → Prop
  | closed (paired : Paired body) : Ended body '\x7d'
  | full (crosses : Crosses 0 maxInner body) : Ended body '\x7b'

theorem byteLength_blockText (h : Ended body last) :
    byteLength (blockText body last) = byteLength body + 3 := by
  have one : byteLength [last] = 1 := by cases h <;> rfl
  have split : blockText body last = ['@', '\x7b'] ++ (body ++ [last]) := rfl
  have two : byteLength ['@', '\x7b'] = 2 := rfl
  rw [split, Lexer.byteLength_append, Lexer.byteLength_append, one, two]
  omega

/-- A delimiter behind which the search ends begins a block. -/
theorem exists_blockText (h : splitAtClose 1 none rest = some (body, after)) :
    ∃ last, '@' :: '\x7b' :: rest = blockText body last ++ after ∧ Ended body last := by
  obtain ⟨last, s, rfl, through, ends⟩ := splitAtClose_eq_some_iff.1 h
  refine ⟨last, by simp [blockText], ?_⟩
  obtain ⟨rfl, rfl⟩ | ⟨rfl, rfl⟩ := cases_of_ends through ends
  · exact .closed (Balanced.paired through)
  · exact .full (crosses_of_run through)

/-- No block escapes what is behind it. -/
theorem getLast?_blockText_ne (h : Ended body last) (before : List Char) :
    (before ++ blockText body last).getLast? ≠ some '@' := by
  have split : before ++ blockText body last = (before ++ '@' :: '\x7b' :: body) ++ [last] := by
    simp [blockText]
  rw [split, List.getLast?_concat]
  cases h <;> decide

/-- The ranges of the blocks among some pieces, counted in bytes from an offset on. -/
def ranges (offset : Nat) : List Piece → List (Nat × Nat)
  | [] => []
  | .literal cs :: pieces => ranges (offset + byteLength cs) pieces
  | .block cs :: pieces =>
    (offset, offset + byteLength cs + 3) :: ranges (offset + byteLength cs + 3) pieces

theorem ranges_literalPiece (offset : Nat) (reversed : List Char) (pieces : List Piece) :
    ranges offset (literalPiece reversed ++ pieces) =
      ranges (offset + byteLength reversed.reverse) pieces := by
  cases reversed with
  | nil => rfl
  | cons c rest => rfl

/-- The range of a block behind a literal text comes first. -/
theorem ranges_block (offset : Nat) (reversed body : List Char) (pieces : List Piece) :
    ranges offset (literalPiece reversed ++ .block body :: pieces) =
      (offset + byteLength reversed.reverse,
          offset + byteLength reversed.reverse + byteLength body + 3) ::
        ranges (offset + byteLength reversed.reverse + byteLength body + 3) pieces :=
  ranges_literalPiece offset reversed _

/-- There is a range for every block. -/
theorem ranges_eq_nil : ranges offset pieces = [] ↔ pieces.any Piece.isBlock = false := by
  induction pieces generalizing offset with
  | nil => exact ⟨fun _ => rfl, fun _ => rfl⟩
  | cons piece pieces ih =>
    cases piece with
    | literal cs => exact ih
    | block cs => exact ⟨fun h => (nomatch h), fun h => (nomatch h)⟩

/-- The texts that some pieces make up, one after the other. -/
inductive Written : List Piece → List Char → Prop
  | nil : Written [] []
  | literal {front cs : List Char} {pieces : List Piece} (rest : Written pieces cs) :
    Written (.literal front :: pieces) (front ++ cs)
  | block {body cs : List Char} {last : Char} {pieces : List Piece} (ended : Ended body last)
    (rest : Written pieces cs) : Written (.block body :: pieces) (blockText body last ++ cs)

theorem Written.literalPiece (h : Written pieces cs) (reversed : List Char) :
    Written (literalPiece reversed ++ pieces) (reversed.reverse ++ cs) := by
  cases reversed with
  | nil => exact h
  | cons c rest => exact h.literal

/-- The pieces of a text make up the text. -/
theorem written_of_piecesFrom (h : piecesFrom escaped reversed cs = some pieces) :
    Written pieces (reversed.reverse ++ cs) := by
  fun_induction piecesFrom escaped reversed cs generalizing pieces with
  | case1 _ reversed =>
    cases h
    rw [← List.append_nil (Template.literalPiece _)]
    exact Written.nil.literalPiece reversed
  | case2 _ _ ih => simpa using ih h
  | case3 => cases h
  | case4 _ reversed rest _ body after closed ih =>
    obtain ⟨others, hothers, rfl⟩ := Option.map_eq_some_iff.1 h
    obtain ⟨last, split, ended⟩ := exists_blockText closed
    rw [split]
    exact ((ih hothers).block ended).literalPiece reversed
  | case5 _ _ _ _ _ ih => simpa using ih h

theorem eq_nil_of_byteLength (h : byteLength cs = 0) : cs = [] := by
  cases cs with
  | nil => rfl
  | cons c cs =>
    have some : 0 < byteLength (c :: cs) := Nat.lt_of_lt_of_le c.utf8Size_pos (Nat.le_add_right ..)
    omega

/-! ## What the ranges are -/

/-- A delimiter that is never closed: there is no brace that the text between has
its partners without. -/
def NeverClosed (rest : List Char) : Prop :=
  ∀ body after, rest = body ++ '\x7d' :: after → ¬Paired body

/-- A range of a text, in bytes, from an opening delimiter that is not escaped up to a brace
behind the given text. -/
def IsBlock (cs : List Char) (range : Nat × Nat) (body : List Char) (last : Char) : Prop :=
  ∃ before after, cs = before ++ (blockText body last ++ after) ∧ before.getLast? ≠ some '@' ∧
    range = (byteLength before, byteLength (before ++ blockText body last))

/-- The ranges of the blocks of a text behind a place in it. -/
structure BlocksFrom (before cs : List Char) (found : List (Nat × Nat)) : Prop where
  isBlock : ∀ range ∈ found, ∃ body last, IsBlock (before ++ cs) range body last ∧ Ended body last
  inside : ∀ range ∈ found, byteLength before ≤ range.1
  increasing : found.Pairwise fun range later => range.2 ≤ later.1
  escaped : ∀ behind rest, cs = behind ++ '@' :: '\x7b' :: rest →
    (∀ range ∈ found,
      ¬(range.1 ≤ byteLength (before ++ behind) ∧ byteLength (before ++ behind) < range.2)) →
    (before ++ behind).getLast? = some '@'

/-- Behind a place in a text, a delimiter is neither escaped nor closed. -/
def UnclosedFrom (before cs : List Char) : Prop :=
  ∃ behind rest, cs = behind ++ '@' :: '\x7b' :: rest ∧ (before ++ behind).getLast? ≠ some '@' ∧
    NeverClosed rest

theorem BlocksFrom.nil (before : List Char) : BlocksFrom before [] [] where
  isBlock := by simp
  inside := by simp
  increasing := .nil
  escaped := by simp

/-- A character is passed over unless a block begins there. -/
theorem BlocksFrom.cons (h : BlocksFrom (before ++ [c]) cs found)
    (passed : Opens c cs → before.getLast? = some '@') : BlocksFrom before (c :: cs) found where
  isBlock range hr := by simpa using h.isBlock range hr
  inside range hr := by
    have further := h.inside range hr
    rw [Lexer.byteLength_append] at further
    omega
  increasing := h.increasing
  escaped behind rest split outside := by
    cases behind with
    | nil =>
      obtain ⟨rfl, rfl⟩ := List.cons.inj split
      rw [List.append_nil]
      exact passed ⟨rfl, rfl⟩
    | cons d behind =>
      obtain ⟨rfl, hcs⟩ := List.cons.inj split
      rw [List.append_cons] at outside ⊢
      exact h.escaped behind rest hcs outside

theorem UnclosedFrom.append (h : UnclosedFrom (before ++ front) cs) :
    UnclosedFrom before (front ++ cs) := by
  obtain ⟨behind, rest, rfl, free, never⟩ := h
  exact ⟨front ++ behind, rest, (List.append_assoc ..).symm, by rwa [← List.append_assoc], never⟩

/-- A block in front of others. -/
theorem BlocksFrom.block (h : BlocksFrom (before ++ blockText body last) after found)
    (free : before.getLast? ≠ some '@') (ended : Ended body last) :
    BlocksFrom before (blockText body last ++ after)
      ((byteLength before, byteLength (before ++ blockText body last)) :: found) where
  isBlock range hr := by
    rcases List.mem_cons.1 hr with rfl | hr
    · exact ⟨body, last, ⟨before, after, rfl, free, rfl⟩, ended⟩
    · rw [← List.append_assoc]
      exact h.isBlock range hr
  inside range hr := by
    rcases List.mem_cons.1 hr with rfl | hr
    · exact Nat.le_refl _
    · have further := h.inside range hr
      rw [Lexer.byteLength_append] at further
      omega
  increasing := List.pairwise_cons.2 ⟨h.inside, h.increasing⟩
  escaped behind rest split outside := by
    rcases List.append_eq_append_iff.1 split with ⟨more, rfl, hafter⟩ | ⟨more, hblock, hmore⟩
    · -- the delimiter is behind the block
      rw [← List.append_assoc] at outside ⊢
      exact h.escaped more rest hafter fun range hr => outside range (List.mem_cons_of_mem _ hr)
    · cases more with
      | nil =>
        obtain rfl := hblock.trans (List.append_nil _)
        rw [← List.append_nil (before ++ _)] at outside ⊢
        exact h.escaped [] rest hmore.symm fun range hr => outside range (List.mem_cons_of_mem _ hr)
      | cons d more =>
        -- the delimiter is in the block
        refine (outside _ List.mem_cons_self ⟨?_, ?_⟩).elim
        · rw [Lexer.byteLength_append before behind]
          exact Nat.le_add_right _ _
        · have one : 0 < byteLength (d :: more) :=
            Nat.lt_of_lt_of_le d.utf8Size_pos (Nat.le_add_right ..)
          rw [hblock, ← List.append_assoc, Lexer.byteLength_append (before ++ behind)]
          omega

/-- The blocks that a text is split into stand at their ranges. -/
theorem blocksFrom_of_piecesFrom (h : piecesFrom escaped reversed cs = some pieces)
    (known : escaped = decide (before.getLast? = some '@'))
    (place : byteLength before = offset + byteLength reversed.reverse) :
    BlocksFrom before cs (ranges offset pieces) := by
  fun_induction piecesFrom escaped reversed cs generalizing pieces before offset with
  | case1 =>
    cases h
    rw [← List.append_nil (literalPiece _), ranges_literalPiece]
    exact .nil before
  | case2 reversed rest ih =>
    have behind : BlocksFrom ((before ++ ['@']) ++ ['\x7b']) rest (ranges offset pieces) := by
      refine ih h (by simp) ?_
      simp only [Lexer.byteLength_append, List.reverse_cons, place, Nat.add_assoc]
    exact (behind.cons fun opens => by cases opens.1).cons fun _ => by simpa using known
  | case3 => cases h
  | case4 escaped reversed rest noEscape body after closed ih =>
    obtain ⟨others, hothers, rfl⟩ := Option.map_eq_some_iff.1 h
    have free : before.getLast? ≠ some '@' := by simpa [known] using noEscape
    obtain ⟨last, split, ended⟩ := exists_blockText closed
    have behind : BlocksFrom (before ++ blockText body last) after (ranges _ others) :=
      ih hothers (decide_eq_false (getLast?_blockText_ne ended before)).symm rfl
    have stop : byteLength (before ++ blockText body last) =
        byteLength before + byteLength body + 3 := by
      rw [Lexer.byteLength_append, byteLength_blockText ended, Nat.add_assoc]
    rw [ranges_block, ← place, ← stop, split]
    exact behind.block free ended
  | case5 escaped reversed c rest noBlock ih =>
    have behind : BlocksFrom (before ++ [c]) rest (ranges offset pieces) := by
      refine ih h (by simp) ?_
      rw [Lexer.byteLength_append, List.reverse_cons, Lexer.byteLength_append, place, Nat.add_assoc]
    refine behind.cons fun opens => ?_
    obtain ⟨tail, rfl, rfl⟩ := opens.exists_tail
    exact (noBlock tail rfl rfl).elim

/-- A text that is not split has a delimiter that is neither escaped nor closed. -/
theorem unclosedFrom_of_piecesFrom (h : piecesFrom escaped reversed cs = none)
    (known : escaped = decide (before.getLast? = some '@')) : UnclosedFrom before cs := by
  fun_induction piecesFrom escaped reversed cs generalizing before with
  | case1 => cases h
  | case2 reversed rest ih =>
    have behind : UnclosedFrom (before ++ ['@', '\x7b']) rest := ih h (by simp)
    exact behind.append
  | case3 escaped reversed rest noEscape unclosed =>
    refine ⟨[], rest, rfl, by simpa [known] using noEscape, ?_⟩
    obtain ⟨s, through⟩ := splitAtClose_eq_none_iff.1 unclosed
    exact fun body after => not_paired_of_run through
  | case4 escaped reversed rest noEscape body after closed ih =>
    obtain ⟨last, split, ended⟩ := exists_blockText closed
    have behind : UnclosedFrom (before ++ blockText body last) after :=
      ih (Option.map_eq_none_iff.1 h) (decide_eq_false (getLast?_blockText_ne ended before)).symm
    rw [split]
    exact behind.append
  | case5 escaped reversed c rest noBlock ih =>
    have behind : UnclosedFrom (before ++ [c]) rest := ih h (by simp)
    exact behind.append

/-- The one range of a text that is all of it is that of a block. -/
theorem block_of_ranges (h : piecesFrom escaped reversed cs = some pieces)
    (whole : ranges offset pieces = [(offset, offset + byteLength (reversed.reverse ++ cs))]) :
    ∃ body, pieces = [.block body] := by
  fun_induction piecesFrom escaped reversed cs generalizing pieces with
  | case1 _ reversed =>
    cases h
    rw [← List.append_nil (literalPiece _), ranges_literalPiece] at whole
    cases whole
  | case2 _ _ ih => exact ih h (by simpa using whole)
  | case3 => cases h
  | case4 _ reversed rest _ body after closed ih =>
    obtain ⟨others, hothers, rfl⟩ := Option.map_eq_some_iff.1 h
    obtain ⟨last, split, ended⟩ := exists_blockText closed
    rw [ranges_block] at whole
    obtain ⟨range, behind⟩ := List.cons.inj whole
    obtain ⟨front, size⟩ := Prod.mk.inj range
    obtain rfl : reversed = [] := by simpa using eq_nil_of_byteLength (Nat.add_eq_left.1 front)
    have none : byteLength after = 0 := by
      have empty : byteLength ([] : List Char).reverse = 0 := rfl
      rw [split, Lexer.byteLength_append, Lexer.byteLength_append, byteLength_blockText ended,
        empty] at size
      omega
    obtain rfl := eq_nil_of_byteLength none
    rw [piecesFrom_nil] at hothers
    cases hothers
    exact ⟨body, rfl⟩
  | case5 _ _ _ _ _ ih => exact ih h (by simpa using whole)

end StepFlow.Template
