import StepFlow.Proofs.Template.Bytes
import StepFlow.Proofs.Template.Containment

/-!
# Cutting a template along its blocks

What stands in the blocks of a template and between them is cut out at the offsets where the blocks
begin and end. These are boundaries of characters, so nothing is cut through, and what is cut out
are the pieces that the expression of the template is made of.
-/

namespace StepFlow.Risky

open Lexer (byteLength)
open Template (Ended IsBlock Piece blockText piecesFrom literalPiece ranges)

variable {ε : Type} {s : String} {before body after cs reversed : List Char} {last : Char}
  {pieces : List Piece} {escaped : Bool}

/-- The literal text between two offsets, if there is any. -/
def literalBetween (text : String) (cursor start : Nat) : Risky ε (List Piece) :=
  if cursor < start then do
    let between ← slice text cursor start
    return [.literal between.toList]
  else pure []

/-- Cuts a text from an offset on into pieces, along the ranges of the blocks there. -/
def cut (text : String) (cursor : Nat) : List (Nat × Nat) → Risky ε (List Piece)
  | [] => literalBetween text cursor text.utf8ByteSize
  | (start, stop) :: others => do
    let literal ← literalBetween text cursor start
    let body ← slice text (start + 2) (stop - 1)
    let pieces ← cut text stop others
    return literal ++ .block body.toList :: pieces

/-- The expression that a text is, if it holds a block. -/
def expressionSource (text : String) : Risky ε (Option String) := do
  match ← findBlocks text with
  | none => return none
  | some blocks =>
    if blocks = [] then return none
    else if blocks = [(0, text.utf8ByteSize)] then
      let body ← slice text 2 (text.utf8ByteSize - 1)
      return some body
    else
      let pieces ← cut text 0 blocks
      return some (String.ofList (Template.joinSource pieces))

theorem literalBetween_eq (split : s = String.ofList (before ++ (reversed.reverse ++ after))) :
    literalBetween s (byteLength before) (byteLength before + byteLength reversed.reverse) =
      (sure (.ok (literalPiece reversed)) : Risky ε _) := by
  cases reversed with
  | nil => exact if_neg (Nat.lt_irrefl _)
  | cons c rest =>
    have some : byteLength before < byteLength before + byteLength (c :: rest).reverse := by
      have last : 0 < byteLength [c] := c.utf8Size_pos
      rw [List.reverse_cons, Lexer.byteLength_append]
      omega
    rw [literalBetween, if_pos some, slice_ofList split, sure_ok_bind, String.toList_ofList]
    rfl

/-- What is inside of a block lies between its two delimiters. -/
theorem slice_body (split : s = String.ofList (before ++ (blockText body last ++ after))) :
    slice s (byteLength before + 2) (byteLength before + byteLength body + 3 - 1) =
      (sure (.ok (String.ofList body)) : Risky ε _) := by
  have inside : s = String.ofList ((before ++ ['@', '\x7b']) ++ (body ++ last :: after)) := by
    rw [split]
    simp [blockText]
  have start : byteLength (before ++ ['@', '\x7b']) = byteLength before + 2 :=
    Lexer.byteLength_append ..
  have stop : byteLength before + byteLength body + 3 - 1 =
      byteLength (before ++ ['@', '\x7b']) + byteLength body := by
    rw [start]
    omega
  rw [stop, ← start]
  exact slice_ofList inside

/-- Cutting along the ranges of some pieces gives the pieces. `reversed` is the text behind the last
of those that are cut out already. -/
theorem cut_ranges (h : piecesFrom escaped reversed cs = some pieces)
    (split : s = String.ofList (before ++ (reversed.reverse ++ cs))) :
    cut s (byteLength before) (ranges (byteLength before) pieces) =
      (sure (.ok pieces) : Risky ε _) := by
  fun_induction piecesFrom escaped reversed cs generalizing pieces before with
  | case1 _ reversed =>
    cases h
    have size : s.utf8ByteSize = byteLength before + byteLength reversed.reverse := by
      rw [split, Lexer.utf8ByteSize_ofList, Lexer.byteLength_append, List.append_nil]
    rw [← List.append_nil (literalPiece _), Template.ranges_literalPiece, List.append_nil,
      ranges, cut, size]
    exact literalBetween_eq split
  | case2 reversed rest ih => exact ih h (by simpa using split)
  | case3 => cases h
  | case4 escaped reversed rest noEscape body after closed ih =>
    obtain ⟨others, hothers, rfl⟩ := Option.map_eq_some_iff.1 h
    obtain ⟨last, text, ended⟩ := Template.exists_blockText closed
    have block : s = String.ofList
        (before ++ reversed.reverse ++ (blockText body last ++ after)) := by
      rw [split, text, List.append_assoc]
    have behind : s = String.ofList
        (before ++ reversed.reverse ++ blockText body last ++ after) := by
      rw [block, List.append_assoc _ _ after]
    have stop : byteLength (before ++ reversed.reverse) + byteLength body + 3 =
        byteLength (before ++ reversed.reverse ++ blockText body last) := by
      rw [Lexer.byteLength_append _ (blockText body last), Template.byteLength_blockText ended,
        Nat.add_assoc]
    rw [Template.ranges_block, cut, literalBetween_eq split, sure_ok_bind,
      ← Lexer.byteLength_append, slice_body block, sure_ok_bind, String.toList_ofList, stop,
      ih hothers behind]
    rfl
  | case5 escaped reversed c rest noBlock ih => exact ih h (by simpa using split)

/-- One block that is the whole text has the range of the text. -/
theorem whole_of_blockText (text : s.toList = blockText body last) (ended : Ended body last) :
    ranges 0 [.block body] = [(0, s.utf8ByteSize)] ∧
      slice s 2 (s.utf8ByteSize - 1) = (sure (.ok (String.ofList body)) : Risky ε _) := by
  have split : s = String.ofList ([] ++ (blockText body last ++ [])) :=
    String.toList_inj.1 (by simpa using text)
  have size : s.utf8ByteSize = 0 + byteLength body + 3 := by
    rw [split, Lexer.utf8ByteSize_ofList, List.nil_append, List.append_nil,
      Template.byteLength_blockText ended, Nat.zero_add]
  rw [size]
  exact ⟨rfl, slice_body split⟩

/-- The expression that is put together is that of the pieces. -/
theorem expressionSource_eq (s : String) :
    expressionSource s = (sure (.ok (Template.source? s)) : Risky ε _) := by
  rw [expressionSource, findBlocks_eq, sure_ok_bind]
  cases found : Template.pieces? s.toList with
  | none =>
    rw [Template.source?, found]
    rfl
  | some pieces =>
    by_cases whole : ∃ body, pieces = [.block body]
    · obtain ⟨body, rfl⟩ := whole
      obtain ⟨last, text, ended⟩ : ∃ last, s.toList = blockText body last ∧ Ended body last := by
        have written := Template.written_of_piecesFrom found
        generalize s.toList = cs at written ⊢
        obtain _ | _ | ⟨ended, nothing⟩ := written
        cases nothing
        exact ⟨_, by simp [blockText], ended⟩
      obtain ⟨one, part⟩ := whole_of_blockText (ε := ε) text ended
      rw [Template.source?, found, Option.map_some, one]
      dsimp only
      rw [if_neg (List.cons_ne_nil (0, s.utf8ByteSize) []), if_pos rfl, part]
      rfl
    · have several : ∀ body, pieces ≠ [.block body] := fun body one => whole ⟨body, one⟩
      have front : s = String.ofList ([] ++ ([] ++ s.toList)) := String.ofList_toList.symm
      have all : cut s 0 (ranges 0 pieces) = (sure (.ok pieces) : Risky ε _) :=
        cut_ranges found front
      have part : ranges 0 pieces ≠ [(0, s.utf8ByteSize)] := by
        intro same
        have size : s.utf8ByteSize = 0 + byteLength ([].reverse ++ s.toList) := by
          rw [List.reverse_nil, List.nil_append, ← Lexer.utf8ByteSize_ofList, String.ofList_toList,
            Nat.zero_add]
        exact whole (Template.block_of_ranges found (same.trans (by rw [← size])))
      rw [Template.source?_of_pieces? found several, Option.map_some]
      dsimp only
      by_cases blocks : ranges 0 pieces = []
      · rw [if_pos blocks, Template.ranges_eq_nil.1 blocks]
        rfl
      · have any : pieces.any Piece.isBlock = true := by
          rwa [Template.ranges_eq_nil, Bool.not_eq_false] at blocks
        rw [if_neg blocks, if_neg part, all, any, if_pos rfl]
        rfl

/-- The search for the blocks of a text ends, and neither the search nor cutting the text cuts
through a character. The ranges that are found follow upon each other. Each begins at a
delimiter that is not escaped and ends behind the brace that closes it, or behind a brace that
opens when 2147483646 inner ones are open; this takes a text with 2147483648 braces. A
delimiter that is in none of them is escaped. There are no ranges only if a delimiter that is
not escaped is never closed. -/
theorem blocks_on_boundaries (s : String) :
    ∃ found : Option (List (Nat × Nat)),
      findBlocks s = (sure (.ok found) : Risky ε _) ∧
      expressionSource s = (sure (.ok (Template.source? s)) : Risky ε _) ∧
      (∀ blocks, found = some blocks → Template.BlocksFrom [] s.toList blocks ∧
        (s.toList.count '\x7b' < 2147483648 → ∀ range ∈ blocks,
          ∃ body, IsBlock s.toList range body '\x7d' ∧ Template.Paired body)) ∧
      (found = none → Template.UnclosedFrom [] s.toList) := by
  refine ⟨_, findBlocks_eq s, expressionSource_eq s, fun blocks h => ?_, fun h => ?_⟩
  · obtain ⟨pieces, found, rfl⟩ := Option.map_eq_some_iff.1 h
    have blocks : Template.BlocksFrom [] s.toList (ranges 0 pieces) :=
      Template.blocksFrom_of_piecesFrom found rfl rfl
    refine ⟨blocks, fun few range hr => ?_⟩
    obtain ⟨body, last, isBlock, ended⟩ := blocks.isBlock range hr
    cases ended with
    | closed paired => exact ⟨body, isBlock, paired⟩
    | full crosses =>
      obtain ⟨before, after, split, -⟩ := isBlock
      have many := crosses.count_block before after
      have block : s.toList = before ++ '@' :: '\x7b' :: (body ++ '\x7b' :: after) := by
        rw [← List.nil_append s.toList, split, blockText]
        simp
      rw [← block] at many
      exact (Nat.not_lt.2 many few).elim
  · exact Template.unclosedFrom_of_piecesFrom (Option.map_eq_none_iff.1 h) rfl

theorem byteLength_replicate (n : Nat) : byteLength (List.replicate n '\x7b') = n := by
  induction n with
  | zero => rfl
  | succ n ih =>
    have one : byteLength ['\x7b'] = 1 := rfl
    rw [List.replicate_succ', Lexer.byteLength_append, ih, one]

/-- The block of a text with 2147483648 braces that open ends with the last one,
though none closes it. -/
theorem unclosed_block_ends :
    findBlocks (Template.unclosed 2147483647) =
        (sure (.ok (some [(0, 2147483649)])) : Risky Unit _) ∧
      '\x7d' ∉ (Template.unclosed 2147483647).toList := by
  have most : 2147483647 = Template.maxInner + 1 := rfl
  constructor
  · rw [most, findBlocks_eq, Template.pieces?_unclosed, Option.map_some, ranges,
      byteLength_replicate]
    rfl
  · exact Template.notMem_unclosed _

/-- A backslash takes along the first byte of a character, and braces between
quotes do not count. -/
example :
    findBlocks "é@\x7b'\\é\x7d'\x7d@@\x7bü@\x7ba\x7d" =
      (sure (.ok (some [(2, 11), (16, 20)])) : Risky ε _) := by
  have found : (Template.pieces? "é@\x7b'\\é\x7d'\x7d@@\x7bü@\x7ba\x7d".toList).map (ranges 0) =
      some [(2, 11), (16, 20)] := by decide +kernel
  rw [findBlocks_eq, found]

end StepFlow.Risky
