import StepFlow.Proofs.Template.Ranges

/-!
# Finding blocks among bytes

The blocks of a template are looked for among its bytes. Here this is written down with the items
and parts of the text that are taken. None of these is out of range or cuts through a character:
what is looked for are characters of one byte each and the bytes of others are passed over, even
where a backslash takes along the first of them only. So the search among the bytes ends where the
one among the characters does, and the ranges that it finds are those of the pieces.
-/

namespace StepFlow.Risky

open Lexer (byteLength)
open Template (Opens blockText countBraces piecesFrom splitAtClose literalPiece ranges)

variable {ε : Type}

/-! ## The search -/

/-- Goes on up to the byte behind the brace with which a block ends, counting the open braces in 32
bits. The result is the count, which is positive unless this brace was found, and the offset. -/
def closeFrom (bs : List UInt8) (j : Nat) (depth : Int32) (quote : Option UInt8) : Int32 × Nat :=
  if h : j < bs.length ∧ 0 < depth then
    let b := bs[j]
    match quote with
    | some q =>
      if b = '\\'.toUInt8 then closeFrom bs (j + 2) depth (some q)
      else if b = q then closeFrom bs (j + 1) depth none
      else closeFrom bs (j + 1) depth (some q)
    | none =>
      if b = '\''.toUInt8 ∨ b = '"'.toUInt8 then closeFrom bs (j + 1) depth (some b)
      else if b = '\x7b'.toUInt8 then closeFrom bs (j + 1) (depth + 1) none
      else if b = '\x7d'.toUInt8 then closeFrom bs (j + 1) (depth - 1) none
      else closeFrom bs (j + 1) depth none
  else (depth, j)
termination_by bs.length - j

theorem le_closeFrom (bs : List UInt8) (j : Nat) (depth : Int32) (quote : Option UInt8) :
    j ≤ (closeFrom bs j depth quote).2 := by
  fun_induction closeFrom bs j depth quote with
  | case8 => exact Nat.le_refl _
  | _ => omega

/-- The offset of the first opening delimiter, in bytes. -/
def findOpening : List Char → Option Nat
  | [] => none
  | c :: rest => if Opens c rest then some 0 else (findOpening rest).map (c.utf8Size + ·)

/-- Whether the byte in front of an offset escapes a delimiter there. -/
def escapedAt (text : String) (start : Nat) : Risky ε Bool :=
  if 0 < start then do
    let b ← item (bytes text) (start - 1)
    return b = '@'.toUInt8
  else pure false

/-- The ranges of the blocks from an offset on; none if a block is not closed. An offset behind the
end of the text would panic. -/
def blocksFrom (text : String) (i : Nat) : Risky ε (Option (List (Nat × Nat))) :=
  if _ : i ≤ text.utf8ByteSize then do
    let rest ← slice text i text.utf8ByteSize
    match findOpening rest.toList with
    | none => return some []
    | some offset =>
      let start := i + offset
      if ← escapedAt text start then blocksFrom text (start + 2)
      else
        let stop := closeFrom (bytes text) (start + 2) 1 none
        if 0 < stop.1 then return none
        else
          let others ← blocksFrom text stop.2
          return others.map ((start, stop.2) :: ·)
  else panic (.slice i text.utf8ByteSize)
termination_by text.utf8ByteSize + 1 - i
decreasing_by
  · omega
  · have further := le_closeFrom (bytes text) (i + offset + 2) 1 none
    omega

def findBlocks (text : String) : Risky ε (Option (List (Nat × Nat))) := blocksFrom text 0

/-! ## Closing braces among bytes and among characters -/

section Closing

variable {bs hs rest : List UInt8} {b q : UInt8} {j : Nat} {depth : Int32}
    {quote : Option Char} {c : Char}
  {cs front : List Char} {found : Option (List Char × List Char)} {ended : Int32 × Nat}

theorem getElem_of_drop (h : bs.drop j = b :: rest) : ∃ inside : j < bs.length, bs[j] = b := by
  have first : bs[j]? = some b := by rw [← List.head?_drop, h, List.head?_cons]
  exact List.getElem?_eq_some_iff.1 first

theorem drop_succ (h : bs.drop j = b :: rest) : bs.drop (j + 1) = rest := by
  rw [← List.tail_drop, h, List.tail_cons]

theorem closeFrom_of_quote (goesOn : 0 < depth) (h : bs.drop j = b :: rest) :
    closeFrom bs j depth (some q) =
      if b = '\\'.toUInt8 then closeFrom bs (j + 2) depth (some q)
      else if b = q then closeFrom bs (j + 1) depth none
      else closeFrom bs (j + 1) depth (some q) := by
  obtain ⟨inside, item⟩ := getElem_of_drop h
  rw [closeFrom, dif_pos ⟨inside, goesOn⟩, item]

theorem closeFrom_of_none (goesOn : 0 < depth) (h : bs.drop j = b :: rest) :
    closeFrom bs j depth none =
      if b = '\''.toUInt8 ∨ b = '"'.toUInt8 then closeFrom bs (j + 1) depth (some b)
      else if b = '\x7b'.toUInt8 then closeFrom bs (j + 1) (depth + 1) none
      else if b = '\x7d'.toUInt8 then closeFrom bs (j + 1) (depth - 1) none
      else closeFrom bs (j + 1) depth none := by
  obtain ⟨inside, item⟩ := getElem_of_drop h
  rw [closeFrom, dif_pos ⟨inside, goesOn⟩, item]

theorem closeFrom_of_end (h : bs.drop j = []) :
    closeFrom bs j depth (quote.map Char.toUInt8) = (depth, j) := by
  rw [closeFrom, dif_neg]
  rw [List.drop_eq_nil_iff] at h
  omega

theorem closeFrom_of_not_pos (ends : ¬0 < depth) (j : Nat) (quote : Option UInt8) :
    closeFrom bs j depth quote = (depth, j) := by
  rw [closeFrom, dif_neg fun h => ends h.2]

/-- The bytes of characters that take several are passed over, in a text between quotes or not. -/
theorem closeFrom_high (goesOn : 0 < depth) (h : bs.drop j = hs ++ rest) (high : ∀ b ∈ hs, IsHigh b)
    (single : ∀ q ∈ quote, IsSingle q) :
    closeFrom bs j depth (quote.map Char.toUInt8) =
      closeFrom bs (j + hs.length) depth (quote.map Char.toUInt8) := by
  induction hs generalizing j with
  | nil => rfl
  | cons b hs ih =>
    have other {c : Char} (hc : IsSingle c) : b ≠ c.toUInt8 := (high b List.mem_cons_self).ne hc
    have behind := ih (drop_succ h) fun b hb => high b (List.mem_cons_of_mem _ hb)
    rw [List.length_cons, Nat.add_comm hs.length, ← Nat.add_assoc, ← behind]
    cases quote with
    | none =>
      have noQuote : ¬(b = '\''.toUInt8 ∨ b = '"'.toUInt8) :=
        not_or.2 ⟨other (by decide), other (by decide)⟩
      exact (closeFrom_of_none goesOn h).trans (by
        rw [if_neg noQuote, if_neg (other (by decide)), if_neg (other (by decide))]
        rfl)
    | some q =>
      exact (closeFrom_of_quote goesOn h).trans (by
        rw [if_neg (other (by decide)), if_neg (other (single q rfl))]
        rfl)

theorem drop_bytesOf_cons (h : bs.drop j = bytesOf (c :: cs)) :
    bs.drop (j + c.utf8Size) = bytesOf cs := by
  rw [← List.drop_drop, h, bytesOf_cons, ← String.length_utf8EncodeChar, List.drop_left]

theorem drop_of_single (single : IsSingle c) (h : bs.drop j = bytesOf (c :: cs)) :
    bs.drop j = c.toUInt8 :: bytesOf cs := by
  rw [h, bytesOf_cons, utf8EncodeChar_single single, List.singleton_append]

/-- Outside of texts between quotes there is no quote. -/
theorem not_mem_none (q : Char) (h : q ∈ (none : Option Char)) : IsSingle q := nomatch h

/-- A character that takes several bytes is passed over. -/
theorem closeFrom_wide (goesOn : 0 < depth) (wide : ¬IsSingle c) (h : bs.drop j = bytesOf (c :: cs))
    (single : ∀ q ∈ quote, IsSingle q) :
    closeFrom bs j depth (quote.map Char.toUInt8) =
      closeFrom bs (j + c.utf8Size) depth (quote.map Char.toUInt8) := by
  rw [bytesOf_cons] at h
  rw [closeFrom_high goesOn h (isHigh_of_mem wide) single, String.length_utf8EncodeChar]

/-- Behind a backslash a character is passed over, though only its first byte is taken along. -/
theorem closeFrom_escape {q d : Char} (goesOn : 0 < depth) (quotes : IsSingle q)
    (h : bs.drop j = bytesOf ('\\' :: d :: cs)) :
    closeFrom bs j depth (some q.toUInt8) =
      closeFrom bs (j + 1 + d.utf8Size) depth (some q.toUInt8) := by
  have backslash := drop_of_single (by decide) h
  obtain ⟨b, hs, encoded, high⟩ := exists_utf8EncodeChar d
  have taken : bs.drop (j + 1) = b :: (hs ++ bytesOf cs) := by
    rw [drop_succ backslash, bytesOf_cons, encoded, List.cons_append]
  have others : closeFrom bs (j + 2) depth ((some q).map Char.toUInt8) =
      closeFrom bs (j + 2 + hs.length) depth ((some q).map Char.toUInt8) :=
    closeFrom_high goesOn (drop_succ taken) high fun q' hq => Option.some.inj hq ▸ quotes
  have size : j + 1 + d.utf8Size = j + 2 + hs.length := by
    rw [← String.length_utf8EncodeChar, encoded, List.length_cons]
    omega
  rw [closeFrom_of_quote goesOn backslash, if_pos rfl, size]
  exact others

/-- In a text between quotes only its quote and backslashes count. -/
theorem closeFrom_quoted {q : Char} (goesOn : 0 < depth) (quotes : IsSingle q) (noEscape : c ≠ '\\')
    (h : bs.drop j = bytesOf (c :: cs)) :
    closeFrom bs j depth (some q.toUInt8) =
      closeFrom bs (j + c.utf8Size) depth ((if c = q then none else some q).map Char.toUInt8) := by
  by_cases single : IsSingle c
  · rw [closeFrom_of_quote goesOn (drop_of_single single h), utf8Size_single single,
      if_neg (mt (toUInt8_inj single (by decide)).1 noEscape)]
    by_cases same : c = q
    · rw [if_pos (congrArg _ same), if_pos same]
      rfl
    · rw [if_neg (mt (toUInt8_inj single quotes).1 same), if_neg same]
      rfl
  · have other : c ≠ q := fun same => single (same ▸ quotes)
    have within : ∀ q' ∈ some q, IsSingle q' := fun q' hq => Option.some.inj hq ▸ quotes
    rw [if_neg other]
    exact closeFrom_wide goesOn single h within

/-- Outside of texts between quotes, quotes and braces count. -/
theorem closeFrom_char (goesOn : 0 < depth) (h : bs.drop j = bytesOf (c :: cs)) :
    closeFrom bs j depth none =
      closeFrom bs (j + c.utf8Size) (countBraces depth c)
        ((if c = '\'' ∨ c = '"' then some c else none).map Char.toUInt8) := by
  by_cases single : IsSingle c
  · have same (d : Char) (hd : IsSingle d) : c.toUInt8 = d.toUInt8 ↔ c = d := toUInt8_inj single hd
    rw [closeFrom_of_none goesOn (drop_of_single single h), utf8Size_single single, countBraces]
    simp only [same '\'' (by decide), same '"' (by decide), same '\x7b' (by decide),
      same '\x7d' (by decide)]
    by_cases quotes : c = '\'' ∨ c = '"'
    · rcases quotes with rfl | rfl <;> rfl
    · rw [if_neg quotes, if_neg quotes]
      split
      · rfl
      · split <;> rfl
  · have other (d : Char) (hd : IsSingle d) : c ≠ d := fun same => single (same ▸ hd)
    rw [countBraces, if_neg (other _ (by decide)), if_neg (other _ (by decide)),
      if_neg (not_or.2 ⟨other _ (by decide), other _ (by decide)⟩)]
    exact closeFrom_wide goesOn single h not_mem_none

/-- The search among bytes from an offset on ends as the search among characters does. -/
def Ends (j : Nat) (found : Option (List Char × List Char)) (ended : Int32 × Nat) : Prop :=
  match found with
  | some (body, _) => ¬0 < ended.1 ∧ ended.2 = j + byteLength body + 1
  | none => 0 < ended.1

theorem Ends.map {i : Nat} (h : Ends i found ended) (front : List Char)
    (place : i = j + byteLength front) :
    Ends j (found.map fun f => (front ++ f.1, f.2)) ended := by
  cases found with
  | none => exact h
  | some f =>
    refine ⟨h.1, h.2.trans ?_⟩
    rw [Lexer.byteLength_append, ← Nat.add_assoc, ← place]

theorem ends_closeFrom (goesOn : 0 < depth) (h : bs.drop j = bytesOf cs)
    (single : ∀ q ∈ quote, IsSingle q) :
    Ends j (splitAtClose depth quote cs) (closeFrom bs j depth (quote.map Char.toUInt8)) := by
  fun_induction splitAtClose depth quote cs generalizing j with
  | case1 =>
    rw [closeFrom_of_end h]
    exact goesOn
  | case2 depth q =>
    have backslash := drop_of_single (by decide) h
    have short : bs.length ≤ j + 1 := List.drop_eq_nil_iff.1 (drop_succ backslash)
    have behind : bs.drop (j + 2) = [] := List.drop_eq_nil_of_le (Nat.le_succ_of_le short)
    rw [Option.map_some, closeFrom_of_quote goesOn backslash, if_pos rfl]
    rw [← Option.map_some, closeFrom_of_end behind]
    exact goesOn
  | case3 depth q d tail ih =>
    have behind := ih goesOn (drop_bytesOf_cons (drop_bytesOf_cons h)) single
    rw [Option.map_some, closeFrom_escape goesOn (single q rfl) h]
    exact behind.map ['\\', d] (Nat.add_assoc ..)
  | case4 depth c tail q noEscape ih =>
    have quotes := single q rfl
    have behind := ih goesOn (drop_bytesOf_cons h) (by split <;> simp [quotes])
    rw [Option.map_some, closeFrom_quoted goesOn quotes noEscape h]
    exact behind.map [c] rfl
  | case5 depth c tail further ih =>
    have quotes : ∀ q ∈ (if c = '\'' ∨ c = '"' then some c else none), IsSingle q := by
      intro q hq
      split at hq
      · next isQuote =>
        obtain rfl := Option.some.inj hq
        rcases isQuote with rfl | rfl <;> decide
      · cases hq
    have behind := ih further (drop_bytesOf_cons h) quotes
    rw [Option.map_none, closeFrom_char goesOn h]
    exact behind.map [c] rfl
  | case6 depth c tail ends =>
    have isBrace : c = '\x7b' ∨ c = '\x7d' := by
      rw [countBraces] at ends
      by_cases opens : c = '\x7b'
      · exact .inl opens
      · by_cases closes : c = '\x7d'
        · exact .inr closes
        · rw [if_neg opens, if_neg closes] at ends
          exact (ends goesOn).elim
    have size : c.utf8Size = 1 := by rcases isBrace with rfl | rfl <;> rfl
    rw [Option.map_none, closeFrom_char goesOn h, closeFrom_of_not_pos ends, size]
    exact ⟨ends, rfl⟩

end Closing

/-! ## Blocks among bytes and among characters -/

section Blocks

variable {s : String} {before front cs rest reversed : List Char} {offset : Nat} {escaped : Bool}

theorem piecesFrom_of_findOpening_none (h : findOpening cs = none) :
    piecesFrom escaped reversed cs = some (literalPiece (cs.reverse ++ reversed)) := by
  induction cs generalizing escaped reversed with
  | nil => exact Template.piecesFrom_nil ..
  | cons c rest ih =>
    rw [findOpening] at h
    split at h
    · cases h
    · next noBlock =>
      rw [Template.piecesFrom_cons noBlock, ih (Option.map_eq_none_iff.1 h), List.reverse_cons,
        List.append_assoc, List.singleton_append]

/-- The search for a delimiter passes over what is split into no pieces. -/
theorem exists_of_findOpening (h : findOpening cs = some offset) :
    ∃ front rest, cs = front ++ '@' :: '\x7b' :: rest ∧ offset = byteLength front ∧
      ∀ escaped reversed, piecesFrom escaped reversed cs =
        piecesFrom (Template.endsEscaping escaped front) (front.reverse ++ reversed)
          ('@' :: '\x7b' :: rest) := by
  induction cs generalizing offset with
  | nil => cases h
  | cons c tail ih =>
    rw [findOpening] at h
    split at h
    · next opens =>
      obtain ⟨rest, rfl, rfl⟩ := opens.exists_tail
      cases h
      exact ⟨[], rest, rfl, rfl, fun _ _ => rfl⟩
    · next noBlock =>
      obtain ⟨offset', h', rfl⟩ := Option.map_eq_some_iff.1 h
      obtain ⟨front, rest, rfl, rfl, split⟩ := ih h'
      refine ⟨c :: front, rest, rfl, rfl, fun escaped reversed => ?_⟩
      rw [Template.piecesFrom_cons noBlock, split, Template.endsEscaping_cons, List.reverse_cons,
        List.append_assoc, List.singleton_append]

theorem le_of_split (split : s = String.ofList (before ++ cs)) :
    byteLength before ≤ s.utf8ByteSize := by
  rw [split, Lexer.utf8ByteSize_ofList, Lexer.byteLength_append]
  exact Nat.le_add_right ..

/-- The last byte of a text is that of the escaping character only if this is the last character. -/
theorem escapedAt_eq {after : List Char} (split : s = String.ofList (before ++ after)) :
    escapedAt s (byteLength before) =
      (sure (.ok (decide (before.getLast? = some '@'))) : Risky ε Bool) := by
  obtain rfl | ⟨init, c, concat⟩ := List.eq_nil_or_concat before
  · rfl
  · obtain rfl := concat.trans (List.concat_eq_append ..)
    obtain ⟨b, mem, whole⟩ := exists_byte_before split
    have same : b = '@'.toUInt8 ↔ (init ++ [c]).getLast? = some '@' := by
      rw [eq_toUInt8_iff mem (by decide), List.getLast?_concat, Option.some_inj]
    have positive : 0 < byteLength (init ++ [c]) := by
      rw [Lexer.byteLength_append]
      exact Nat.add_pos_right _ c.utf8Size_pos
    rw [escapedAt, if_pos positive, item, whole]
    exact congrArg (fun known => sure (.ok known)) (decide_eq_decide.2 same)

theorem closeFrom_unclosed (behind : s = String.ofList (before ++ rest))
    (unclosed : splitAtClose 1 none rest = none) :
    0 < (closeFrom (bytes s) (byteLength before) 1 none).1 := by
  have ends : Ends _ (splitAtClose 1 none rest) _ :=
    ends_closeFrom (by decide) (drop_bytes behind) not_mem_none
  rw [unclosed] at ends
  exact ends

theorem closeFrom_closed {body after : List Char}
    (behind : s = String.ofList (before ++ ['@', '\x7b'] ++ rest))
    (closed : splitAtClose 1 none rest = some (body, after)) :
    let stop := closeFrom (bytes s) (byteLength (before ++ ['@', '\x7b'])) 1 none
    ¬0 < stop.1 ∧ stop.2 = byteLength before + byteLength body + 3 := by
  have ends : Ends _ (splitAtClose 1 none rest) _ :=
    ends_closeFrom (by decide) (drop_bytes behind) not_mem_none
  have two : byteLength ['@', '\x7b'] = 2 := rfl
  rw [closed] at ends
  refine ⟨ends.1, ends.2.trans ?_⟩
  rw [Lexer.byteLength_append, two]
  omega

/-! ### Rounds of the search -/

theorem blocksFrom_nothing (split : s = String.ofList (before ++ cs))
    (first : findOpening cs = none) :
    blocksFrom s (byteLength before) = (sure (.ok (some [])) : Risky ε _) := by
  rw [blocksFrom, dif_pos (le_of_split split), slice_rest split, sure_ok_bind,
    String.toList_ofList, first]
  rfl

/-- The place behind an opening delimiter. -/
theorem behind_opening (split : s = String.ofList (before ++ (front ++ '@' :: '\x7b' :: rest))) :
    s = String.ofList (before ++ front ++ ['@', '\x7b'] ++ rest) ∧
      byteLength (before ++ front ++ ['@', '\x7b']) = byteLength (before ++ front) + 2 := by
  refine ⟨?_, Lexer.byteLength_append ..⟩
  rw [split]
  simp

/-- Coming upon an opening delimiter, the search goes on behind it if it is escaped, and behind its
block if this is closed. -/
theorem blocksFrom_round (split : s = String.ofList (before ++ (front ++ '@' :: '\x7b' :: rest)))
    (first : findOpening (front ++ '@' :: '\x7b' :: rest) = some (byteLength front)) :
    blocksFrom s (byteLength before) =
      if (before ++ front).getLast? = some '@' then
        (blocksFrom s (byteLength (before ++ front ++ ['@', '\x7b'])) : Risky ε _)
      else
        let stop := closeFrom (bytes s) (byteLength (before ++ front ++ ['@', '\x7b'])) 1 none
        if 0 < stop.1 then sure (.ok none)
        else
          blocksFrom s stop.2 >>= fun others =>
            sure (.ok (others.map ((byteLength (before ++ front), stop.2) :: ·))) := by
  have opening : s = String.ofList ((before ++ front) ++ '@' :: '\x7b' :: rest) := by
    rw [split, List.append_assoc]
  rw [blocksFrom, dif_pos (le_of_split split), slice_rest split, sure_ok_bind,
    String.toList_ofList, first]
  dsimp only
  rw [← Lexer.byteLength_append, escapedAt_eq opening, sure_ok_bind, (behind_opening split).2]
  simp only [decide_eq_true_eq]
  rfl

/-- From an offset on, the search among bytes finds the blocks that the text from there on is split
into. `reversed` is the text in front of it since the last block. -/
theorem blocksFrom_eq (split : s = String.ofList (before ++ cs)) (free : before.getLast? ≠ some '@')
    (place : byteLength before = offset + byteLength reversed.reverse) :
    blocksFrom s (byteLength before) =
      (sure (.ok ((piecesFrom false reversed cs).map (ranges offset))) : Risky ε _) := by
  induction h : cs.length using Nat.strongRecOn generalizing before cs offset reversed with
  | ind length ih =>
    cases first : findOpening cs with
    | none =>
      rw [blocksFrom_nothing split first, piecesFrom_of_findOpening_none first, Option.map_some,
        ← List.append_nil (literalPiece _), Template.ranges_literalPiece]
      rfl
    | some _ =>
      obtain ⟨front, rest, rfl, rfl, pieces⟩ := exists_of_findOpening first
      have known : Template.endsEscaping false front =
          decide ((before ++ front).getLast? = some '@') := by
        rw [← Template.endsEscaping_eq, decide_eq_false free]
      have here : byteLength (before ++ front) =
          offset + byteLength (front.reverse ++ reversed).reverse := by
        rw [List.reverse_append, List.reverse_reverse, Lexer.byteLength_append,
          Lexer.byteLength_append, place, Nat.add_assoc]
      obtain ⟨behind, start⟩ := behind_opening split
      rw [blocksFrom_round split first, pieces, known]
      by_cases escaped : (before ++ front).getLast? = some '@'
      · rw [if_pos escaped, decide_eq_true escaped, Template.piecesFrom_escaped]
        refine ih _ ?_ behind (by simp) ?_ rfl
        · rw [← h, List.length_append, List.length_cons, List.length_cons]
          omega
        · rw [start, here, List.reverse_cons, List.reverse_cons, List.append_assoc _ ['@'],
            Lexer.byteLength_append _ (['@'] ++ ['\x7b']), ← Nat.add_assoc]
          rfl
      · rw [if_neg escaped, decide_eq_false escaped]
        cases closed : splitAtClose 1 none rest with
        | none =>
          rw [Template.piecesFrom_unclosed _ closed]
          exact if_pos (closeFrom_unclosed behind closed)
        | some found =>
          obtain ⟨body, after⟩ := found
          obtain ⟨ends, stop⟩ := closeFrom_closed behind closed
          obtain ⟨last, block, ended⟩ := Template.exists_blockText closed
          have text : s = String.ofList (before ++ front ++ blockText body last ++ after) := by
            rw [split, block]
            simp only [List.append_assoc]
          have fewer : after.length < length := by
            rw [← h, block, blockText]
            simp only [List.length_append, List.length_cons]
            omega
          have place : byteLength (before ++ front ++ blockText body last) =
              byteLength (before ++ front) + byteLength body + 3 := by
            rw [Lexer.byteLength_append, Template.byteLength_blockText ended, Nat.add_assoc]
          have others : blocksFrom s (byteLength (before ++ front ++ blockText body last)) =
              sure (.ok ((piecesFrom false [] after).map
                (ranges (byteLength (before ++ front ++ blockText body last))))) :=
            ih _ fewer text (Template.getLast?_blockText_ne ended (before ++ front)) rfl rfl
          dsimp only
          rw [if_neg ends, stop, ← place, others, sure_ok_bind, Template.piecesFrom_block closed,
            Option.map_map, Option.map_map]
          simp only [Function.comp_def, Template.ranges_block, ← here, place]

/-- The ranges that are found are those of the blocks that the text is split into. -/
theorem findBlocks_eq (s : String) :
    findBlocks s = (sure (.ok ((Template.pieces? s.toList).map (ranges 0))) : Risky ε _) := by
  have whole : s = String.ofList ([] ++ s.toList) := String.ofList_toList.symm
  exact blocksFrom_eq whole (by simp) rfl

end Blocks

end StepFlow.Risky
