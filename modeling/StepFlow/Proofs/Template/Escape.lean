import StepFlow.Template

/-!
# Escaped delimiters

Writing `@` twice in front of a brace keeps a text from opening a block there, and taking the
escapes out again gives the text back. Both hold for every text, whatever runs of `@` it has.

`piecesFrom` looks at one character and possibly the next; the equations for its three cases come
first, and everything below goes through them.
-/

namespace StepFlow.Template

variable {c : Char} {rest reversed : List Char} {escaped : Bool}

/-- The opening delimiter stands at the front. -/
def Opens (c : Char) (rest : List Char) : Prop := c = '@' ∧ rest.head? = some '\x7b'

instance (c : Char) (rest : List Char) : Decidable (Opens c rest) :=
  inferInstanceAs (Decidable (_ ∧ _))

theorem Opens.exists_tail (h : Opens c rest) : ∃ tail, c = '@' ∧ rest = '\x7b' :: tail := by
  obtain ⟨hc, hr⟩ := h
  cases rest with
  | nil => cases hr
  | cons d tail =>
    cases hr
    exact ⟨tail, hc, rfl⟩

/-! ## One step of each function -/

theorem escapeChars_opening (rest : List Char) :
    escapeChars ('@' :: '\x7b' :: rest) = '@' :: '@' :: '\x7b' :: escapeChars rest := by
  rw [escapeChars]

theorem escapeChars_cons (h : ¬Opens c rest) : escapeChars (c :: rest) = c :: escapeChars rest := by
  rw [escapeChars]
  rintro tail rfl rfl
  exact h ⟨rfl, rfl⟩

theorem unescapeChars_escape (rest : List Char) :
    unescapeChars ('@' :: '@' :: '\x7b' :: rest) = '@' :: '\x7b' :: unescapeChars rest := by
  rw [unescapeChars]

theorem unescapeChars_cons (h : ∀ tail, c = '@' → rest ≠ '@' :: '\x7b' :: tail) :
    unescapeChars (c :: rest) = c :: unescapeChars rest := by
  rw [unescapeChars]
  rintro tail rfl rfl
  exact h tail rfl rfl

theorem piecesFrom_nil (escaped : Bool) (reversed : List Char) :
    piecesFrom escaped reversed [] = some (literalPiece reversed) := by
  rw [piecesFrom]

theorem piecesFrom_cons (h : ¬Opens c rest) :
    piecesFrom escaped reversed (c :: rest) = piecesFrom (c = '@') (c :: reversed) rest := by
  rw [piecesFrom]
  rintro tail rfl rfl
  exact h ⟨rfl, rfl⟩

theorem piecesFrom_escaped (reversed rest : List Char) :
    piecesFrom true reversed ('@' :: '\x7b' :: rest) =
      piecesFrom false ('\x7b' :: '@' :: reversed) rest := by
  rw [piecesFrom, if_pos rfl]

theorem piecesFrom_block {body after : List Char}
    (h : splitAtClose 1 none rest = some (body, after)) :
    piecesFrom false reversed ('@' :: '\x7b' :: rest) =
      (piecesFrom false [] after).map fun pieces =>
        literalPiece reversed ++ .block body :: pieces := by
  rw [piecesFrom, if_neg (by decide)]
  split
  · next hn => rw [h] at hn; cases hn
  · next hs =>
    rw [h] at hs
    cases hs
    rfl

theorem piecesFrom_unclosed (reversed : List Char) (h : splitAtClose 1 none rest = none) :
    piecesFrom false reversed ('@' :: '\x7b' :: rest) = none := by
  rw [piecesFrom, if_neg (by decide)]
  split
  · rfl
  · next hs => rw [h] at hs; cases hs

/-! ## Escaping and taking the escapes out -/

@[simp] theorem head?_escapeChars (cs : List Char) : (escapeChars cs).head? = cs.head? := by
  fun_cases escapeChars cs <;> rfl

theorem not_opens_escapeChars (h : ¬Opens c rest) : ¬Opens c (escapeChars rest) := by
  simpa [Opens] using h

/-- An escaped text never begins with a delimiter that would open a block. -/
theorem escapeChars_ne_opening (cs tail : List Char) : escapeChars cs ≠ '@' :: '\x7b' :: tail := by
  cases cs with
  | nil => simp [escapeChars]
  | cons c rest =>
    by_cases h : Opens c rest
    · obtain ⟨tail, rfl, rfl⟩ := h.exists_tail
      simp [escapeChars_opening]
    · rw [escapeChars_cons h]
      intro he
      obtain ⟨rfl, htail⟩ := List.cons.inj he
      exact not_opens_escapeChars h ⟨rfl, by rw [htail]; rfl⟩

@[simp] theorem unescapeChars_escapeChars (cs : List Char) :
    unescapeChars (escapeChars cs) = cs := by
  fun_induction escapeChars cs with
  | case1 rest ih => rw [unescapeChars_escape, ih]
  | case2 c rest _ ih =>
    rw [unescapeChars_cons, ih]
    intro tail _
    exact escapeChars_ne_opening rest tail
  | case3 => rfl

@[simp] theorem unescape_escape (s : String) : unescape (escape s) = s := by
  simp [unescape, escape]

/-! ## Escaped text between blocks -/

/-- Whether the character in front of what follows a text is an `@`, given what is
in front of the text. -/
def endsEscaping (escaped : Bool) (cs : List Char) : Bool :=
  match cs.getLast? with
  | some c => c = '@'
  | none => escaped

theorem endsEscaping_cons (c : Char) (rest : List Char) :
    endsEscaping escaped (c :: rest) = endsEscaping (c = '@') rest := by
  cases rest with
  | nil => rfl
  | cons d tail =>
    rw [endsEscaping, endsEscaping, List.getLast?_cons_cons, List.getLast?_cons]

theorem endsEscaping_eq (before cs : List Char) :
    endsEscaping (before.getLast? = some '@') cs = decide ((before ++ cs).getLast? = some '@') := by
  rw [endsEscaping, List.getLast?_append]
  cases cs.getLast? with
  | none => rfl
  | some c => simp

/-- An escaped text is passed over as it is, up to what follows it. -/
theorem piecesFrom_escapeChars_append (cs : List Char) (hrest : rest.head? ≠ some '\x7b') :
    piecesFrom escaped reversed (escapeChars cs ++ rest) =
      piecesFrom (endsEscaping escaped cs) ((escapeChars cs).reverse ++ reversed) rest := by
  fun_induction escapeChars cs generalizing escaped reversed with
  | case1 tail ih =>
    have first : ¬Opens '@' ('@' :: '\x7b' :: (escapeChars tail ++ rest)) := by simp [Opens]
    simp only [List.cons_append]
    rw [piecesFrom_cons first, decide_eq_true rfl, piecesFrom_escaped, ih,
      endsEscaping_cons, endsEscaping_cons]
    simp
  | case2 c tail h ih =>
    have hc : ¬Opens c (escapeChars tail ++ rest) := by
      rintro ⟨rfl, hh⟩
      cases tail with
      | nil => exact hrest (by simpa [escapeChars] using hh)
      | cons d tail' =>
        refine h tail' rfl ?_
        simpa [List.head?_append] using hh
    rw [List.cons_append, piecesFrom_cons hc, ih, endsEscaping_cons]
    simp
  | case3 => simp [endsEscaping]

/-- An escaped text is one literal. -/
theorem pieces?_escapeChars (cs : List Char) :
    pieces? (escapeChars cs) = some (literalPiece (escapeChars cs).reverse) := by
  have h : piecesFrom false [] (escapeChars cs ++ []) =
      piecesFrom (endsEscaping false cs) ((escapeChars cs).reverse ++ []) [] :=
    piecesFrom_escapeChars_append cs (by simp)
  rw [List.append_nil, List.append_nil, piecesFrom_nil] at h
  exact h

/-- An escaped text is no expression. -/
@[simp] theorem source?_escape (s : String) : source? (escape s) = none := by
  have h : pieces? (escape s).toList = some (literalPiece (escapeChars s.toList).reverse) := by
    rw [escape, String.toList_ofList, pieces?_escapeChars]
  rw [source?, h]
  cases (escapeChars s.toList).reverse with
  | nil => rfl
  | cons c rest => rfl

end StepFlow.Template
