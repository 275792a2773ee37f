import StepFlow.Proofs.Template.Balanced

/-!
# Braces and their partners

In a text of which every brace has its partner, a brace that opens is followed by such a text and
the brace that closes it, and braces between quotes do not count. The brace that closes a block is
the one that has such a text in front of it. There is at most one. If the search comes to the end of
a text, there is none; if it ends at a brace that closes, this is the one. It ends at another brace
only if more are open than are counted.
-/

namespace StepFlow.Template

/-- What can stand between two quotes of one kind: a quote only behind a backslash. -/
inductive Quoted (quote : Char) : List Char → Prop
  | nil : Quoted quote []
  | plain {c cs} (noQuote : c ≠ quote) (noEscape : c ≠ '\\') (rest : Quoted quote cs) :
      Quoted quote (c :: cs)
  | escaped {c cs} (rest : Quoted quote cs) : Quoted quote ('\\' :: c :: cs)

/-- Texts of which every brace outside of quotes has its partner. -/
inductive Paired : List Char → Prop
  | nil : Paired []
  | plain {c cs} (noDelimiter : ¬IsDelimiter c) (rest : Paired cs) : Paired (c :: cs)
  | quoted {quote inside cs} (quotes : quote = '\'' ∨ quote = '"') (between : Quoted quote inside)
    (rest : Paired cs) : Paired (quote :: inside ++ quote :: cs)
  | braces {inside cs} (between : Paired inside) (rest : Paired cs) :
    Paired ('\x7b' :: inside ++ '\x7d' :: cs)

variable {quote : Char} {v w inside body after rest : List Char} {depth : Nat} {s : SearchState}

theorem Paired.append (hv : Paired v) (hw : Paired w) : Paired (v ++ w) := by
  induction hv with
  | nil => exact hw
  | plain noDelimiter _ ih => exact .plain noDelimiter ih
  | quoted quotes between _ ih =>
    rw [List.append_assoc, List.cons_append]
    exact .quoted quotes between ih
  | braces between _ _ ih =>
    rw [List.append_assoc, List.cons_append]
    exact .braces between ih

/-! ## Partners are unique -/

theorem Quoted.unique (hv : Quoted quote v) (hw : Quoted quote w)
    (same : v ++ quote :: after = w ++ quote :: rest) (other : quote ≠ '\\') :
    v = w ∧ after = rest := by
  induction hv generalizing w with
  | nil =>
    cases hw with
    | nil => exact ⟨rfl, (List.cons.inj same).2⟩
    | plain noQuote => exact (noQuote (List.cons.inj same).1.symm).elim
    | escaped => exact (other (List.cons.inj same).1).elim
  | plain noQuote noEscape _ ih =>
    cases hw with
    | nil => exact (noQuote (List.cons.inj same).1).elim
    | plain _ _ behind =>
      obtain ⟨rfl, tails⟩ := List.cons.inj same
      obtain ⟨rfl, rest⟩ := ih behind tails
      exact ⟨rfl, rest⟩
    | escaped => exact (noEscape (List.cons.inj same).1).elim
  | escaped _ ih =>
    cases hw with
    | nil => exact (other (List.cons.inj same).1.symm).elim
    | plain _ noEscape => exact (noEscape (List.cons.inj same).1.symm).elim
    | escaped behind =>
      obtain ⟨rfl, tails⟩ := List.cons.inj (List.cons.inj same).2
      obtain ⟨rfl, rest⟩ := ih behind tails
      exact ⟨rfl, rest⟩

/-- A brace has at most one partner. -/
theorem Paired.unique (hv : Paired v) (hw : Paired w)
    (same : v ++ '\x7d' :: after = w ++ '\x7d' :: rest) : v = w := by
  have noQuote {quote : Char} (h : quote = '\'' ∨ quote = '"') :
      quote ≠ '\x7d' ∧ quote ≠ '\x7b' := by
    rcases h with rfl | rfl <;> decide
  have delimiter {quote : Char} (h : quote = '\'' ∨ quote = '"') :
      IsDelimiter quote := .inr (.inr h)
  induction hv generalizing w after rest with
  | nil =>
    cases hw with
    | nil => rfl
    | plain noDelimiter => exact (noDelimiter (.inr (.inl (List.cons.inj same).1.symm))).elim
    | quoted quotes => exact ((noQuote quotes).1 (List.cons.inj same).1.symm).elim
    | braces => cases (List.cons.inj same).1
  | plain noDelimiter _ ih =>
    cases hw with
    | nil => exact (noDelimiter (.inr (.inl (List.cons.inj same).1))).elim
    | plain _ behind =>
      obtain ⟨rfl, tails⟩ := List.cons.inj same
      rw [ih behind tails]
    | quoted quotes => exact (noDelimiter ((List.cons.inj same).1 ▸ delimiter quotes)).elim
    | braces => exact (noDelimiter (.inl (List.cons.inj same).1)).elim
  | quoted quotes between _ ih =>
    cases hw with
    | nil => exact ((noQuote quotes).1 (List.cons.inj same).1).elim
    | plain noDelimiter => exact (noDelimiter ((List.cons.inj same).1 ▸ delimiter quotes)).elim
    | quoted _ between' behind =>
      simp only [List.append_assoc, List.cons_append] at same
      obtain ⟨rfl, tails⟩ := List.cons.inj same
      have other : _ ≠ '\\' := ne_backslash quotes
      obtain ⟨rfl, others⟩ := between.unique between' tails other
      rw [ih behind others]
    | braces => exact ((noQuote quotes).2 (List.cons.inj same).1).elim
  | braces _ _ ihInside ih =>
    cases hw with
    | nil => cases (List.cons.inj same).1
    | plain noDelimiter => exact (noDelimiter (.inl (List.cons.inj same).1.symm)).elim
    | quoted quotes => exact ((noQuote quotes).2 (List.cons.inj same).1.symm).elim
    | braces between' behind =>
      simp only [List.append_assoc, List.cons_append] at same
      obtain ⟨-, tails⟩ := List.cons.inj same
      obtain rfl := ihInside between' tails
      rw [ih behind (List.cons.inj (List.append_cancel_left tails)).2]

/-! ## The search passes over pairs -/

/-- A search in a text between quotes gets to its end. -/
theorem Quoted.run_eq (h : Quoted quote inside) (depth : Nat) :
    run (depth, .quoted quote) inside = some (depth, .quoted quote) := by
  induction h with
  | nil => rfl
  | plain noQuote noEscape _ ih => rwa [run_cons, step_quoted noEscape noQuote]
  | escaped _ ih => exact ih

/-- Behind pairs that the search gets through, as many braces are open as in front of them. -/
theorem Paired.eq_of_run (h : Paired w) (through : run (depth, .outside) w = some s) :
    s = (depth, .outside) := by
  induction h generalizing depth s with
  | nil =>
    cases through
    rfl
  | plain noDelimiter _ ih =>
    rw [run_cons, step_plain noDelimiter] at through
    exact ih through
  | quoted quotes between _ ih =>
    rw [List.cons_append, run_cons, step_quote quotes, Option.bind_some,
      run_append_of (between.run_eq depth), run_cons, step_endQuote (ne_backslash quotes)]
        at through
    exact ih through
  | braces _ _ ihInside ih =>
    rw [List.cons_append, run_cons] at through
    obtain ⟨t, opened, through⟩ := Option.bind_eq_some_iff.1 through
    obtain ⟨u, inside, behind⟩ := exists_run_of_append through
    obtain rfl : t = (depth + 1, .outside) := by
      rw [step, if_pos rfl] at opened
      split at opened <;> cases opened
      rfl
    obtain rfl := ihInside inside
    exact ih behind

/-- A text that the search gets through does not have the partner of the brace in front of it. -/
theorem not_paired_of_run (h : run start v = some s) (split : v = body ++ '\x7d' :: after) :
    ¬Paired body := by
  intro paired
  rw [split] at h
  obtain ⟨t, through, behind⟩ := exists_run_of_append h
  obtain rfl := paired.eq_of_run through
  cases behind

/-! ## What the search passes over is made of pairs -/

/-- Texts that close a number of braces which they did not open, and open a number of braces which
they do not close. -/
inductive Crosses : Nat → Nat → List Char → Prop
  | paired {v : List Char} (pairs : Paired v) : Crosses 0 0 v
  | closes {m n : Nat} {v w : List Char} (pairs : Paired v) (behind : Crosses m n w) :
    Crosses (m + 1) n (v ++ '\x7d' :: w)
  | opens {n : Nat} {v w : List Char} (pairs : Paired v) (behind : Crosses 0 n w) :
    Crosses 0 (n + 1) (v ++ '\x7b' :: w)

variable {m n : Nat}

theorem Crosses.cons (h : Crosses m n w) (hv : Paired v) : Crosses m n (v ++ w) := by
  cases h with
  | paired pairs => exact .paired (hv.append pairs)
  | closes pairs behind =>
    rw [← List.append_assoc]
    exact .closes (hv.append pairs) behind
  | opens pairs behind =>
    rw [← List.append_assoc]
    exact .opens (hv.append pairs) behind

/-- A brace that opens is closed by the first one that was too many. -/
theorem Crosses.of_open (h : Crosses (m + 1) n w) : Crosses m n ('\x7b' :: w) := by
  cases h with
  | @closes _ _ inside rest pairs behind =>
    have pair : Paired ('\x7b' :: inside ++ ['\x7d']) := .braces pairs .nil
    have split : '\x7b' :: (inside ++ '\x7d' :: rest) = '\x7b' :: inside ++ ['\x7d'] ++ rest := by
      simp
    rw [split]
    exact behind.cons pair

/-- What a search passes over on its way out of the texts between quotes, if there are so many
braces open in front and behind. -/
def Passes (front back : Nat) : Place → List Char → Prop
  | .outside, w => ∃ m n, m ≤ front ∧ front + n = back + m ∧ Crosses m n w
  | .quoted quote, w =>
    ∃ inside behind, w = inside ++ quote :: behind ∧ Quoted quote inside ∧
      ∃ m n, m ≤ front ∧ front + n = back + m ∧ Crosses m n behind
  | .escaped quote, w =>
    ∃ c inside behind, w = c :: (inside ++ quote :: behind) ∧ Quoted quote inside ∧
      ∃ m n, m ≤ front ∧ front + n = back + m ∧ Crosses m n behind

/-- A character that the search takes in a text between quotes belongs to it or ends it. -/
theorem passes_quoted {place : Place} {depth' back : Nat}
    (first : step (depth, .quoted quote) c = some (depth', place))
    (behind : Passes depth' back place w) : Passes depth back (.quoted quote) (c :: w) := by
  rw [step] at first
  by_cases escape : c = '\\'
  · rw [if_pos escape] at first
    cases first
    obtain ⟨d, inside, behind, rfl, between, crosses⟩ := behind
    exact ⟨'\\' :: d :: inside, behind, by rw [escape]; rfl, .escaped between, crosses⟩
  · rw [if_neg escape] at first
    by_cases ends : c = quote
    · rw [if_pos ends] at first
      cases first
      exact ⟨[], w, by rw [ends]; rfl, .nil, behind⟩
    · rw [if_neg ends] at first
      cases first
      obtain ⟨inside, behind, rfl, between, crosses⟩ := behind
      exact ⟨c :: inside, behind, rfl, .plain ends escape between, crosses⟩

/-- A character that the search takes outside of quotes opens a pair, is a brace that closes, or is
passed over. -/
theorem passes_outside {place : Place} {depth' back : Nat}
    (first : step (depth, .outside) c = some (depth', place))
    (behind : Passes depth' back place w) : Passes depth back .outside (c :: w) := by
  rw [step] at first
  by_cases opens : c = '\x7b'
  · subst opens
    rw [if_pos rfl] at first
    split at first <;> cases first
    obtain ⟨m, n, most, same, crosses⟩ := behind
    cases m with
    | zero => exact ⟨0, n + 1, Nat.zero_le _, by omega, .opens (v := []) .nil crosses⟩
    | succ m => exact ⟨m, n, by omega, by omega, crosses.of_open⟩
  · rw [if_neg opens] at first
    by_cases closes : c = '\x7d'
    · subst closes
      rw [if_pos rfl] at first
      split at first <;> cases first
      obtain ⟨m, n, most, same, crosses⟩ := behind
      exact ⟨m + 1, n, by omega, by omega, .closes (v := []) .nil crosses⟩
    · rw [if_neg closes] at first
      by_cases quotes : c = '\'' ∨ c = '"'
      · rw [if_pos quotes] at first
        cases first
        obtain ⟨inside, behind, rfl, between, m, n, most, same, crosses⟩ := behind
        have pair : Paired (c :: inside ++ [c]) := .quoted quotes between .nil
        have split : c :: (inside ++ c :: behind) = c :: inside ++ [c] ++ behind := by simp
        exact ⟨m, n, most, same, split ▸ crosses.cons pair⟩
      · rw [if_neg quotes] at first
        cases first
        obtain ⟨m, n, most, same, crosses⟩ := behind
        have plain : ¬IsDelimiter c := by simp [IsDelimiter, opens, closes, not_or.1 quotes]
        exact ⟨m, n, most, same, crosses.cons (.plain plain .nil)⟩

theorem passes_of_run {place : Place} {back : Nat}
    (h : run (depth, place) w = some (back, .outside)) : Passes depth back place w := by
  induction w generalizing depth place with
  | nil =>
    cases h
    exact ⟨0, 0, Nat.zero_le _, rfl, .paired .nil⟩
  | cons c w ih =>
    obtain ⟨⟨depth', place'⟩, first, rest⟩ := Option.bind_eq_some_iff.1 ((run_cons ..).symm.trans h)
    cases place with
    | outside => exact passes_outside first (ih rest)
    | quoted quote => exact passes_quoted first (ih rest)
    | escaped quote =>
      cases first
      obtain ⟨inside, behind, rfl, between, crosses⟩ := ih rest
      exact ⟨c, inside, behind, rfl, between, crosses⟩

/-- From the beginning of a block, the search passes over pairs and braces that are not closed. -/
theorem crosses_of_run (h : run start w = some (n, .outside)) : Crosses 0 n w := by
  obtain ⟨m, n', most, same, crosses⟩ := passes_of_run h
  obtain rfl : m = 0 := Nat.le_zero.1 most
  rwa [show n' = n by omega] at crosses

/-- A balanced text is made of pairs. -/
theorem Balanced.paired (h : Balanced 0 w) : Paired w := by
  cases crosses_of_run h with
  | paired pairs => exact pairs

/-! ## Blocks that end at the partner of their brace -/

/-- The blocks of a text end at the braces that close them. -/
def BlocksClose (s : String) : Prop :=
  ∀ pieces, pieces? s.toList = some pieces → ∀ body, .block body ∈ pieces → Paired body

theorem BlocksClose.balanced {s : String} (h : BlocksClose s) {pieces : List Piece}
    (template : pieces? s.toList = some pieces) (hb : .block body ∈ pieces) : Balanced 0 body := by
  obtain ⟨_, _, _, -, ⟨balanced, -⟩ | ⟨through, -⟩⟩ := split_of_mem_pieces template hb
  · exact balanced
  · have same := (h pieces template body hb).eq_of_run through
    exact through.trans (congrArg some same)

/-- The braces that a text leaves open are among those that it opens. -/
theorem Crosses.le_count (h : Crosses m n w) : n ≤ w.count '\x7b' := by
  induction h with
  | paired => exact Nat.zero_le _
  | closes _ _ ih =>
    rw [List.count_append, List.count_cons_of_ne (by decide)]
    omega
  | opens _ _ ih =>
    rw [List.count_append, List.count_cons_self]
    omega

/-- A block that leaves as many braces open as are counted takes a long text. -/
theorem Crosses.count_block (h : Crosses 0 maxInner body) (front after : List Char) :
    2147483648 ≤ (front ++ '@' :: '\x7b' :: (body ++ '\x7b' :: after)).count '\x7b' := by
  have most : maxInner ≤ body.count '\x7b' := h.le_count
  have bound : maxInner = 2147483646 := rfl
  simp only [List.count_append, List.count_cons_self, List.count_cons]
  omega

/-- A text with fewer opening braces than are counted has no other blocks. -/
theorem blocksClose_of_count {s : String} (few : s.toList.count '\x7b' < 2147483648) :
    BlocksClose s := by
  intro pieces template body hb
  obtain ⟨front, last, after, split, ⟨balanced, -⟩ | ⟨through, rfl⟩⟩ :=
    split_of_mem_pieces template hb
  · exact balanced.paired
  · have many := (crosses_of_run through).count_block front after
    rw [← split] at many
    exact (Nat.not_lt.2 many few).elim

/-! ## Braces that are never closed -/

/-- A delimiter with a number of braces behind it that open. -/
def unclosed (braces : Nat) : String :=
  String.ofList ('@' :: '\x7b' :: List.replicate braces '\x7b')

theorem notMem_unclosed (braces : Nat) : '\x7d' ∉ (unclosed braces).toList := by
  simp [unclosed]

theorem run_replicate (h : n ≤ maxInner) :
    run start (List.replicate n '\x7b') = some (n, .outside) := by
  induction n with
  | zero => rfl
  | succ n ih =>
    rw [List.replicate_succ', run_append_of (ih (Nat.le_of_succ_le h)), run_cons, step_open h]
    rfl

/-- With one brace more than is counted, all but the last of them are a block. -/
theorem pieces?_unclosed : pieces? (unclosed (maxInner + 1)).toList =
    some [.block (List.replicate maxInner '\x7b')] := by
  have through := run_replicate (Nat.le_refl maxInner)
  have ends : step (maxInner, .outside) '\x7b' = none := by
    rw [step, if_pos rfl, if_neg (Nat.lt_irrefl _)]
  have block : splitAtClose 1 none (List.replicate maxInner '\x7b' ++ ['\x7b']) =
      some (List.replicate maxInner '\x7b', []) :=
    splitAtClose_eq_some_iff.2 ⟨_, _, rfl, through, ends⟩
  rw [pieces?, unclosed, String.toList_ofList, List.replicate_succ', piecesFrom_block block,
    piecesFrom_nil]
  rfl

theorem source?_unclosed :
    source? (unclosed (maxInner + 1)) = some (String.ofList (List.replicate maxInner '\x7b')) := by
  rw [source?, pieces?_unclosed]

/-- Written as a block of its own, a source of braces that are not closed is left open. -/
theorem source?_ofSource_replicate (positive : 0 < n) (h : n ≤ maxInner) :
    source? (ofSource (String.ofList (List.replicate n '\x7b'))) = none := by
  obtain ⟨m, rfl⟩ := Nat.exists_eq_add_one.2 positive
  have through : run start (List.replicate (m + 1) '\x7b' ++ ['\x7d']) = some (m, .outside) := by
    rw [run_append_of (run_replicate h), run_cons, step_close]
    rfl
  have chars : (ofSource (String.ofList (List.replicate (m + 1) '\x7b'))).toList =
      '@' :: '\x7b' :: (List.replicate (m + 1) '\x7b' ++ ['\x7d']) := by
    simp only [ofSource, String.toList_append, String.toList_ofList]
    rfl
  rw [source?, pieces?, chars, piecesFrom_unclosed [] (splitAtClose_eq_none_iff.2 ⟨_, through⟩)]

end StepFlow.Template
