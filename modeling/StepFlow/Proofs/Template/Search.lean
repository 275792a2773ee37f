import StepFlow.Proofs.Template.Escape

/-!
# The search for the brace that ends a block

The search goes through a block character by character, with the number of the inner braces that
are open and with whether it is in a text between quotes. Each character takes it on until one does
not: the brace that closes the block, with no inner brace open, or a brace that opens when as many
are open as can be counted. So a block is a text that the search gets through, in front of a
character that it does not.
-/

namespace StepFlow.Template

/-- The most inner braces that are counted. The brace that opens the block is counted with them. -/
def maxInner : Nat := 2147483646

/-- Where the search is: outside of texts between quotes, in one, or in one behind a backslash. -/
inductive Place where
  | outside
  | quoted (quote : Char)
  | escaped (quote : Char)
deriving DecidableEq

/-- What the search goes by: the inner braces that are open and where it is. -/
abbrev SearchState : Type := Nat × Place

/-- One character of the search, which gives nothing if the search ends with it. -/
def step : SearchState → Char → Option SearchState
  | (depth, .outside), c =>
    if c = '\x7b' then if depth < maxInner then some (depth + 1, .outside) else none
    else if c = '\x7d' then if 0 < depth then some (depth - 1, .outside) else none
    else some (depth, if c = '\'' ∨ c = '"' then .quoted c else .outside)
  | (depth, .quoted quote), c =>
    some (depth, if c = '\\' then .escaped quote else if c = quote then .outside else .quoted quote)
  | (depth, .escaped quote), _ => some (depth, .quoted quote)

def run (s : SearchState) (w : List Char) : Option SearchState := w.foldlM step s

def start : SearchState := (0, .outside)

variable {s s' : SearchState} {c quote : Char} {cs v w body after : List Char} {depth : Nat}

@[simp] theorem run_nil (s : SearchState) : run s [] = some s := rfl

@[simp] theorem run_cons (s : SearchState) (c : Char) (w : List Char) :
    run s (c :: w) = (step s c).bind (run · w) := List.foldlM_cons

@[simp] theorem run_append (s : SearchState) (v w : List Char) :
    run s (v ++ w) = (run s v).bind (run · w) := List.foldlM_append

theorem run_append_of (h : run s v = some s') (w : List Char) : run s (v ++ w) = run s' w := by
  rw [run_append, h, Option.bind_some]

/-- What the search gets through it gets through the front of. -/
theorem exists_run_of_append (h : run s (v ++ w) = some s') :
    ∃ t, run s v = some t ∧ run t w = some s' := by
  rw [run_append] at h
  exact Option.bind_eq_some_iff.1 h

/-! ## One character -/

theorem step_open (h : depth < maxInner) :
    step (depth, .outside) '\x7b' = some (depth + 1, .outside) := by
  rw [step, if_pos rfl, if_pos h]

theorem step_close (depth : Nat) :
    step (depth + 1, .outside) '\x7d' = some (depth, .outside) := rfl

theorem step_quote (h : quote = '\'' ∨ quote = '"') (depth : Nat) :
    step (depth, .outside) quote = some (depth, .quoted quote) := by
  rcases h with rfl | rfl <;> rfl

theorem ne_backslash (h : quote = '\'' ∨ quote = '"') : quote ≠ '\\' := by
  rcases h with rfl | rfl <;> decide

theorem step_endQuote (h : quote ≠ '\\') (depth : Nat) :
    step (depth, .quoted quote) quote = some (depth, .outside) := by
  rw [step, if_neg h, if_pos rfl]

theorem step_quoted (noEscape : c ≠ '\\') (noQuote : c ≠ quote) (depth : Nat) :
    step (depth, .quoted quote) c = some (depth, .quoted quote) := by
  rw [step, if_neg noEscape, if_neg noQuote]

/-- The search ends with the brace that closes the block or with one too many that opens. -/
theorem step_eq_none_iff :
    step s c = none ↔ s = start ∧ c = '\x7d' ∨
    ∃ depth ≥ maxInner, s = (depth, .outside) ∧ c = '\x7b' := by
  obtain ⟨depth, place⟩ := s
  cases place with
  | quoted | escaped => simp [step, start]
  | outside =>
    by_cases opens : c = '\x7b'
    · subst opens
      simp [step, start]
    · by_cases closes : c = '\x7d'
      · subst closes
        simp [step, start]
      · simp [step, opens, closes]

theorem step_le (h : step s c = some s') (fits : s.1 ≤ maxInner) : s'.1 ≤ maxInner := by
  obtain ⟨depth, place⟩ := s
  cases place with
  | quoted | escaped =>
    cases h
    exact fits
  | outside =>
    rw [step] at h
    split at h
    · split at h
      · next further =>
        cases h
        exact further
      · cases h
    · split at h
      · split at h
        · cases h
          exact Nat.le_trans (Nat.sub_le ..) fits
        · cases h
      · cases h
        exact fits

/-- The search never has more inner braces open than are counted. -/
theorem run_le (h : run s w = some s') (fits : s.1 ≤ maxInner) : s'.1 ≤ maxInner := by
  induction w generalizing s with
  | nil =>
    cases h
    exact fits
  | cons c w ih =>
    obtain ⟨t, first, rest⟩ := Option.bind_eq_some_iff.1 ((run_cons s c w).symm.trans h)
    exact ih rest (step_le first fits)

/-- A block ends with all inner braces closed, or with as many open as are counted. -/
theorem cases_of_ends (through : run start body = some s) (ends : step s c = none) :
    s = start ∧ c = '\x7d' ∨ s = (maxInner, .outside) ∧ c = '\x7b' := by
  obtain closed | ⟨depth, most, rfl, hc⟩ := step_eq_none_iff.1 ends
  · exact .inl closed
  · have full : depth = maxInner := Nat.le_antisymm (run_le through (Nat.zero_le _)) most
    exact .inr ⟨by rw [full], hc⟩

/-! ## Counting in 32 bits -/

/-- Where a search is that keeps the quote of the text it is in. -/
def Place.ofQuote : Option Char → Place
  | none => .outside
  | some quote => .quoted quote

section Counting

variable {count : Int32}

theorem countBraces_pos_iff : 0 < countBraces count c ↔ 0 < (countBraces count c).toInt :=
  Int32.lt_iff_toInt_lt

theorem toInt_countBraces_open (known : count.toInt = depth + 1) (further : depth < maxInner) :
    (countBraces count '\x7b').toInt = (depth + 1 : Nat) + 1 := by
  have one : (1 : Int32).toInt = 1 := rfl
  have below : depth < 2147483646 := further
  rw [countBraces, if_pos rfl, Int32.toInt_add, known, one, Int.bmod_eq_of_le] <;> omega

/-- One brace too many makes the count negative. -/
theorem toInt_countBraces_full (known : count.toInt = maxInner + 1) :
    (countBraces count '\x7b').toInt = -2147483648 := by
  have full : count.toInt = 2147483647 := known
  rw [countBraces, if_pos rfl, Int32.toInt_add, full]
  rfl

theorem toInt_countBraces_close (known : count.toInt = depth + 1) (fits : depth ≤ maxInner) :
    (countBraces count '\x7d').toInt = depth := by
  have one : (1 : Int32).toInt = 1 := rfl
  have bound : depth ≤ 2147483646 := fits
  rw [countBraces, if_neg (by decide), if_pos rfl, Int32.toInt_sub, known, one,
    Int.bmod_eq_of_le] <;> omega

/-- The count in 32 bits is the number of the inner braces that are open and one for the block, and
it is no longer positive behind the character with which the search ends. -/
theorem countBraces_cases (known : count.toInt = depth + 1) (fits : depth ≤ maxInner) (c : Char) :
    (step (depth, .outside) c = none ∧ ¬0 < countBraces count c) ∨
      ∃ depth', step (depth, .outside) c =
          some (depth', .ofQuote (if c = '\'' ∨ c = '"' then some c else none)) ∧
        0 < countBraces count c ∧ (countBraces count c).toInt = depth' + 1 := by
  rw [countBraces_pos_iff]
  by_cases opens : c = '\x7b'
  · subst opens
    by_cases further : depth < maxInner
    · have next := toInt_countBraces_open known further
      exact .inr ⟨depth + 1, step_open further, by omega, next⟩
    · obtain rfl : depth = maxInner := Nat.le_antisymm fits (Nat.not_lt.1 further)
      have next := toInt_countBraces_full known
      exact .inl ⟨by rw [step, if_pos rfl, if_neg further], by omega⟩
  · by_cases closes : c = '\x7d'
    · subst closes
      have next := toInt_countBraces_close known fits
      cases depth with
      | zero => exact .inl ⟨rfl, by omega⟩
      | succ depth => exact .inr ⟨depth, rfl, by omega, next⟩
    · have same : countBraces count c = count := by rw [countBraces, if_neg opens, if_neg closes]
      rw [same]
      refine .inr ⟨depth, ?_, by omega, known⟩
      rw [step, if_neg opens, if_neg closes]
      split <;> rfl

end Counting

/-- What a search finds: it gets through what it takes, and not through the character behind it. -/
def Finds (s : SearchState) (cs : List Char) : Option (List Char × List Char) → Prop
  | some (body, after) => ∃ c s', cs = body ++ c :: after ∧ run s body = some s' ∧ step s' c = none
  | none => ∃ s', run s cs = some s'

theorem Finds.cons {found : Option (List Char × List Char)} (h : Finds s' cs found)
    (first : step s c = some s') :
    Finds s (c :: cs) (found.map fun found => (c :: found.1, found.2)) := by
  cases found with
  | none =>
    obtain ⟨t, through⟩ := h
    exact ⟨t, by rw [run_cons, first, Option.bind_some, through]⟩
  | some found =>
    obtain ⟨d, t, split, through, ends⟩ := h
    exact ⟨d, t, congrArg _ split, by rw [run_cons, first, Option.bind_some, through], ends⟩

theorem finds_splitAtClose {count : Int32} {quote : Option Char} (known : count.toInt = depth + 1)
    (fits : depth ≤ maxInner) : Finds (depth, .ofQuote quote) cs (splitAtClose count quote cs) := by
  fun_induction splitAtClose count quote cs generalizing depth with
  | case1 count quote => exact ⟨_, rfl⟩
  | case2 count q => exact ⟨(depth, .escaped q), rfl⟩
  | case3 count q d tail ih =>
    have behind := ((ih known fits).cons (s := (depth, .escaped q)) (c := d) rfl).cons
      (s := (depth, .quoted q)) (c := '\\') rfl
    rwa [Option.map_map] at behind
  | case4 count c tail q noEscape ih =>
    refine (ih known fits).cons ?_
    show step (depth, .quoted q) c = _
    rw [step, if_neg noEscape]
    split <;> rfl
  | case5 count c tail goesOn ih =>
    obtain ⟨-, ends⟩ | ⟨depth', next, -, known'⟩ := countBraces_cases known fits c
    · exact (ends goesOn).elim
    · exact (ih known' (step_le next fits)).cons next
  | case6 count c tail ends =>
    obtain ⟨last, -⟩ | ⟨_, -, goesOn, -⟩ := countBraces_cases known fits c
    · exact ⟨c, _, rfl, rfl, last⟩
    · exact (ends goesOn).elim

theorem finds_block (cs : List Char) : Finds start cs (splitAtClose 1 none cs) :=
  finds_splitAtClose (show (1 : Int32).toInt = (0 : Nat) + 1 from rfl) (Nat.zero_le _)

/-- Behind its end the search goes on to nothing. -/
theorem run_of_ends (through : run s v = some s') (ends : step s' c = none) (w : List Char) :
    run s (v ++ c :: w) = none := by
  rw [run_append_of through, run_cons, ends, Option.bind_none]

/-- What the search gets through is in front of where it ends. -/
theorem exists_append_of_ends {c' : Char} {t t' : SearchState} {a a' v' : List Char}
    (through : run s v = some t) (ends : step t c = none) (through' : run s v' = some t')
    (split : v ++ c :: a = v' ++ c' :: a') : ∃ x, v = v' ++ x := by
  obtain ⟨x, rfl, hx⟩ | ⟨x, rfl, -⟩ := List.append_eq_append_iff.1 split
  · cases x with
    | nil => exact ⟨[], by simp⟩
    | cons d x =>
      obtain ⟨rfl, -⟩ := List.cons.inj hx
      rw [run_of_ends through ends] at through'
      cases through'
  · exact ⟨x, rfl⟩

/-- The search ends in one place. -/
theorem Finds.unique {found found' : Option (List Char × List Char)} (h : Finds s cs found)
    (h' : Finds s cs found') : found = found' := by
  cases found with
  | none =>
    obtain ⟨t, all⟩ := h
    cases found' with
    | none => rfl
    | some found' =>
      obtain ⟨c, t', rfl, through, ends⟩ := h'
      rw [run_of_ends through ends] at all
      cases all
  | some found =>
    obtain ⟨c, t, split, through, ends⟩ := h
    cases found' with
    | none =>
      obtain ⟨t', all⟩ := h'
      rw [split, run_of_ends through ends] at all
      cases all
    | some found' =>
      obtain ⟨c', t', split', through', ends'⟩ := h'
      obtain ⟨x, hx⟩ := exists_append_of_ends through ends through' (split.symm.trans split')
      obtain ⟨x', hx'⟩ := exists_append_of_ends through' ends' through (split'.symm.trans split)
      have none : x = [] := by
        have size := congrArg List.length hx
        have size' := congrArg List.length hx'
        simp only [List.length_append] at size size'
        exact List.eq_nil_of_length_eq_zero (by omega)
      have same : found.1 = found'.1 := by rw [hx, none, List.append_nil]
      rw [split, same] at split'
      have behind := (List.cons.inj (List.append_cancel_left split')).2
      exact congrArg some (Prod.ext same behind)

/-- A block ends in front of the first character that the search does not get through. -/
theorem splitAtClose_eq_some_iff :
    splitAtClose 1 none cs = some (body, after) ↔
      ∃ c s, cs = body ++ c :: after ∧ run start body = some s ∧ step s c = none := by
  constructor
  · intro h
    have found := finds_block cs
    rwa [h] at found
  · intro h
    exact (finds_block cs).unique (show Finds start cs (some (body, after)) from h)

theorem splitAtClose_eq_none_iff : splitAtClose 1 none cs = none ↔ ∃ s, run start cs = some s := by
  constructor
  · intro h
    have found := finds_block cs
    rwa [h] at found
  · intro h
    exact (finds_block cs).unique (show Finds start cs none from h)

end StepFlow.Template
