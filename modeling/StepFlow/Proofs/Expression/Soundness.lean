import StepFlow.Proofs.Expression.Grammar
import StepFlow.Proofs.Expression.Readers

/-!
# What is read is derived

Every reader takes tokens that derive what it gives, and no level is opened beyond its limit. The
limit is an absolute one: a reader at level `k` that may open `room` more of them keeps to
`k + room`. So the limit stays the same all the way down, and only the level moves.
-/

namespace StepFlow.Parser

open Grammar

variable {α : Type} {k limit : Nat} {operand inner : ExprReader}

/-- What a reader takes derives what it gives. -/
def Sound (limit : Nat) (reader : Reader SyntaxError Token α) (derives : List Placed → α → Prop) :
    Prop :=
  ∀ {input a rest}, Gives (reader input) a rest →
    ∃ w, input = tokens w ++ rest ∧ Within limit w ∧ derives w a

/-! ## The operators -/

/-- The reader goes by the operators of the grammar. -/
theorem binaryLevels_eq : binaryLevels = binaryOperators := rfl

theorem exists_mem_of_operator? {level : List (Symbol × BinaryOp)} {t : Token} {op : BinaryOp}
    (h : operator? level t = some op) : ∃ s, t = .symbol s ∧ (s, op) ∈ level := by
  cases t with
  | symbol s =>
    obtain ⟨_, _, hl, -⟩ := List.lookup_eq_some_iff.1 h
    exact ⟨s, rfl, by simp [hl]⟩
  | _ => cases h

theorem prefixOperator?_eq_some_iff {t : Token} {op : UnaryOp} :
    prefixOperator? t = some op ↔ ∃ s, t = .symbol s ∧ PrefixOperator s op := by
  constructor
  · intro h
    rw [prefixOperator?.eq_def] at h
    split at h
    · cases h
      exact ⟨_, rfl, .not⟩
    · cases h
      exact ⟨_, rfl, .neg⟩
    · cases h
  · rintro ⟨_, rfl, ⟨⟩⟩ <;> rfl

/-! ## Chains and choices -/

theorem sound_chain {level : List (Symbol × BinaryOp)} {levels : List (List (Symbol × BinaryOp))}
    (sound : Sound limit operand (Binary k levels)) (hk : k ≤ limit) :
    (input : List Token) → ∀ {left e rest l}, Binary k (level :: levels) l left →
      Gives (chain operand level left input) e rest →
        ∃ w, input = tokens w ++ rest ∧ Within limit w ∧ Binary k (level :: levels) (l ++ w) e
  | [], left, e, rest, l, before, h => by
    obtain ⟨rfl, rfl⟩ := (gives_chain_stop (by simp)).1 h
    exact ⟨[], rfl, within_nil, by rwa [List.append_nil]⟩
  | t :: input, left, e, rest, l, before, h => by
    cases hop : operator? level t with
    | none =>
      obtain ⟨rfl, rfl⟩ := (gives_chain_stop (by simpa using hop)).1 h
      exact ⟨[], rfl, within_nil, by rwa [List.append_nil]⟩
    | some op =>
      obtain ⟨s, rfl, isOperator⟩ := exists_mem_of_operator? hop
      obtain ⟨right, r, hright, more⟩ := (gives_chain_cons hop).1 h
      have shorter := hright.property
      obtain ⟨wr, rfl, within, behind⟩ := sound hright
      obtain ⟨w, rfl, within', whole⟩ :=
        sound_chain sound hk r (before.operator isOperator behind) more
      refine ⟨(.symbol s, k) :: (wr ++ w), by simp, by simp [hk, within, within'], ?_⟩
      rwa [List.append_assoc, List.cons_append] at whole
termination_by input => input.length

theorem sound_binary (sound : Sound limit operand (Unary k)) (hk : k ≤ limit)
    (levels : List (List (Symbol × BinaryOp))) :
    Sound limit (binary operand levels) (Binary k levels) := by
  induction levels with
  | nil =>
    intro input e rest h
    obtain ⟨w, hw, within, derived⟩ := sound h
    exact ⟨w, hw, within, .operand derived⟩
  | cons level levels ih =>
    intro input e rest h
    obtain ⟨left, r, hleft, more⟩ := gives_binary_cons.1 h
    obtain ⟨l, rfl, within, before⟩ := ih hleft
    obtain ⟨w, rfl, within', whole⟩ := sound_chain ih hk r (.tighter before) more
    exact ⟨l ++ w, by simp, by simp [within, within'], whole⟩

theorem sound_ternary (operands : Sound limit operand (Unary (k + 1)))
    (branches : Sound limit inner (Conditional (k + 1))) (hk : k + 1 ≤ limit) :
    Sound limit (ternary operand inner) (Conditional k) := by
  intro input e rest h
  obtain ⟨condition, r, hc, more⟩ := gives_ternary.1 h
  rw [binaryLevels_eq] at hc
  obtain ⟨w, rfl, within, chain⟩ := sound_binary operands hk binaryOperators hc
  obtain ⟨-, rfl, rfl⟩ | ⟨r', yes, s, no, rfl, hyes, hno, rfl⟩ := more
  · exact ⟨w, rfl, within, .plain chain⟩
  · obtain ⟨y, rfl, withinYes, whenTrue⟩ := branches hyes
    obtain ⟨n, rfl, withinNo, whenFalse⟩ := branches hno
    exact ⟨_, by simp, by simp [hk, within, withinYes, withinNo],
      .choice chain whenTrue whenFalse⟩

/-! ## Lists, maps and atoms -/

/-- A list of things is derived whatever the things are, if it is by its last
and by its first ones. -/
theorem sound_more {one : Reader SyntaxError Token α} {close : Symbol} {p : List Placed → α → Prop}
    {derives : List Placed → List α → Prop} (sound : Sound limit one p) (hk : k ≤ limit)
    (apart : close ≠ .comma) (last : ∀ {w a}, p w a → derives (w ++ [(.symbol close, k)]) [a])
    (cons : ∀ {w r a as}, p w a → derives r as →
      derives (w ++ (.symbol .comma, k) :: r) (a :: as)) :
    (input : List Token) → ∀ {as rest}, Gives (listed.more one close input) as rest →
      ∃ w, input = tokens w ++ rest ∧ Within limit w ∧ derives w as := by
  intro input as rest h
  obtain ⟨a, r, ha, more⟩ := (gives_more apart).1 h
  have shorter := ha.property
  obtain ⟨w, rfl, within, derived⟩ := sound ha
  obtain ⟨rfl, rfl⟩ | ⟨r', others, rfl, hothers, rfl⟩ := more
  · exact ⟨_, by simp, by simp [hk, within], last derived⟩
  · simp only [List.length_append, List.length_cons] at shorter
    obtain ⟨v, rfl, within', derived'⟩ := sound_more sound hk apart last cons r' hothers
    exact ⟨_, by simp, by simp [hk, within, within'], cons derived derived'⟩
termination_by input => input.length

theorem sound_items (sound : Sound limit inner (Conditional k)) (hk : k ≤ limit) {close : Symbol}
    (apart : close ≠ .comma) : Sound limit (listed inner close) (Items k close) := by
  intro input es rest h
  obtain ⟨rfl, rfl⟩ | ⟨-, more⟩ := gives_listed.1 h
  · exact ⟨_, rfl, by simp [hk], .none k close⟩
  · obtain ⟨w, hw, within, derived⟩ :=
      sound_more sound hk apart SomeItems.last SomeItems.cons input more
    exact ⟨w, hw, within, .some derived⟩

theorem sound_key (sound : Sound limit inner (Conditional k)) (hk : k ≤ limit) :
    Sound limit (key inner) (Key k) := by
  intro input e rest h
  obtain ⟨name, rfl, rfl⟩ | ⟨noName, more⟩ := gives_key.1 h
  · exact ⟨[(.ident name, k)], rfl, by simp [hk], .name k name⟩
  · obtain ⟨w, rfl, within, derived⟩ := sound more
    refine ⟨w, rfl, within, .expression derived fun name hname => noName name ?_⟩
    cases w with
    | nil => cases hname
    | cons p w => exact hname

theorem sound_entry (sound : Sound limit inner (Conditional k)) (hk : k ≤ limit) :
    Sound limit (entry inner) (Entry k) := by
  intro input e rest h
  obtain ⟨key, r, value, hkey, hvalue, rfl⟩ := gives_entry.1 h
  obtain ⟨w, rfl, within, keyed⟩ := sound_key sound hk hkey
  obtain ⟨v, rfl, within', valued⟩ := sound hvalue
  exact ⟨_, by simp, by simp [hk, within, within'], .mk keyed valued⟩

theorem sound_entries (sound : Sound limit inner (Conditional k)) (hk : k ≤ limit) :
    Sound limit (listed (entry inner) .rightBrace) (Entries k) := by
  intro input es rest h
  obtain ⟨rfl, rfl⟩ | ⟨-, more⟩ := gives_listed.1 h
  · exact ⟨_, rfl, by simp [hk], .none k⟩
  · obtain ⟨w, hw, within, derived⟩ :=
      sound_more (sound_entry sound hk) hk (by decide) SomeEntries.last SomeEntries.cons input more
    exact ⟨w, hw, within, .some derived⟩

theorem sound_primary (sound : Sound limit inner (Conditional k)) (hk : k ≤ limit) :
    Sound limit (primary inner) (Primary k) := by
  intro input e rest h
  cases input with
  | nil => exact (not_gives_error h).elim
  | cons t input =>
    have literal {v : Value} (ht : literal? t = some v) (given : .literal v = e ∧ input = rest) :
        ∃ w, t :: input = tokens w ++ rest ∧ Within limit w ∧ Primary k w e := by
      obtain ⟨rfl, rfl⟩ := given
      exact ⟨[(t, k)], rfl, by simp [hk], .literal ht⟩
    cases t with
    | int n => exact literal rfl (gives_ok.1 h)
    | float f => exact literal rfl (gives_ok.1 h)
    | text s => exact literal rfl (gives_ok.1 h)
    | keyword word =>
      cases word with
      | true => exact literal rfl (gives_ok.1 h)
      | false => exact literal rfl (gives_ok.1 h)
      | null => exact literal rfl (gives_ok.1 h)
    | ident name =>
      obtain ⟨rfl, rfl⟩ := gives_ok.1 h
      exact ⟨[(.ident name, k)], rfl, by simp [hk], .var k name⟩
    | symbol s =>
      cases s with
      | leftParen =>
        obtain ⟨w, rfl, within, derived⟩ := sound (gives_primary_parenthesised.1 h)
        exact ⟨_, by simp, by simp [hk, within], .parenthesised derived⟩
      | leftBracket =>
        obtain ⟨es, hes, rfl⟩ := gives_primary_list.1 h
        obtain ⟨w, rfl, within, derived⟩ := sound_items sound hk (by decide) hes
        exact ⟨_, by simp, by simp [hk, within], .list derived⟩
      | leftBrace =>
        obtain ⟨es, hes, rfl⟩ := gives_primary_map.1 h
        obtain ⟨w, rfl, within, derived⟩ := sound_entries sound hk hes
        exact ⟨_, by simp, by simp [hk, within], .map derived⟩
      | _ => exact (not_gives_error h).elim

/-! ## What follows an atom -/

theorem sound_access (sound : Sound limit inner (Conditional k)) (hk : k ≤ limit) :
    (input : List Token) → ∀ {e e' rest l}, Postfix k l e → Gives (access inner e input) e' rest →
      ∃ w, input = tokens w ++ rest ∧ Within limit w ∧ Postfix k (l ++ w) e' := by
  intro input e e' rest l before h
  have stop (hstop : ∀ t ∈ input.head?, goesOn t = false) :
      ∃ w, input = tokens w ++ rest ∧ Within limit w ∧ Postfix k (l ++ w) e' := by
    obtain ⟨rfl, rfl⟩ := (gives_access_stop hstop).1 h
    exact ⟨[], rfl, within_nil, by rwa [List.append_nil]⟩
  -- What was taken so far grows by what is taken behind it.
  have grow {v : List Placed} {e'' : Expr} (r : List Token) (shorter : r.length < input.length)
      (hv : input = tokens v ++ r) (within : Within limit v) (object : Postfix k (l ++ v) e'')
      (more : Gives (access inner e'' r) e' rest) :
      ∃ w, input = tokens w ++ rest ∧ Within limit w ∧ Postfix k (l ++ w) e' := by
    obtain ⟨w, hw, within', whole⟩ := sound_access sound hk r object more
    rw [List.append_assoc] at whole
    exact ⟨v ++ w, by simp [hv, hw], by simp [within, within'], whole⟩
  cases input with
  | nil => exact stop (by simp)
  | cons t input =>
    cases ht : goesOn t with
    | false => exact stop (by simpa using ht)
    | true =>
      cases t with
      | symbol s =>
        cases s with
        | dot =>
          obtain ⟨name, r, hname, more⟩ := gives_access_dot.1 h
          obtain rfl | ⟨n, rfl, rfl⟩ := gives_memberName.1 hname
          · refine grow r ?_ rfl (by simp [hk]) before.member more
            simp only [List.length_cons]
            omega
          · refine grow r ?_ rfl (by simp [hk]) before.item more
            simp only [List.length_cons]
            omega
        | leftBracket =>
          obtain ⟨position, r, hposition, more⟩ := gives_access_bracket.1 h
          obtain ⟨i, rfl, within, inside⟩ := sound hposition
          refine grow r ?_ (by simp) (by simp [hk, within]) (before.index inside) more
          simp only [List.length_cons, List.length_append]
          omega
        | leftParen =>
          obtain ⟨name, rfl⟩ := eq_var_of_gives_access h
          obtain ⟨args, r, hargs, more⟩ := gives_access_call.1 h
          obtain ⟨a, rfl, within, inside⟩ := sound_items sound hk (by decide) hargs
          refine grow r ?_ (by simp) (by simp [hk, within])
            (.call (before.name name rfl) inside) more
          simp only [List.length_cons, List.length_append]
          omega
        | _ => cases ht
      | _ => cases ht
termination_by input => input.length

theorem sound_postfixed (sound : Sound limit inner (Conditional k)) (hk : k ≤ limit) :
    Sound limit (postfixed inner) (Postfix k) := by
  intro input e' rest h
  obtain ⟨e, r, hatom, more⟩ := gives_postfixed.1 h
  obtain ⟨l, rfl, within, primary⟩ := sound_primary sound hk hatom
  obtain ⟨w, rfl, within', whole⟩ := sound_access sound hk r (.atom primary) more
  exact ⟨l ++ w, by simp, by simp [within, within'], whole⟩

/-! ## Levels -/

theorem sound_unary {tighter : ExprReader} (operands : Sound limit operand (Unary (k + 1)))
    (sound : Sound limit tighter (Postfix k)) (hk : k ≤ limit) :
    Sound limit (unary operand tighter) (Unary k) := by
  intro input e rest h
  have through (noOperator : ∀ t ∈ input.head?, prefixOperator? t = none) :
      ∃ w, input = tokens w ++ rest ∧ Within limit w ∧ Unary k w e := by
    rw [unary_eq_tighter noOperator] at h
    obtain ⟨w, hw, within, derived⟩ := sound h
    exact ⟨w, hw, within, .operand derived⟩
  cases input with
  | nil => exact through (by simp)
  | cons t input =>
    cases hop : prefixOperator? t with
    | none => exact through (by simpa using hop)
    | some op =>
      obtain ⟨s, rfl, isOperator⟩ := prefixOperator?_eq_some_iff.1 hop
      obtain ⟨e', he', rfl⟩ := (gives_unary_operator hop).1 h
      obtain ⟨w, rfl, within, behind⟩ := operands he'
      exact ⟨(.symbol s, k) :: w, rfl, by simp [hk, within], .operator isOperator behind⟩

/-- With room for so many levels behind those that are open, the readers keep to the sum. -/
theorem sound_levels (room : Nat) (k : Nat) :
    Sound (k + room) (levels room).conditional (Conditional k) ∧
      Sound (k + room) (levels room).unary (Unary k) := by
  induction room generalizing k with
  | zero =>
    have conditional : Sound k (levels 0).conditional (Conditional k) :=
      fun h => (not_gives_conditional_zero h).elim
    have operands : Sound k (belowUnary 0) (Unary (k + 1)) := fun h => (not_gives_error h).elim
    refine ⟨conditional, ?_⟩
    rw [levels_unary]
    exact sound_unary operands (sound_postfixed conditional (by omega)) (by omega)
  | succ room ih =>
    obtain ⟨branches, operands⟩ := ih (k + 1)
    rw [show k + 1 + room = k + (room + 1) by omega] at branches operands
    have conditional : Sound (k + (room + 1)) (levels (room + 1)).conditional (Conditional k) := by
      rw [levels_conditional_succ]
      exact sound_ternary operands branches (by omega)
    refine ⟨conditional, ?_⟩
    rw [levels_unary]
    exact sound_unary operands (sound_postfixed conditional (by omega)) (by omega)

end StepFlow.Parser
