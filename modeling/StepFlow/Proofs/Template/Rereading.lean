import StepFlow.Proofs.Template.Ranges

/-!
# Which templates are read back

The expression of a template is written as one block. That block is read as the expression again if
the search for its end passes over all of it, which it does exactly if every block of the template
ends at the brace that closes it. A block that ends at another brace leaves braces open, and nothing
in the expression closes them.
-/

namespace StepFlow.Template

variable {c : Char} {p v w x y body : List Char} {m n depth : Nat} {s : SearchState}
  {pieces : List Piece}

/-! ## The braces that an expression leaves open -/

theorem Crosses.append (hv : Crosses 0 m v) (hw : Crosses 0 n w) : Crosses 0 (m + n) (v ++ w) := by
  generalize closed : 0 = k at hv
  induction hv with
  | paired pairs =>
    rw [← closed, Nat.zero_add]
    exact hw.cons pairs
  | closes => cases closed
  | opens pairs _ ih =>
    rw [Nat.succ_add, List.append_assoc, List.cons_append]
    exact .opens pairs (ih rfl)

/-- Behind a text that the search gets through, the braces are open that the text leaves open. -/
theorem Crosses.eq_of_run (h : Crosses 0 n w) (through : run (depth, .outside) w = some s) :
    s = (depth + n, .outside) := by
  generalize closed : 0 = k at h
  induction h generalizing depth s with
  | paired pairs => exact pairs.eq_of_run through
  | closes => cases closed
  | @opens n _ _ pairs _ ih =>
    obtain ⟨t, front, behind⟩ := exists_run_of_append through
    obtain rfl := pairs.eq_of_run front
    rw [run_cons] at behind
    obtain ⟨t, opened, behind⟩ := Option.bind_eq_some_iff.1 behind
    rw [step, if_pos rfl] at opened
    split at opened <;> cases opened
    rw [ih behind rfl, Nat.add_right_comm]
    rfl

theorem Crosses.paired_of_zero (h : Crosses 0 0 w) : Paired w := by
  cases h with
  | paired pairs => exact pairs

/-- A text that closes all braces only if something holds. -/
def ClosesOnlyIf (P : Prop) (w : List Char) : Prop := ∃ n, Crosses 0 n w ∧ (n = 0 → P)

variable {P Q : Prop}

theorem Paired.closesOnlyIf (h : Paired w) : ClosesOnlyIf True w := ⟨0, .paired h, fun _ => trivial⟩

theorem ClosesOnlyIf.imp (h : ClosesOnlyIf P w) (hP : P → Q) : ClosesOnlyIf Q w := by
  obtain ⟨n, crosses, none⟩ := h
  exact ⟨n, crosses, fun zero => hP (none zero)⟩

theorem ClosesOnlyIf.append (hv : ClosesOnlyIf P v) (hw : ClosesOnlyIf Q w) :
    ClosesOnlyIf (P ∧ Q) (v ++ w) := by
  obtain ⟨m, first, hP⟩ := hv
  obtain ⟨n, others, hQ⟩ := hw
  exact ⟨m + n, first.append others, fun zero => ⟨hP (by omega), hQ (by omega)⟩⟩

/-- What a text closes only if something holds, it does not close where the search passes over
it. -/
theorem ClosesOnlyIf.of_balanced (h : ClosesOnlyIf P w) (balanced : Balanced 0 w) : P := by
  obtain ⟨n, crosses, hP⟩ := h
  have same := crosses.eq_of_run balanced
  simp only [Prod.mk.injEq, Nat.zero_add, and_true] at same
  exact hP same.symm

theorem closesOnlyIf_source {piece : Piece}
    (h : ∀ body, piece = .block body → ∃ n, Crosses 0 n body) :
    ClosesOnlyIf (∀ body, piece = .block body → Paired body) piece.source := by
  cases piece with
  | literal cs => exact (balanced_quoteLiteral _ 0).paired.closesOnlyIf.imp fun _ => nofun
  | block cs =>
    obtain ⟨n, crosses⟩ := h cs rfl
    have left : Paired ['('] := .plain (by decide) .nil
    have right : Paired [')'] := .plain (by decide) .nil
    have inside : ClosesOnlyIf (Paired cs) cs :=
      ⟨n, crosses, fun zero => (zero ▸ crosses).paired_of_zero⟩
    refine ((left.closesOnlyIf.append inside).append right.closesOnlyIf).imp ?_
    rintro ⟨⟨-, paired⟩, -⟩ body same
    cases same
    exact paired

theorem closesOnlyIf_sources (h : ∀ body, .block body ∈ pieces → ∃ n, Crosses 0 n body) :
    ClosesOnlyIf (∀ body, .block body ∈ pieces → Paired body)
      ([',', ' '].intercalate (pieces.map Piece.source)) := by
  induction pieces with
  | nil => exact Paired.nil.closesOnlyIf.imp fun _ => nofun
  | cons piece rest ih =>
    have first : ClosesOnlyIf _ piece.source :=
      closesOnlyIf_source fun body same => h body (same ▸ List.mem_cons_self ..)
    have others := ih fun body hb => h body (List.mem_cons_of_mem _ hb)
    have separator : Paired [',', ' '] := .plain (by decide) (.plain (by decide) .nil)
    have all : (∀ body, piece = .block body → Paired body) ∧
      (∀ body, .block body ∈ rest → Paired body) →
        ∀ body, .block body ∈ piece :: rest → Paired body := by
      rintro ⟨here, there⟩ body hb
      rcases List.mem_cons.1 hb with same | hb
      · exact here body same.symm
      · exact there body hb
    cases rest with
    | nil => simpa [List.intercalate] using first.imp fun here => all ⟨here, nofun⟩
    | cons second rest =>
      rw [List.map_cons, List.map_cons, List.intercalate_cons_cons]
      exact ((first.append separator.closesOnlyIf).append others).imp fun held =>
        all ⟨held.1.1, held.2⟩

theorem closesOnlyIf_joinSource (h : ∀ body, .block body ∈ pieces → ∃ n, Crosses 0 n body) :
    ClosesOnlyIf (∀ body, .block body ∈ pieces → Paired body) (joinSource pieces) := by
  have opening : Paired "concat(".toList :=
    (balanced_of_plain (by simp [IsDelimiter]) 0).paired
  have closing : Paired [')'] := .plain (by decide) .nil
  exact ((opening.closesOnlyIf.append (closesOnlyIf_sources h)).append closing.closesOnlyIf).imp
    fun held => held.1.2

/-- The blocks of a text end at the braces that close them if the search passes over its
expression. -/
theorem blocksClose_of_source? {s source : String} (h : source? s = some source)
    (balanced : Balanced 0 source.toList) : BlocksClose s := by
  intro pieces template
  have crosses : ∀ body, .block body ∈ pieces → ∃ n, Crosses 0 n body := by
    intro body hb
    obtain ⟨_, _, _, -, ⟨balanced, -⟩ | ⟨through, -⟩⟩ := split_of_mem_pieces template hb
    · exact ⟨0, .paired (Balanced.paired balanced)⟩
    · exact ⟨maxInner, crosses_of_run through⟩
  rw [source?, template] at h
  split at h
  · next cs same =>
    cases same
    cases h
    rw [String.toList_ofList] at balanced
    intro body hb
    cases List.mem_singleton.1 hb
    exact Balanced.paired balanced
  · next same =>
    cases same
    split at h
    · cases h
      rw [String.toList_ofList] at balanced
      exact (closesOnlyIf_joinSource crosses).of_balanced balanced
    · cases h
  · next same => cases same

/-! ## The block that is read for an expression -/

/-- If a text still comes first with something put in front of it, what follows it is in what was
put there. -/
theorem mem_of_append_eq (front : p ≠ []) (same : body ++ c :: x = p ++ (body ++ y)) : c ∈ p := by
  induction size : body.length using Nat.strong_induction_on generalizing body with
  | _ size' ih =>
    rcases List.append_eq_append_iff.1 same with ⟨a, rfl, behind⟩ | ⟨a, rfl, behind⟩
    · cases a with
      | nil =>
        rw [List.append_nil] at front ⊢
        obtain ⟨d, rest, rfl⟩ := List.exists_cons_of_ne_nil front
        cases (List.cons.inj behind).1
        exact List.mem_cons_self ..
      | cons d a =>
        cases (List.cons.inj behind).1
        exact List.mem_append_right _ (List.mem_cons_self ..)
    · have shorter : a.length < size' := by
        have some := List.length_pos_iff.2 front
        rw [← size, List.length_append]
        omega
      rw [List.append_assoc] at behind
      exact ih _ shorter behind.symm rfl

/-- The expression of a template of several pieces of which the first is a block. -/
theorem exists_joinSource_eq (body : List Char) (second : Piece) (others : List Piece) :
    ∃ y, joinSource (.block body :: second :: others) =
      ("concat(".toList ++ ['(']) ++ (body ++ y) := by
  unfold joinSource
  generalize "concat(".toList = call
  refine ⟨[')'] ++ ([',', ' '] ++ [',', ' '].intercalate ((second :: others).map Piece.source) ++
    [')']), ?_⟩
  have first : (Piece.block body).source = ['('] ++ body ++ [')'] := rfl
  rw [List.map_cons, List.map_cons, List.intercalate_cons_cons, first]
  simp only [List.append_assoc]

/-- So no brace stands behind the first block in it, as the block that was read has behind it. -/
theorem joinSource_ne {last : Char} (brace : last = '\x7d' ∨ last = '\x7b') (body : List Char)
    (second : Piece) (others : List Piece) (after : List Char) :
    joinSource (.block body :: second :: others) ≠ body ++ last :: after := by
  intro same
  obtain ⟨y, expression⟩ := exists_joinSource_eq body second others
  have inside := mem_of_append_eq (by simp) (same.symm.trans expression)
  obtain rfl | rfl := brace <;> simp at inside

/-- The search passes over an expression that is read from the block which is written for it. -/
theorem balanced_of_source?_ofSource {source : String}
    (h : source? (ofSource source) = some source) : Balanced 0 source.toList := by
  have chars : (ofSource source).toList = '@' :: '\x7b' :: (source.toList ++ ['\x7d']) := by
    simp [ofSource]
  rw [source?, pieces?, chars] at h
  cases found : splitAtClose 1 none (source.toList ++ ['\x7d']) with
  | none =>
    rw [piecesFrom_unclosed [] found] at h
    cases h
  | some block =>
    obtain ⟨body, after⟩ := block
    obtain ⟨last, s, split, through, ends⟩ := splitAtClose_eq_some_iff.1 found
    have ended := cases_of_ends through ends
    rcases List.eq_nil_or_concat after with rfl | ⟨after, d, rfl⟩
    · obtain ⟨same, same'⟩ := List.append_inj' split rfl
      cases same'
      obtain ⟨rfl, -⟩ | ⟨-, opens⟩ := ended
      · rw [same]
        exact through
      · cases opens
    · -- Something is left behind the block, so the expression begins with what joins pieces.
      rw [List.concat_eq_append] at found split
      rw [piecesFrom_block found] at h
      cases rest : piecesFrom false [] (after ++ [d]) with
      | none =>
        rw [rest] at h
        cases h
      | some others =>
        rw [rest] at h
        have written := written_of_piecesFrom rest
        cases others with
        | nil =>
          generalize whole : [].reverse ++ (after ++ [d]) = cs at written
          cases written
          simp at whole
        | cons second others =>
          have joined : String.ofList (joinSource (.block body :: second :: others)) = source :=
            Option.some.inj h
          have behind : source.toList = body ++ last :: after := by
            rw [← List.cons_append, ← List.append_assoc] at split
            exact (List.append_inj' split rfl).1
          rw [← joined, String.toList_ofList] at behind
          exact (joinSource_ne (ended.imp And.right And.right) body second others after behind).elim

/-- A text that is no expression has no blocks that could end early. -/
theorem blocksClose_of_none {s : String} (h : source? s = none) : BlocksClose s := by
  intro pieces template body hb
  rw [source?, template] at h
  split at h
  · cases h
  · next same =>
    cases same
    rw [if_pos (List.any_eq_true.2 ⟨_, hb, rfl⟩)] at h
    cases h
  · next same => cases same

/-- A text of a document that is an expression is read back exactly if its blocks end at the braces
that close them. -/
theorem source?_ofSource_iff {s source : String} (h : source? s = some source) :
    source? (ofSource source) = some source ↔ BlocksClose s := by
  constructor
  · intro back
    exact blocksClose_of_source? h (balanced_of_source?_ofSource back)
  · intro closed
    exact source?_ofSource (balanced_of_source? h fun _ found _ => closed.balanced found)

end StepFlow.Template
