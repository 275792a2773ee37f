import Mathlib.Algebra.Order.Ring.Nat
import Mathlib.Data.List.Chain
import StepFlow.Expression.Eval
import StepFlow.Proofs.Expression.Height
import StepFlow.Proofs.Expression.Parsing
import StepFlow.Proofs.Expression.Tokenizing

/-!
# Paths to members

A path is a name and, behind a point each, the names and positions of members. Reading it as it is
written gives the members from the left to the right, unless two positions stand next to each other:
`0.1` is read as one number, and no member is called by a number with a fraction. So `matrix[0][1]`
cannot be written `matrix.0.1`, though every position by itself may stand behind a point.
-/

namespace StepFlow

/-- A name that is none of the words. -/
structure Identifier where
  first : Char
  more : List Char
  start : Lexer.NameStart first
  goesOn : ∀ c ∈ more, Lexer.NameChar c
  noWord : ∀ word : Keyword, first :: more ≠ word.spelling

/-- The name or the position of a member, which fits signed 64 bits. -/
inductive Segment where
  | name (n : Identifier)
  | position (i : Nat) (fits : i < 9223372036854775808)

namespace Identifier

/-- How a name is written. -/
def chars (n : Identifier) : List Char := n.first :: n.more

def text (n : Identifier) : String := String.ofList n.chars

/-- A name whose characters the lexer takes for one. -/
def ofChars (first : Char) (more : List Char)
    (named : Lexer.isNameStart first ∧ more.all Lexer.isNameChar ∧
      ∀ word ∈ [Keyword.true, .false, .null], first :: more ≠ word.spelling) : Identifier where
  first := first
  more := more
  start := Lexer.isNameStart_iff.1 named.1
  goesOn := fun c hc => Lexer.isNameChar_iff.1 (List.all_eq_true.1 named.2.1 c hc)
  noWord := fun word => named.2.2 word (by cases word <;> decide)

end Identifier

namespace Segment

def text : Segment → String
  | .name n => n.text
  | .position i _ => toString i

/-- The token of a segment that no other one runs into. -/
def token : Segment → Token
  | .name n => .ident n.text
  | .position i _ => .int i

def IsPosition : Segment → Prop
  | .name _ => False
  | .position _ _ => True

end Segment

namespace Path

/-- How a path is written: with a point in front of every member. -/
def source (x : Identifier) (path : List Segment) : String :=
  ".".intercalate (x.text :: path.map Segment.text)

/-- The member of the member, and so on, from the left to the right. -/
def members (e : Expr) (path : List Segment) : Expr :=
  path.foldl (fun object segment => .member object segment.text) e

/-- The number that two positions spell with a point between them. -/
def joined (i j : Nat) : Float :=
  Numeral.nearest (i * 10 ^ (toString j).length + j) (-(toString j).length)

/-- The first two positions that stand next to each other. -/
def firstPair? : List Segment → Option (Nat × Nat)
  | [] => none
  | .position i _ :: .position j _ :: _ => some (i, j)
  | _ :: rest => firstPair? rest

theorem firstPair?_eq_none {path : List Segment} :
    firstPair? path = none ↔ path.IsChain fun p q => ¬(p.IsPosition ∧ q.IsPosition) := by
  fun_induction firstPair? path with
  | case1 => simp
  | case2 i _ j _ rest => simp [Segment.IsPosition]
  | case3 p rest apart ih =>
    rw [ih]
    cases rest with
    | nil => simp
    | cons q rest =>
      have distinct : ¬(p.IsPosition ∧ q.IsPosition) := by
        cases p with
        | name => exact fun both => both.1
        | position i fits =>
          cases q with
          | name => exact fun both => both.2
          | position j fits' => exact (apart i fits j fits' rest rfl rfl).elim
      rw [List.isChain_cons_cons, and_iff_right distinct]

/-! ## The tokens of a path -/

open Lexer (Digits Lexes isNameChar numeral taken scan)

variable {rest : List Char} {ts : List Token} {path : List Segment} {i j : Nat}

def tokens : List Segment → List Token
  | [] => []
  | .position i _ :: .position j _ :: rest => .symbol .dot :: .float (joined i j) :: tokens rest
  | segment :: rest => .symbol .dot :: segment.token :: tokens rest

/-- The characters behind the name that a path starts with. -/
def charsBehind (path : List Segment) : List Char :=
  path.flatMap fun segment => '.' :: segment.text.toList

theorem source_toList (x : Identifier) (path : List Segment) :
    (source x path).toList = x.chars ++ charsBehind path := by
  have behind (first : List Char) (path : List Segment) :
      ['.'].intercalate (first :: (path.map Segment.text).map String.toList) =
        first ++ charsBehind path := by
    induction path generalizing first with
    | nil => simp [charsBehind]
    | cons segment path ih =>
      rw [List.map_cons, List.map_cons, List.intercalate_cons_cons, ih]
      simp [charsBehind]
  have point : ".".toList = ['.'] := rfl
  rw [source, String.toList_intercalate, point, List.map_cons, Identifier.text,
    String.toList_ofList]
  exact behind x.chars path

/-- What comes behind a segment is a point or nothing. -/
theorem head?_charsBehind {p : Char → Bool} (stop : p '.' = false) (path : List Segment) :
    ∀ c ∈ (charsBehind path).head?, p c = false := by
  cases path with
  | nil => exact fun c hc => nomatch hc
  | cons segment path =>
    rintro c ⟨⟩
    exact stop

theorem lexes_dot (h : Lexes rest ts) : Lexes ('.' :: rest) (.symbol .dot :: ts) :=
  .lexeme rfl rfl h

theorem lexes_name (n : Identifier) (stop : ∀ c ∈ rest.head?, isNameChar c = false)
    (h : Lexes rest ts) :
    Lexes (n.chars ++ rest) (.ident n.text :: ts) := by
  have start := Lexer.isNameStart_iff.2 n.start
  have noBlank : Lexer.isBlank n.first = false :=
    (Lexer.Lexeme.name n.start n.goesOn).head_not_blank
  have token : Lexer.nameToken n.chars = .ident n.text := by
    obtain ⟨word, spelled, -⟩ | ⟨-, token⟩ := Lexer.nameToken_cases n.chars
    · exact (n.noWord word spelled).elim
    · exact token
  obtain ⟨whole, behind⟩ :=
    Lexer.span_append (fun c hc => Lexer.isNameChar_iff.2 (n.goesOn c hc)) stop
  rw [Identifier.chars] at token ⊢
  rw [List.cons_append]
  refine .lexeme noBlank ?_ h
  rw [scan, if_neg (by simp [n.start.isDigit_eq_false]), if_neg n.start.not_quote, if_pos start]
  simp only [taken, Lexer.scanName, whole, behind, token]
  rfl

/-! ## Positions -/

/-- A position is written with at least one digit. -/
theorem exists_digits (i : Nat) :
    ∃ c more, (toString i).toList = c :: more ∧ Digits (c :: more) := by
  have spelled : (toString i).toList = Nat.toDigits 10 i := Nat.toList_repr
  obtain ⟨c, more, hcons⟩ := List.exists_cons_of_ne_nil (Nat.toDigits_ne_nil (n := i) (b := 10))
  refine ⟨c, more, spelled.trans hcons, List.cons_ne_nil _ _, fun d hd => Lexer.isDigit_iff.1 ?_⟩
  rw [← hcons] at hd
  exact Nat.isDigit_of_mem_toDigits (by decide) (by decide) hd

theorem numeral_toString (i : Nat) : numeral (toString i).toList = i := by
  obtain ⟨c, more, hcons, digits⟩ := exists_digits i
  rw [Lexer.numeral_eq (hcons ▸ digits.isDigit)]
  exact (congrArg (Nat.ofDigitChars 10 · 0) Nat.toList_repr).trans
    (Nat.ofDigitChars_toDigits (by decide) (by decide))

theorem numeral_joined (i j : Nat) :
    numeral ((toString i).toList ++ (toString j).toList) = i * 10 ^ (toString j).length + j := by
  obtain ⟨c, more, hi, digits⟩ := exists_digits i
  obtain ⟨d, others, hj, digits'⟩ := exists_digits j
  have ofI := numeral_toString i
  have ofJ := numeral_toString j
  rw [Lexer.numeral_eq (hi ▸ digits.isDigit)] at ofI
  rw [Lexer.numeral_eq (hj ▸ digits'.isDigit)] at ofJ
  rw [Lexer.numeral_eq (List.forall_mem_append.2 ⟨hi ▸ digits.isDigit, hj ▸ digits'.isDigit⟩),
    Nat.ofDigitChars_append, Nat.ofDigitChars_eq_ofDigitChars_zero, ofI, ofJ, Nat.mul_comm,
    String.length_toList]

theorem lexes_position (fits : i < 9223372036854775808) (stop : ∀ c ∈ rest.head?, c.isDigit = false)
    (whole : Lexer.fraction? rest = none) (h : Lexes rest ts) :
    Lexes ((toString i).toList ++ rest) (.int i :: ts) := by
  have number := numeral_toString i
  obtain ⟨c, more, hcons, digits⟩ := exists_digits i
  obtain ⟨first, others⟩ := List.forall_mem_cons.1 digits.isDigit
  obtain ⟨all, behind⟩ := Lexer.span_append others stop
  rw [hcons] at number ⊢
  rw [List.cons_append]
  refine .lexeme (Lexer.Lexeme.int digits).head_not_blank ?_ h
  rw [scan, if_pos first, Lexer.taken_scanNumber, all, behind, whole, number]
  exact if_pos ⟨by omega, by omega⟩

theorem lexes_joined (i j : Nat) (stop : ∀ c ∈ rest.head?, c.isDigit = false) (h : Lexes rest ts) :
    Lexes ((toString i).toList ++ '.' :: ((toString j).toList ++ rest))
      (.float (joined i j) :: ts) := by
  have number := numeral_joined i j
  have length := String.length_toList (s := toString j)
  rw [joined]
  obtain ⟨c, more, hi, digits⟩ := exists_digits i
  obtain ⟨d, others, hj, digits'⟩ := exists_digits j
  obtain ⟨first, whole⟩ := List.forall_mem_cons.1 digits.isDigit
  obtain ⟨first', fraction⟩ := List.forall_mem_cons.1 digits'.isDigit
  obtain ⟨all', behind'⟩ := Lexer.span_append fraction stop
  have point : ∀ c ∈ ('.' :: d :: (others ++ rest)).head?, c.isDigit = false := by
    rintro _ ⟨⟩
    rfl
  obtain ⟨all, behind⟩ := Lexer.span_append whole point
  rw [hi, hj] at number
  rw [hj] at length
  rw [hi, hj, List.cons_append, List.cons_append]
  refine .lexeme (Lexer.Lexeme.int digits).head_not_blank ?_ h
  rw [scan, if_pos first, Lexer.taken_scanNumber, all, behind,
    Lexer.fraction?_eq_some.2 ⟨rfl, first'⟩]
  dsimp only
  rw [all', behind', number, ← length]
  rfl

/-! ## Whole paths -/

theorem lexes_segment (segment : Segment) (stop : ∀ c ∈ rest.head?, isNameChar c = false)
    (whole : segment.IsPosition → Lexer.fraction? rest = none) (h : Lexes rest ts) :
    Lexes (segment.text.toList ++ rest) (segment.token :: ts) := by
  cases segment with
  | name n =>
    rw [Segment.text, Identifier.text, String.toList_ofList]
    exact lexes_name n stop h
  | position i fits =>
    refine lexes_position fits (fun c hc => ?_) (whole trivial) h
    have noName := stop c hc
    rw [isNameChar, Bool.or_eq_false_iff] at noName
    exact noName.2

/-- A member that has a name is no fraction. -/
theorem fraction?_charsBehind (named : ∀ segment ∈ path.head?, ¬segment.IsPosition) :
    Lexer.fraction? (charsBehind path) = none := by
  cases path with
  | nil => rfl
  | cons segment path =>
    cases segment with
    | position i fits => exact (named _ rfl trivial).elim
    | name n =>
      have start := n.start.isDigit_eq_false
      simp [charsBehind, Segment.text, Identifier.text, Identifier.chars, Lexer.fraction?, start]

theorem lexes_charsBehind (path : List Segment) : Lexes (charsBehind path) (tokens path) := by
  fun_induction tokens path with
  | case1 => exact .nil
  | case2 i fits j fits' rest ih =>
    have chars : charsBehind (.position i fits :: .position j fits' :: rest) =
        '.' :: ((toString i).toList ++ '.' :: ((toString j).toList ++ charsBehind rest)) := by
      simp [charsBehind, Segment.text]
    rw [chars]
    exact lexes_dot (lexes_joined i j (head?_charsBehind rfl rest) ih)
  | case3 segment rest apart ih =>
    have chars : charsBehind (segment :: rest) =
        '.' :: (segment.text.toList ++ charsBehind rest) := by
      simp [charsBehind]
    rw [chars]
    refine lexes_dot (lexes_segment segment (head?_charsBehind rfl rest) (fun position => ?_) ih)
    refine fraction?_charsBehind fun next hnext => ?_
    cases segment with
    | name => cases position
    | position i fits =>
      cases rest with
      | nil => cases hnext
      | cons other rest =>
        cases hnext
        cases next with
        | name => exact id
        | position j fits' => exact (apart i fits j fits' rest rfl rfl).elim

theorem tokenize_source (x : Identifier) (path : List Segment) :
    Lexer.tokenize (source x path) = .ok (.ident x.text :: tokens path) := by
  rw [Lexer.tokenize_eq_ok, source_toList]
  exact lexes_name x (head?_charsBehind rfl path) (lexes_charsBehind path)

/-! ## Reading the tokens -/

open StepFlow.Parser (ExprReader access)

variable {inner : ExprReader} {e : Expr}

theorem gives_memberName (segment : Segment) (rest : List Token) :
    Gives (Parser.memberName (segment.token :: rest)) segment.text rest := by
  cases segment with
  | name n => exact Parser.gives_memberName.2 (.inl rfl)
  | position i fits => exact Parser.gives_memberName.2 (.inr ⟨i, rfl, rfl⟩)

/-- Without two positions next to each other all members are read. -/
theorem gives_access (apart : firstPair? path = none) (e : Expr) :
    Gives (access inner e (tokens path)) (members e path) [] := by
  fun_induction tokens path generalizing e with
  | case1 => exact (Parser.gives_access_stop (by simp)).2 ⟨rfl, rfl⟩
  | case2 => cases apart
  | case3 segment rest single ih =>
    rw [firstPair?] at apart
    · exact Parser.gives_access_dot.2 ⟨_, _, gives_memberName segment _, ih apart _⟩
    · exact single

/-- At the first two positions that stand next to each other the reading ends with an error. -/
theorem access_of_pair (inner : ExprReader) (pair : firstPair? path = some (i, j)) (e : Expr) :
    access inner e (tokens path) = .error (.memberName (some (.float (joined i j)))) := by
  fun_induction tokens path generalizing e with
  | case1 => cases pair
  | case2 =>
    cases pair
    rw [access]
    rfl
  | case3 segment rest single ih =>
    rw [firstPair?] at pair
    · obtain ⟨shorter, name⟩ := gives_memberName segment (tokens rest)
      rw [access, name]
      exact bind_of_error (ih pair _) _
    · exact single

theorem members_height (path : List Segment) :
    (members e path).height = e.height + path.length := by
  induction path generalizing e with
  | nil => rfl
  | cons segment path ih =>
    rw [members, List.foldl_cons, ← members, ih, Expr.height, List.length_cons]
    omega

end Path

/-- A path is read as its members from the left to the right, as long as it is short enough, unless
two positions stand next to each other in it: then what is between its first two such points is one
number, and no member is called by that. -/
theorem parse_path (x : Identifier) (path : List Segment) :
    (Path.firstPair? path = none ↔ path.IsChain fun p q => ¬(p.IsPosition ∧ q.IsPosition)) ∧
    Parser.parse (Path.source x path) =
      match Path.firstPair? path with
      | some (i, j) => .error (.malformed (.memberName (some (.float (Path.joined i j)))))
      | none =>
        if path.length < maxDepth then .ok (Path.members (.var x.text) path)
        else .error (.malformed .tooDeep) := by
  refine ⟨Path.firstPair?_eq_none, ?_⟩
  have room : maxDepth = 127 + 1 := rfl
  have tokens : Parser.parse (Path.source x path) =
      (Parser.parseTokens (.ident x.text :: Path.tokens path)).mapError .malformed := by
    rw [Parser.parse, Path.tokenize_source]
    rfl
  rw [tokens]
  cases pair : Path.firstPair? path with
  | some found =>
    obtain ⟨i, j⟩ := found
    have refused := Path.access_of_pair (Parser.levels 127).conditional pair (.var x.text)
    rw [Parser.parseTokens_of_error x.text (room ▸ Parser.conditional_of_error x.text refused)]
    rfl
  | none =>
    have first :
        Gives (Parser.primary (Parser.levels 127).conditional (.ident x.text :: Path.tokens path))
        (.var x.text) (Path.tokens path) := gives_ok.2 ⟨rfl, rfl⟩
    have all := Parser.gives_postfixed.2 ⟨_, _, first, Path.gives_access pair _⟩
    have read :=
      Parser.gives_conditional_of_postfixed all (by rintro _ ⟨⟩; rfl) (by simp [Parser.Ends])
    have depth : (Path.members (.var x.text) path).depth = 1 + path.length := by
      rw [Expr.depth_eq_height, Path.members_height, Expr.height]
    rw [Parser.parseTokens_of_gives (room ▸ read), depth]
    by_cases short : path.length < maxDepth
    · rw [if_pos (by omega)]
      exact (if_pos short).symm
    · rw [if_neg (by omega)]
      exact (if_neg short).symm

def matrix : Identifier := .ofChars 'm' ['a', 't', 'r', 'i', 'x'] (by decide)

/-- A row of a table can be asked for behind a point, but not a cell of that row. -/
theorem parse_cell_of_table :
    let table (name : String) : Option Value :=
      if name = "matrix" then some (.array [.array [.bool true, .bool false]]) else none
    Path.source matrix [.position 0 (by decide), .position 1 (by decide)] = "matrix.0.1" ∧
    (∀ e, Parser.parse "matrix.0.1" ≠ .ok e) ∧
    tryEvaluate table "matrix.0.1" =
      .error (.malformed (.memberName (some (.float (Path.joined 0 1))))) ∧
    tryEvaluate table "matrix.0" = .ok (.array [.bool true, .bool false]) ∧
    tryEvaluate table "matrix[0][1]" = .ok (.bool false) := by
  refine ⟨by decide, fun e parsed => ?_, by decide +kernel, by decide +kernel, by decide +kernel⟩
  have refused : (Parser.parse "matrix.0.1").isOk = false := by decide +kernel
  rw [parsed] at refused
  cases refused

end StepFlow
