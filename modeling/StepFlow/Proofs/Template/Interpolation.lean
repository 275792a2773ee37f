import Mathlib.Data.List.Forall2
import StepFlow.ExprOr
import StepFlow.Proofs.Expression.Height
import StepFlow.Proofs.Expression.Parsing
import StepFlow.Proofs.Template.Braces

/-!
# What a text with expressions inside stands for

A template is made of literal texts with expressions between them. It is read as the call of
`concat` on its pieces: the literal texts quoted, the expressions in parentheses. Pasted together
they still have the tokens they had by themselves, and the call is parsed with the trees of the
expressions as arguments, each two levels further in than it was. So the call gives the texts and
the values joined, unless an expression fails; then it fails as the first of them does.
-/

namespace StepFlow

namespace Template

/-- The text of a document for a literal text, and for expressions each with a
literal text behind it. -/
def ofParts (first : String) (parts : List (String × String)) : String :=
  escape first ++ String.join (parts.map fun part => ofSource part.1 ++ escape part.2)

/-- The values of expressions, each with a literal text behind it, joined to a text. -/
def render (look : Bindings) : List (String × String) → Except ExprError String
  | [] => .ok ""
  | (block, text) :: rest => do
    let v ← tryEvaluate look block
    let behind ← render look rest
    return v.text ++ text ++ behind

/-! ## The pieces of a template -/

/-- The piece for a literal text; no piece for no text. -/
def literalPieces (text : String) : List Piece :=
  literalPiece (escapeChars text.toList).reverse

def pieces (parts : List (String × String)) : List Piece :=
  parts.flatMap fun part => .block part.1.toList :: literalPieces part.2

def chars (parts : List (String × String)) : List Char :=
  parts.flatMap fun part =>
    '@' :: '\x7b' :: (part.1.toList ++ '\x7d' :: escapeChars part.2.toList)

theorem pieces_cons (block text : String) (parts : List (String × String)) :
    pieces ((block, text) :: parts) =
      .block block.toList :: (literalPieces text ++ pieces parts) := rfl

theorem chars_cons (block text : String) (parts : List (String × String)) :
    chars ((block, text) :: parts) =
      '@' :: '\x7b' :: (block.toList ++ '\x7d' :: (escapeChars text.toList ++ chars parts)) := by
  simp [chars]

theorem head?_chars_ne (parts : List (String × String)) : (chars parts).head? ≠ some '\x7b' := by
  cases parts with
  | nil => simp [chars]
  | cons part parts => simp [chars]

theorem toList_ofParts (first : String) (parts : List (String × String)) :
    (ofParts first parts).toList = escapeChars first.toList ++ chars parts := by
  simp [ofParts, chars, ofSource, escape, List.flatMap_map]

/-- No literal text in front of an expression ends in the character that would
escape the expression. -/
def Separated (first : String) (parts : List (String × String)) : Prop :=
  ∀ text ∈ (first :: parts.map Prod.snd).dropLast, text.toList.getLast? ≠ some '@'

theorem endsEscaping_eq_false {text : String} (h : text.toList.getLast? ≠ some '@') :
    endsEscaping false text.toList = false := by
  rw [endsEscaping]
  split
  · next c hc => simpa [hc] using h
  · rfl

theorem piecesFrom_chars (first : String) (parts : List (String × String))
    (balanced : ∀ part ∈ parts, Balanced 0 part.1.toList) (separated : Separated first parts) :
    piecesFrom (endsEscaping false first.toList) (escapeChars first.toList).reverse (chars parts) =
      some (literalPieces first ++ pieces parts) := by
  induction parts generalizing first with
  | nil =>
    rw [chars, List.flatMap_nil, piecesFrom_nil, pieces, List.flatMap_nil, List.append_nil]
    rfl
  | cons part parts ih =>
    obtain ⟨block, text⟩ := part
    have first_ne : first.toList.getLast? ≠ some '@' := separated first (by simp)
    have others : Separated text parts := fun l hl => separated l (by simpa using .inr hl)
    have hblock : Balanced 0 block.toList := balanced (block, text) List.mem_cons_self
    have behind := ih text (fun part hp => balanced part (List.mem_cons_of_mem _ hp)) others
    rw [endsEscaping_eq_false first_ne, chars_cons, piecesFrom_block (hblock.splitAtClose_eq _),
      piecesFrom_escapeChars_append _ (head?_chars_ne parts), List.append_nil, behind, pieces_cons]
    rfl

/-- The blocks and literal texts of a template are found as they were put together. -/
theorem pieces?_ofParts (first : String) (parts : List (String × String))
    (balanced : ∀ part ∈ parts, Balanced 0 part.1.toList) (separated : Separated first parts) :
    pieces? (ofParts first parts).toList = some (literalPieces first ++ pieces parts) := by
  rw [pieces?, toList_ofParts, piecesFrom_escapeChars_append _ (head?_chars_ne parts),
    List.append_nil]
  exact piecesFrom_chars first parts balanced separated

theorem literalPieces_of_ne {text : String} (h : text ≠ "") :
    literalPieces text = [.literal (escapeChars text.toList)] := by
  have chars_ne : escapeChars text.toList ≠ [] := by
    intro hnil
    have back := unescapeChars_escapeChars text.toList
    rw [hnil] at back
    exact h (String.toList_inj.1 back.symm)
  rw [literalPieces, literalPiece, if_neg (by simpa using chars_ne), List.reverse_reverse]

/-- There is a literal text among the pieces. -/
theorem exists_literal {first : String} {parts : List (String × String)}
    (h : first ≠ "" ∨ ∃ part ∈ parts, part.2 ≠ "") :
    ∃ text, Piece.literal (escapeChars text) ∈ literalPieces first ++ pieces parts := by
  obtain h | ⟨part, hp, h⟩ := h
  · exact ⟨first.toList, by simp [literalPieces_of_ne h]⟩
  · refine ⟨part.2.toList, List.mem_append_right _ ?_⟩
    exact List.mem_flatMap.2 ⟨part, hp, by simp [literalPieces_of_ne h]⟩

/-- A template with a literal text in it is the call that joins its pieces. -/
theorem source?_ofParts {first : String} {parts : List (String × String)}
    (balanced : ∀ part ∈ parts, Balanced 0 part.1.toList) (separated : Separated first parts)
    (hparts : parts ≠ []) (text : first ≠ "" ∨ ∃ part ∈ parts, part.2 ≠ "") :
    source? (ofParts first parts) =
      some (String.ofList (joinSource (literalPieces first ++ pieces parts))) := by
  obtain ⟨literal, hliteral⟩ := exists_literal text
  have blocks : (literalPieces first ++ pieces parts).any Piece.isBlock = true := by
    obtain ⟨part, hp⟩ := List.exists_mem_of_ne_nil parts hparts
    refine List.any_eq_true.2 ⟨.block part.1.toList, List.mem_append_right _ ?_, rfl⟩
    exact List.mem_flatMap.2 ⟨part, hp, List.mem_cons_self⟩
  rw [source?, pieces?_ofParts first parts balanced separated]
  split
  · next cs hcs =>
    rw [Option.some.inj hcs] at hliteral
    simp at hliteral
  · next found _ hfound =>
    cases hfound
    rw [if_pos blocks]
  · next hnone => cases hnone

/-! ## The tokens of the pieces -/

open Lexer (Lexes Separates splitAtQuote taken scan)

variable {rest : List Char} {ts us : List Token}

theorem lexes_leftParen (h : Lexes rest ts) : Lexes ('(' :: rest) (.symbol .leftParen :: ts) :=
  .lexeme rfl rfl h

theorem lexes_rightParen (h : Lexes rest ts) : Lexes (')' :: rest) (.symbol .rightParen :: ts) :=
  .lexeme rfl rfl h

theorem lexes_comma (h : Lexes rest ts) : Lexes (',' :: ' ' :: rest) (.symbol .comma :: ts) :=
  .lexeme rfl rfl (.blank rfl h)

theorem splitAtQuote_quoteLiteral (cs rest : List Char) :
    splitAtQuote '\'' (cs.flatMap (fun c => if c = '\\' ∨ c = '\'' then ['\\', c] else [c]) ++
        '\'' :: rest) =
      some (cs.flatMap (fun c => if c = '\\' ∨ c = '\'' then ['\\', c] else [c]), rest) := by
  induction cs with
  | nil =>
    rw [List.flatMap_nil, List.nil_append]
    unfold splitAtQuote
    simp
  | cons c cs ih =>
    rw [List.flatMap_cons]
    by_cases h : c = '\\' ∨ c = '\''
    · have hc : c ≠ '\n' := by rcases h with rfl | rfl <;> decide
      simp only [if_pos h, List.cons_append, List.nil_append]
      unfold splitAtQuote
      simp [hc, ih]
    · obtain ⟨hb, hq⟩ := not_or.1 h
      simp only [if_neg h, List.cons_append, List.nil_append]
      unfold splitAtQuote
      simp [hb, hq, ih]

theorem unescape_quoteLiteral (cs : List Char) :
    Lexer.unescape (cs.flatMap (fun c => if c = '\\' ∨ c = '\'' then ['\\', c] else [c])) = cs := by
  induction cs with
  | nil => rfl
  | cons c cs ih =>
    rw [List.flatMap_cons]
    by_cases h : c = '\\' ∨ c = '\''
    · have hc : Lexer.escaped c = c := by rcases h with rfl | rfl <;> decide
      simp only [if_pos h, List.cons_append, List.nil_append]
      rw [Lexer.unescape, hc, ih]
    · simp only [if_neg h, List.cons_append, List.nil_append]
      rw [Lexer.unescape, ih]
      · exact fun hc _ => h (.inl hc)
      · exact fun _ _ hc _ => h (.inl hc)

/-- A quoted text is the token of that text, whatever comes behind it. -/
theorem lexes_quoteLiteral (cs : List Char) (h : Lexes rest ts) :
    Lexes (quoteLiteral cs ++ rest) (.text (String.ofList cs) :: ts) := by
  have quoted := splitAtQuote_quoteLiteral cs rest
  simp only [quoteLiteral, List.cons_append, List.nil_append, List.append_assoc]
  refine .lexeme rfl ?_ h
  rw [scan, if_neg (by decide), if_pos (by decide), Lexer.taken_scanText, quoted]
  dsimp only
  rw [unescape_quoteLiteral]

theorem lexes_concat (h : Lexes rest ts) :
    Lexes ("concat(".toList ++ rest) (.ident "concat" :: .symbol .leftParen :: ts) := by
  have name : Lexes "concat".toList [.ident "concat"] := .lexeme rfl rfl .nil
  have opening : "concat(".toList = "concat".toList ++ ['('] := by decide
  have parenthesis : Separates '(' := by decide
  rw [opening, List.append_assoc]
  exact name.append parenthesis (lexes_leftParen h)

/-! ## The pieces as arguments -/

/-- A piece is read as an argument of a call: its tokens, pasted in front of what separates, and the
tree that they are read as. -/
structure Argument (piece : Piece) (ts : List Token) (e : Expr) : Prop where
  lexes : ∀ {d rest us}, Separates d → Lexes (d :: rest) us →
    Lexes (piece.source ++ d :: rest) (ts ++ us)
  gives : ∀ rest, Parser.Ends rest →
    Gives ((Parser.levels (maxDepth - 1)).conditional (ts ++ rest)) e rest
  opens : ∀ rest, (ts ++ rest).head? ≠ some (.symbol .rightParen)
  height : e.height ≤ maxDepth - 1

theorem argument_literal (text : String) :
    Argument (.literal (escapeChars text.toList)) [.text text] (.literal (.string text)) where
  lexes := by
    intro d rest us _ h
    have quoted := lexes_quoteLiteral text.toList h
    rwa [String.ofList_toList, ← unescapeChars_escapeChars text.toList] at quoted
  gives := by
    intro rest ends
    exact Parser.gives_conditional_of_primary (Parser.gives_primary_literal rfl)
      (by rintro _ ⟨⟩; rfl) ends
  opens := by
    intro rest h
    cases h
  height := by
    simp [Expr.height, maxDepth]

/-- An expression that keeps two levels of the limit, and one of its depth, free
can be an argument. -/
theorem argument_block {block : String} {w : List Placed} {e : Expr}
    (hw : Lexes block.toList (Grammar.tokens w)) (derived : Grammar.Conditional 0 w e)
    (within : Grammar.Within (maxDepth - 2) w) (height : e.height ≤ maxDepth - 1) :
    Argument (.block block.toList)
      (.symbol .leftParen :: (Grammar.tokens w ++ [.symbol .rightParen])) e where
  lexes := by
    intro d rest us hd h
    have closed := hw.append (by decide) (lexes_rightParen h)
    simpa [Piece.source] using lexes_leftParen closed
  gives := by
    intro rest ends
    have room : Grammar.Within (0 + (maxDepth - 2)) w := by rwa [Nat.zero_add]
    have inside := derived.gives room (.symbol .rightParen :: rest) (Parser.ends_of_closes rfl rest)
    have atom : Gives (Parser.primary (Parser.levels (maxDepth - 2)).conditional
        (.symbol .leftParen :: (Grammar.tokens w ++ .symbol .rightParen :: rest))) e rest :=
      Parser.gives_primary_parenthesised.2 inside
    have read := Parser.gives_conditional_of_primary atom (by rintro _ ⟨⟩; rfl) ends
    rw [List.cons_append, List.append_assoc]
    exact read
  opens := by
    intro rest h
    cases h
  height := height

/-- Pieces are read as the arguments of a call, from behind its opening parenthesis
to the closing one. -/
inductive Arguments : List Piece → List Token → List Expr → Prop
  | last {piece : Piece} {ts : List Token} {e : Expr} (argument : Argument piece ts e) :
    Arguments [piece] (ts ++ [.symbol .rightParen]) [e]
  | cons {piece : Piece} {pieces : List Piece} {ts us : List Token} {e : Expr} {es : List Expr}
    (argument : Argument piece ts e) (others : Arguments pieces us es) :
    Arguments (piece :: pieces) (ts ++ .symbol .comma :: us) (e :: es)

namespace Arguments

variable {pieces : List Piece} {ts : List Token} {es : List Expr}

theorem lexes (h : Arguments pieces ts es) :
    Lexes ([',', ' '].intercalate (pieces.map Piece.source) ++ [')']) ts := by
  induction h with
  | last argument =>
    have closed := argument.lexes (by decide) (lexes_rightParen .nil)
    simpa [List.intercalate] using closed
  | @cons piece pieces ts us e es argument others ih =>
    have separated := argument.lexes (by decide) (lexes_comma ih)
    cases pieces with
    | nil => cases others
    | cons second pieces =>
      rw [List.map_cons, List.map_cons, List.intercalate_cons_cons]
      simpa using separated

theorem gives (h : Arguments pieces ts es) :
    Gives (Parser.listed.more (Parser.levels (maxDepth - 1)).conditional .rightParen ts) es [] := by
  induction h with
  | last argument =>
    have read := argument.gives [.symbol .rightParen] (Parser.ends_of_closes rfl [])
    exact (Parser.gives_more (by decide)).2 ⟨_, _, read, .inl ⟨rfl, rfl⟩⟩
  | @cons piece pieces ts us e es argument others ih =>
    have read := argument.gives (.symbol .comma :: us) (Parser.ends_comma us)
    exact (Parser.gives_more (by decide)).2 ⟨_, _, read, .inr ⟨_, _, rfl, ih, rfl⟩⟩

theorem opens (h : Arguments pieces ts es) : ts.head? ≠ some (.symbol .rightParen) := by
  cases h with
  | last argument => exact argument.opens _
  | cons argument => exact argument.opens _

theorem height (h : Arguments pieces ts es) : Expr.heightItems es ≤ maxDepth - 1 := by
  induction h with
  | last argument =>
    have first := argument.height
    rw [Expr.heightItems, Expr.heightItems]
    omega
  | cons argument _ ih =>
    have first := argument.height
    rw [Expr.heightItems]
    omega

/-- The call that joins the pieces is parsed with their trees as arguments. -/
theorem parse_joinSource (h : Arguments pieces ts es) :
    Parser.parse (String.ofList (joinSource pieces)) = .ok (.call "concat" es) := by
  have source : joinSource pieces = "concat(".toList ++
      ([',', ' '].intercalate (pieces.map Piece.source) ++ [')']) := List.append_assoc _ _ _
  have lexed : Lexes (joinSource pieces) (.ident "concat" :: .symbol .leftParen :: ts) := by
    rw [source]
    exact lexes_concat h.lexes
  have args := Parser.gives_listed.2 (.inr ⟨h.opens, h.gives⟩)
  have read := Parser.gives_conditional_of_call "concat" args (by simp [Parser.Ends])
  have depth : (Expr.call "concat" es).depth ≤ maxDepth := by
    have := h.height
    rw [Expr.depth_eq_height, Expr.height]
    simp only [maxDepth] at this ⊢
    omega
  refine Parser.parse_eq_ok_iff_tokens.2 ⟨_, ?_, read, depth⟩
  rw [Lexer.tokenize_eq_ok, String.toList_ofList]
  exact lexed

end Arguments

/-! ## The values of the pieces -/

def joinTexts (vs : List Value) : String :=
  String.join (vs.map Value.text)

theorem joinTexts_append (vs ws : List Value) :
    joinTexts (vs ++ ws) = joinTexts vs ++ joinTexts ws := by
  simp [joinTexts, String.join_append]

/-- The tree for a literal text; none for no text. -/
def literalArguments (text : String) : List Expr :=
  if text = "" then [] else [.literal (.string text)]

theorem arguments_literalPieces (text : String) :
    List.Forall₂ (fun piece e => ∃ ts, Argument piece ts e) (literalPieces text)
      (literalArguments text) := by
  by_cases h : text = ""
  · subst h
    exact .nil
  · rw [literalPieces_of_ne h, literalArguments, if_neg h]
    exact .cons ⟨_, argument_literal text⟩ .nil

theorem evalItems_append (look : Bindings) (xs ys : List Expr) :
    Expr.evalItems look (xs ++ ys) = (do
      let vs ← Expr.evalItems look xs
      let ws ← Expr.evalItems look ys
      return vs ++ ws) := by
  induction xs with
  | nil =>
    rw [List.nil_append, Expr.evalItems]
    cases Expr.evalItems look ys <;> rfl
  | cons x xs ih =>
    rw [List.cons_append, Expr.evalItems, ih, Expr.evalItems]
    cases x.eval look with
    | error e => rfl
    | ok v =>
      cases Expr.evalItems look xs with
      | error e => rfl
      | ok vs => cases Expr.evalItems look ys <;> rfl

theorem evalItems_literalArguments (look : Bindings) (text : String) :
    ∃ vs, Expr.evalItems look (literalArguments text) = .ok vs ∧ joinTexts vs = text := by
  by_cases h : text = ""
  · subst h
    exact ⟨[], rfl, rfl⟩
  · rw [literalArguments, if_neg h]
    exact ⟨[.string text], rfl, by simp [joinTexts, Value.text]⟩

/-- What a literal text and further expressions give, joined. -/
theorem map_joinTexts_append (look : Bindings) (text : String) (es : List Expr) :
    (Expr.evalItems look (literalArguments text ++ es)).map joinTexts =
      ((Expr.evalItems look es).map joinTexts).map (text ++ ·) := by
  obtain ⟨vs, hvs, htext⟩ := evalItems_literalArguments look text
  rw [evalItems_append, hvs]
  cases Expr.evalItems look es with
  | error e => rfl
  | ok ws =>
    refine congrArg Except.ok ?_
    rw [joinTexts_append, htext]

/-- What an expression, the text behind it and further expressions give, joined. -/
theorem map_joinTexts_block {look : Bindings} {block text : String} {e : Expr} {es : List Expr}
    {parts : List (String × String)} (evaluated : tryEvaluate look block = e.eval look)
    (value : (Expr.evalItems look es).map joinTexts = render look parts) :
    (Expr.evalItems look (e :: (literalArguments text ++ es))).map joinTexts =
      render look ((block, text) :: parts) := by
  have behind := map_joinTexts_append look text es
  rw [value] at behind
  rw [Expr.evalItems, render, evaluated]
  cases e.eval look with
  | error error => rfl
  | ok v =>
    cases hvs : Expr.evalItems look (literalArguments text ++ es) with
    | error error =>
      rw [hvs] at behind
      cases hr : render look parts with
      | error error' =>
        rw [hr] at behind
        cases behind
        rfl
      | ok joined =>
        rw [hr] at behind
        cases behind
    | ok vs =>
      rw [hvs] at behind
      cases hr : render look parts with
      | error error' =>
        rw [hr] at behind
        cases behind
      | ok joined =>
        rw [hr] at behind
        have joins : joinTexts vs = text ++ joined := Except.ok.inj behind
        refine congrArg Except.ok ?_
        rw [String.append_assoc, ← joins]
        exact joinTexts_append [v] vs

/-- The blocks of a template are accepted with two levels and one of the depth left free. -/
def Accepted (block : String) : Prop :=
  ∃ e, Grammar.StandsFor (maxDepth - 2) (maxDepth - 1) block e

/-- The pieces for expressions have trees whose values, joined, are what the expressions and the
texts between them give. -/
theorem exists_arguments (parts : List (String × String))
    (accepted : ∀ part ∈ parts, Accepted part.1) :
    ∃ es, List.Forall₂ (fun piece e => ∃ ts, Argument piece ts e) (pieces parts) es ∧
      (∀ look, (Expr.evalItems look es).map joinTexts = render look parts) ∧
      ∀ part ∈ parts, part.2 ≠ "" → .literal (.string part.2) ∈ es := by
  induction parts with
  | nil => exact ⟨[], .nil, fun look => rfl, by simp⟩
  | cons part parts ih =>
    obtain ⟨block, text⟩ := part
    obtain ⟨es, hes, value, texts⟩ := ih fun part hp => accepted part (List.mem_cons_of_mem _ hp)
    obtain ⟨e, stands⟩ := accepted (block, text) List.mem_cons_self
    have parsed : Parser.parse block = .ok e :=
      Parser.parse_eq_ok_iff.2 (stands.mono (by decide) (by decide))
    obtain ⟨w, hw, derived, within, hdepth⟩ := stands
    have argument := argument_block (Lexer.tokenize_eq_ok.1 hw) derived within
      (by rwa [← Expr.depth_eq_height])
    refine ⟨e :: (literalArguments text ++ es), ?_, ?_, ?_⟩
    · exact .cons ⟨_, argument⟩ (List.rel_append (arguments_literalPieces text) hes)
    · intro look
      have evaluated : tryEvaluate look block = e.eval look := by
        rw [tryEvaluate, parsed]
        rfl
      exact map_joinTexts_block evaluated (value look)
    · rintro part (_ | ⟨_, hp⟩) hne
      · exact List.mem_cons_of_mem _ (List.mem_append_left _ (by simp [literalArguments, hne]))
      · exact List.mem_cons_of_mem _ (List.mem_append_right _ (texts part hp hne))

theorem exists_list_of_joined? {vs items : List Value} (h : Builtin.joined? vs = some items) :
    ∀ v ∈ vs, ∃ inner, v = .array inner := by
  fun_induction Builtin.joined? vs generalizing items with
  | case1 => simp
  | case2 inner rest ih =>
    obtain ⟨others, hothers, -⟩ := Option.map_eq_some_iff.1 h
    rintro v (_ | ⟨_, hv⟩)
    · exact ⟨inner, rfl⟩
    · exact ih hothers v hv
  | case3 => cases h

theorem mem_of_evalItems {look : Bindings} {es : List Expr} {vs : List Value} {text : String}
    (h : Expr.evalItems look es = .ok vs) (he : .literal (.string text) ∈ es) :
    .string text ∈ vs := by
  induction es generalizing vs with
  | nil => cases he
  | cons e es ih =>
    rw [Expr.evalItems] at h
    obtain ⟨v, hv, h⟩ := bind_eq_ok.1 h
    obtain ⟨rest, hrest, h⟩ := bind_eq_ok.1 h
    cases h
    obtain _ | ⟨_, he⟩ := he
    · cases hv
      exact List.mem_cons_self
    · exact List.mem_cons_of_mem _ (ih hrest he)

/-- With something else than a list among its arguments, `concat` joins texts. -/
theorem applyConcat_eq {vs : List Value} {v : Value} (h : v ∈ vs)
    (noList : ∀ items, v ≠ .array items) :
    Builtin.applyConcat vs = .string (joinTexts vs) := by
  rw [Builtin.applyConcat.eq_def]
  split
  · next hjoined =>
    obtain ⟨inner, hinner⟩ := exists_list_of_joined? hjoined _ h
    exact (noList inner hinner).elim
  · rfl

/-- A call of `concat` with a literal text among its arguments gives their values joined. -/
theorem eval_concat {look : Bindings} {es : List Expr} {text : String}
    (h : .literal (.string text) ∈ es) :
    (Expr.call "concat" es).eval look =
      ((Expr.evalItems look es).map joinTexts).map .string := by
  have named : Builtin.ofName? "concat" = some .concat := by decide
  rw [Expr.eval]
  cases hvs : Expr.evalItems look es with
  | error error => rfl
  | ok vs =>
    have joined := applyConcat_eq (mem_of_evalItems hvs h) (by simp)
    simp only [named, Builtin.apply]
    exact congrArg Except.ok joined

theorem exists_arguments_of_forall₂ {pieces : List Piece} {es : List Expr}
    (h : List.Forall₂ (fun piece e => ∃ ts, Argument piece ts e) pieces es) (hne : pieces ≠ []) :
    ∃ ts, Arguments pieces ts es := by
  induction h with
  | nil => exact (hne rfl).elim
  | @cons piece e pieces es first others ih =>
    obtain ⟨ts, argument⟩ := first
    cases others with
    | nil => exact ⟨_, .last argument⟩
    | cons second others =>
      obtain ⟨us, arguments⟩ := ih (by simp)
      exact ⟨_, .cons argument arguments⟩

/-- A text of a document with expressions between literal texts is an expression, and it gives the
texts and the values joined; if an expression fails, it fails as the first that does. -/
theorem interpolation_joins (first : String) (parts : List (String × String))
    (hparts : parts ≠ []) (text : first ≠ "" ∨ ∃ part ∈ parts, part.2 ≠ "")
    (separated : Separated first parts) (accepted : ∀ part ∈ parts, Accepted part.1) :
    ∃ source,
      (∀ shape, ExprOr.ofValue? shape (.string (ofParts first parts)) =
        some (.expression source)) ∧
      ∀ look, tryEvaluate look source =
        (render look parts).map fun joined => .string (first ++ joined) := by
  have balanced : ∀ part ∈ parts, Balanced 0 part.1.toList := by
    intro part hp
    obtain ⟨e, w, hw, derived, -, depth⟩ := accepted part hp
    have bound : maxDepth - 1 ≤ maxInner := by decide
    rw [Expr.depth_eq_height] at depth
    exact balanced_of_conditional (Lexer.tokenize_eq_ok.1 hw) derived (Nat.le_trans depth bound)
  obtain ⟨es, hes, value, texts⟩ := exists_arguments parts accepted
  obtain ⟨literal, hliteral⟩ := exists_literal text
  obtain ⟨ts, arguments⟩ : ∃ ts,
      Arguments (literalPieces first ++ pieces parts) ts (literalArguments first ++ es) :=
    exists_arguments_of_forall₂ (List.rel_append (arguments_literalPieces first) hes)
      (List.ne_nil_of_mem hliteral)
  have argument : ∃ text, .literal (.string text) ∈ literalArguments first ++ es := by
    obtain hfirst | ⟨part, hp, hne⟩ := text
    · exact ⟨first, List.mem_append_left _ (by simp [literalArguments, hfirst])⟩
    · exact ⟨part.2, List.mem_append_right _ (texts part hp hne)⟩
  obtain ⟨_, hargument⟩ := argument
  refine ⟨String.ofList (joinSource (literalPieces first ++ pieces parts)), ?_, ?_⟩
  · intro shape
    have source := source?_ofParts balanced separated hparts text
    rw [ExprOr.ofValue?, ExprOr.source?, source]
  · intro look
    rw [tryEvaluate, arguments.parse_joinSource]
    refine (eval_concat hargument).trans ?_
    rw [map_joinTexts_append, value look]
    cases render look parts <;> rfl

/-- An escaped delimiter in front of a block and a quote behind it stand for themselves. -/
theorem interpolation_joins_escaped :
    ∃ source, ExprOr.ofValue? .text (.string "@@\x7bn\x7d is @\x7bn\x7d'") =
        some (.expression source) ∧
      tryEvaluate (fun _ => some (.string "3")) source = .ok (.string "@\x7bn\x7d is 3'") ∧
      tryEvaluate Bindings.none source = .error (.variableNotFound "n") := by
  have derived : Grammar.Conditional 0 [(.ident "n", 1)] (.var "n") :=
    (Grammar.Postfix.atom (.var 1 "n")).conditional
  have stands : Grammar.StandsFor (maxDepth - 2) (maxDepth - 1) "n" (.var "n") :=
    ⟨_, by decide +kernel, derived, by simp [maxDepth], by decide +kernel⟩
  obtain ⟨source, read, value⟩ := interpolation_joins "@\x7bn\x7d is " [("n", "'")] (by simp)
    (by simp) (by simp [Separated]) (by simpa [Accepted] using ⟨_, stands⟩)
  refine ⟨source, read .text, (value _).trans ?_, (value _).trans ?_⟩
  · decide +kernel
  · decide +kernel

end Template

end StepFlow
