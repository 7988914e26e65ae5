import RowExpr.Proofs.Number.Exact
import RowExpr.Proofs.Number.IntegerText
import RowExpr.Proofs.Source
import RowExpr.Proofs.Unit.Legible

/-!
Cutting the text of legible code into its tokens.

The text of a legible term is cut into the tokens of the term (`Term.lexed`), and each line of a
block by itself, so that the margins between the lines do not matter (`Token.CutLines`,
`Block.cut`). The source of a unit is the lines of its factory and of its function in a frame of
fixed lines, and is cut into the tokens of the unit (`GeneratedUnit.lexes_source`).
-/

namespace RowExpr

/-! ## Pieces of text -/

namespace Token

/-! The fixed texts that stand between the parts of a line. -/

theorem closed_comma : Closed ", " [.mark ","] := closed_of_parts [.mark 44, .blank] (by decide)

theorem closed_colon : Closed ": " [.mark ":"] := closed_of_parts [.mark 58, .blank] (by decide)

theorem closed_semicolon : Closed ";" [.mark ";"] := closed_of_parts [.mark 59] (by decide)

theorem closed_leftParen : Closed "(" [.mark "("] := closed_of_parts [.mark 40] (by decide)

theorem closed_rightParen : Closed ")" [.mark ")"] := closed_of_parts [.mark 41] (by decide)

theorem closed_leftBracket : Closed "[" [.mark "["] := closed_of_parts [.mark 91] (by decide)

theorem closed_rightBracket : Closed "]" [.mark "]"] := closed_of_parts [.mark 93] (by decide)

theorem closed_rightBrace : Closed "\x7d" [.mark "\x7d"] :=
  closed_of_parts [.mark 125] (by decide)

theorem closed_callEnd : Closed ");" [.mark ")", .mark ";"] :=
  closed_of_parts [.mark 41, .mark 59] (by decide)

theorem closed_opening : Closed ") \x7b" [.mark ")", .mark "\x7b"] :=
  closed_of_parts [.mark 41, .blank, .mark 123] (by decide)

theorem closed_const : Closed "const " [.word "const"] :=
  closed_of_parts [.word "const", .blank] (by decide)

/-- A text in single quotation marks is closed if it has no line break. -/
theorem closed_singleQuoted {t : Text} (unbroken : t.Unbroken) :
    Closed t.singleQuoted [.text t] := by
  intro rest us lexes
  refine lexes.token ?_ ((Text.isSingleLiteralOf_singleQuoted unbroken).reads rest) ?_
  · exact Text.stops_cons.2 (by decide)
  · rw [List.length_append, Text.singleQuoted, List.length_cons]
    omega

/-- The quoted null unit is written with an escape. -/
theorem closed_nullUnit : Closed "\"\\0\"" [.text [0]] := by
  intro rest us lexes
  have body : Text.unquote? Text.doubleQuote ([Text.backslash, 48] ++ Text.doubleQuote :: rest) =
      some ([0], rest) := by
    rw [Text.unquote?_letter (.inl rfl) (by decide) (by decide) (by decide), Text.unquote?_quote]
    rfl
  refine lexes.token (Text.stops_cons.2 (by decide)) ?_ ?_
  · show (Text.unquote? Text.doubleQuote ([Text.backslash, 48] ++ Text.doubleQuote :: rest)).map
      _ = _
    rw [body]
    rfl
  · show rest.length < rest.length + 4
    omega

/-- An operator between blanks. -/
theorem closed_symbol (op : InfixOperator) :
    Closed (" " ++ op.symbol ++ " ") [.mark op.symbol] := by
  intro rest us lexes
  have first : first? (op.symbol ++ 32 :: rest) = some (.mark op.symbol, 32 :: rest) := by
    cases op <;> rfl
  have visible : Text.Stops Text.isBlank (op.symbol ++ 32 :: rest) := by
    cases op <;> exact Text.stops_cons.2 (by decide)
  have some : 0 < op.symbol.length := by
    cases op <;> decide
  have after := (lexes.blank (u := 32) (by decide)).token visible first (by simp; omega)
  have all := after.blank (u := 32) (by decide)
  rw [List.append_assoc, List.append_assoc]
  exact all

/-- The sign of a negation stands in front of anything but an equals sign. -/
theorem first?_not {rest : Text} (other : Text.Stops (· == 61) rest) :
    first? (33 :: rest) = some (.mark "!", rest) := by
  rcases rest with _ | ⟨u, rest⟩
  · rfl
  · have apart : (u == 61) = false := other u rfl
    have missing :
        (longMarks.find? fun m => (Text.ofString m).isPrefixOf (33 :: u :: rest)) = none := by
      refine List.find?_eq_none.2 fun m listed begins => ?_
      simp only [longMarks, List.mem_cons, List.not_mem_nil, or_false] at listed
      rcases listed with rfl | rfl | rfl | rfl | rfl | rfl | rfl | rfl | rfl | rfl
      all_goals try cases begins
      have same : ((61 == u) && true) = true := begins
      rw [BEq.comm, apart] at same
      cases same
    rw [first?, if_neg (by decide), if_neg (by decide), if_neg (by decide), missing]
    rfl

/-- An access begins with a point or a bracket, so it ends the word in front of it. -/
theorem cuts_access (field : Text) : Text.Cuts inWord (Term.memberText field) := by
  unfold Term.memberText
  split <;> exact Text.cuts_cons (by decide)

/-- An access by name ends in a word, and one by text in a bracket. -/
theorem firm_access (field : Text) : Firm (Term.memberText field) (Token.access field) := by
  unfold Term.memberText Token.access
  split
  · next identifier =>
    have point : Closed "." [.mark "."] := closed_of_parts [.mark 46] (by decide)
    intro rest us stops lexes
    exact point (firm_word identifier stops lexes)
  · exact ((closed_leftBracket.append (closed_quoted field)).append closed_rightBracket).isFirm

end Token

/-! ## Numbers -/

/-- Minus one with a fraction of one zero is read as the negative of one. -/
theorem Double.open_minusOne : Token.Open (Term.minusOne.text ++ ".0") Term.minusOne.tokens := by
  have small : (-1 : Int).natAbs < 2 ^ 53 := by decide
  let p : Numeral.Parts :=
    ⟨"1", "0", none, by decide, List.all_eq_true.1 rfl, List.all_eq_true.1 rfl⟩
  have text : Term.minusOne.text = "-1" :=
    (text_of_toInt? (toInt?_ofInt small) small).trans (by decide +kernel)
  have tokens : Term.minusOne.tokens = [.mark "-", .number (ofInt 1)] := by
    decide +kernel
  have read : ofDecimal false p.decimal = ofInt 1 := by
    have ten : p.decimal.num = 1 * 10 ∧ p.decimal.den = 1 * 10 := by decide
    rw [ofDecimal_eq, ten.1, ten.2, ofRatio_mul_right false 1 1 (by decide)]
    rfl
  rw [text, tokens, ← read]
  exact Token.closed_minus.append_open (Token.open_number p)

/-- A position of fewer than 54 bits is read as itself. -/
theorem Double.open_ofNat {i : Nat} (small : i < 2 ^ 53) :
    Token.Open (Text.ofNat i) [.number (Double.ofInt i)] := by
  have exact : (i : Int).natAbs < 2 ^ 53 := small
  have text := Double.text_of_toInt? (Double.toInt?_ofInt exact) exact
  obtain ⟨rank, number, -⟩ := Double.ofInt_of_small exact
  have positive : ¬ (i : Int) < 0 := Int.not_lt.2 (Int.natCast_nonneg i)
  have tokens : (Double.ofInt i).tokens = [.number (Double.ofInt i)] := by
    rw [number, decide_eq_false positive]
    rfl
  rw [Text.ofInt, if_neg positive, Int.natAbs_natCast] at text
  rw [← text, ← tokens]
  exact (Double.ofInt i).open_text

/-! ## Annotations -/

/-- An annotation is cut into its word, its brackets and its mark of absence. -/
theorem TypeMark.opens (a : TypeMark) : Token.Open a.text a.tokens := by
  have brackets : Token.Closed "[]" [.mark "[", .mark "]"] :=
    Token.closed_of_parts [.mark 91, .mark 93] (by decide)
  have null : Token.Open (" | " ++ "null") [.mark "|", .word "null"] :=
    (Token.closed_symbol .bitOr).append_open (Token.open_word (w := "null") (by decide))
  have word := Token.firm_word a.identifier
  have marked : Token.Firm (if a.array then a.word ++ ("[]" : Text) else a.word)
      (if a.array then [.word a.word, .mark "[", .mark "]"] else [.word a.word]) := by
    split
    · exact (word.seal brackets (Text.cuts_cons (by decide))).isFirm
    · exact word
  unfold text tokens
  dsimp only
  split
  · rw [List.append_assoc]
    exact marked.append_open null (Text.cuts_cons (by decide))
  · exact marked.isOpen

/-- The tokens of an annotation do not depend on how its text came about. -/
theorem TypeMark.markTokens_text (a : TypeMark) :
    a.text.markTokens = a.tokens := by
  have lexes := a.opens Token.ends_nil Token.lexes_nil
  rw [List.append_nil, List.append_nil] at lexes
  rw [Text.markTokens, lexes.ofText?]
  rfl

theorem Text.IsTypeMark.opens {t : Text} (marked : t.IsTypeMark) :
    Token.Open t t.markTokens := by
  obtain ⟨a, rfl⟩ := marked
  rw [a.markTokens_text]
  exact a.opens

/-! ## Terms -/

/-- The text begins, and not with an equals sign. -/
abbrev Text.Fronts (t : Text) : Prop := Text.Cuts (· == 61) t

/-- A word does not begin with an equals sign. -/
theorem Text.fronts_word {w : Text} (identifier : Name.isIdentifier w = true) : w.Fronts := by
  obtain ⟨u, tail, rfl, starts, -⟩ := Token.word_of_isIdentifier identifier
  apply Text.cuts_cons
  rw [beq_eq_false_iff_ne]
  rintro rfl
  cases starts

theorem Double.fronts_text (x : Double) : x.text.Fronts := by
  have positive : x.abs.text.Fronts := by
    cases x with
    | nan => exact Text.fronts_word (w := "NaN") (by decide)
    | infinite neg => exact Text.fronts_word (w := "Infinity") (by decide)
    | finite neg rank =>
      obtain ⟨p, text, -⟩ := Double.exists_parts rank
      obtain ⟨u, tail, begins, digit⟩ := p.text_begins
      rw [Double.abs, text, begins]
      apply Text.cuts_cons
      rw [beq_eq_false_iff_ne]
      rintro rfl
      cases digit
  rw [x.text_eq]
  split
  · exact Text.cuts_cons (by decide)
  · exact positive

/-- No text of a term begins with an equals sign. -/
theorem Term.fronts_toText {t : Term} (words : ∀ x ∈ t.names, Name.isIdentifier x.text = true) :
    t.toText.Fronts := by
  induction t with
  | name x => exact Text.fronts_word (words x List.mem_cons_self)
  | number x => exact x.fronts_text
  | fractional x => exact x.fronts_text.append _
  | bool b => cases b <;> exact Text.cuts_cons (by decide)
  | undefined | null | nullUnit => exact Text.cuts_cons (by decide)
  | text t | singleText t | paren t => exact Text.cuts_cons (by decide)
  | unary op t => cases op <;> exact Text.cuts_cons (by decide)
  | call f t => cases f <;> exact Text.cuts_cons (by decide)
  | call₂ f left right => cases f <;> exact Text.cuts_cons (by decide)
  | format formatter t | parse formatter t =>
    simp only [toText, List.append_assoc]
    exact (Text.fronts_word (words formatter List.mem_cons_self)).append _
  | ascribe t _ ih | index t _ ih | member t _ ih | invoke t _ ih | charCode t ih =>
    simp only [toText, List.append_assoc]
    exact (ih words).append _
  | binary _ t _ ih | tail t _ ih | cond t _ _ ih | slice t _ _ ih =>
    simp only [toText, List.append_assoc]
    exact (ih fun x listed => words x (List.mem_append_left _ listed)).append _

/-- The text of a term is cut into its tokens, and that of a head is even if a point follows. -/
structure Term.Lexed (t : Term) : Prop where
  opens : Token.Open t.toText t.tokens
  firm : t.isHead = true → Token.Firm t.toText t.tokens

section Lexed

variable {t : Term}

/-- Nothing more is asked of a term that is no head. -/
theorem Term.lexed_of_open (opens : Token.Open t.toText t.tokens) (other : t.isHead = false) :
    t.Lexed :=
  ⟨opens, fun head => absurd (head.symm.trans other) (by decide)⟩

/-- A term is closed by the parenthesis after it, whatever it ends with. -/
theorem Term.Lexed.close (lexed : t.Lexed) :
    Token.Closed (t.toText ++ ")") (t.tokens ++ [.mark ")"]) :=
  lexed.opens.seal Token.closed_rightParen (Text.cuts_cons (by decide))

/-- The arguments of a call of two. -/
theorem Term.Lexed.closeAfter {left : Term} (lexed : left.Lexed) (last : t.Lexed) :
    Token.Closed (left.toText ++ (", " ++ (t.toText ++ ")")))
      (left.tokens ++ .mark "," :: (t.tokens ++ [.mark ")"])) := by
  exact lexed.opens.seal (Token.closed_comma.append last.close) (Text.cuts_cons (by decide))

/-- A head in front of what begins with a point or a bracket. -/
theorem Term.Lexed.followed (lexed : t.Lexed) (head : t.isHead = true) {piece : Text}
    {ts : List Token} (closed : Token.Closed piece ts) (cuts : Text.Cuts Token.inWord piece) :
    Token.Closed (t.toText ++ piece) (t.tokens ++ ts) :=
  (lexed.firm head).seal closed cuts

end Lexed

/-- The name of a function and the parenthesis in front of its arguments. -/
theorem Function.closed_text (f : Function) :
    Token.Closed (f.text ++ "(") (f.tokens ++ [.mark "("]) := by
  cases f with
  | trunc =>
    exact Token.closed_of_parts [.word "Math", .mark 46, .word "trunc", .mark 40] (by decide)
  | abs => exact Token.closed_of_parts [.word "Math", .mark 46, .word "abs", .mark 40] (by decide)
  | single =>
    exact Token.closed_of_parts [.word "Math", .mark 46, .word "fround", .mark 40] (by decide)
  | string => exact Token.closed_of_parts [.word "String", .mark 40] (by decide)
  | charOf =>
    exact Token.closed_of_parts [.word "String", .mark 46, .word "fromCharCode",
      .mark 40] (by decide)
  | makeDate =>
    exact Token.closed_of_parts [.word "new", .blank, .word "Date", .mark 40] (by decide)
  | divisor =>
    exact Token.closed_of_parts [.word "runtime", .mark 46, .word "checkDivisor",
      .mark 40] (by decide)
  | epochMillis =>
    exact Token.closed_of_parts [.word "runtime", .mark 46, .word "parseEpochMillis",
      .mark 40] (by decide)
  | valueOf p =>
    have before :
        Token.Closed "runtime.valueOf."
          [.word "runtime", .mark ".", .word "valueOf", .mark "."] :=
      Token.closed_of_parts [.word "runtime", .mark 46, .word "valueOf", .mark 46] (by decide)
    have named : Name.isIdentifier p.name = true := by
      cases p <;> decide
    have all := before.append
      ((Token.firm_word named).seal Token.closed_leftParen (Text.cuts_cons (by decide)))
    rw [Function.text, List.append_assoc]
    exact all

theorem Function₂.closed_text (f : Function₂) :
    Token.Closed (f.text ++ "(") (f.tokens ++ [.mark "("]) := by
  cases f with
  | wordProduct =>
    exact Token.closed_of_parts [.word "Math", .mark 46, .word "imul", .mark 40] (by decide)
  | equals =>
    exact Token.closed_of_parts [.word "runtime", .mark 46, .word "equals", .mark 40] (by decide)

/-- The text of a legible term is cut into its tokens. -/
theorem Term.lexed {t : Term} (legible : t.Legible)
    (words : ∀ x ∈ t.names, Name.isIdentifier x.text = true) : t.Lexed := by
  induction t with
  | name x =>
    have firm := Token.firm_word (words x List.mem_cons_self)
    exact ⟨firm.isOpen, fun _ => firm⟩
  | number x => exact lexed_of_open x.open_text rfl
  | fractional x =>
    refine lexed_of_open ?_ rfl
    rw [toText, tokens, show x = minusOne from legible]
    exact Double.open_minusOne
  | bool b => cases b <;> exact lexed_of_open (Token.open_word (by decide)) rfl
  | undefined | null => exact lexed_of_open (Token.open_word (by decide)) rfl
  | nullUnit => exact lexed_of_open Token.closed_nullUnit.isOpen rfl
  | text t => exact lexed_of_open (Token.closed_quoted t).isOpen rfl
  | singleText t => exact lexed_of_open (Token.closed_singleQuoted legible).isOpen rfl
  | paren t ih =>
    have all : Token.Closed (paren t).toText (paren t).tokens := by
      rw [toText, List.append_assoc]
      exact Token.closed_leftParen.append (ih legible words).close
    exact ⟨all.isOpen, fun _ => all.isFirm⟩
  | ascribe t type ih =>
    obtain ⟨legible, -, marked⟩ := legible
    have between : Token.Closed " as " [.word "as"] :=
      Token.closed_of_parts [.blank, .word "as", .blank] (by decide)
    refine lexed_of_open ?_ rfl
    rw [toText, List.append_assoc]
    exact (ih legible words).opens.append_open (between.append_open marked.opens)
      (Text.cuts_cons (by decide))
  | unary op t ih =>
    have operand := (ih legible.1 words).opens
    have fronts : t.toText.Fronts := fronts_toText words
    refine lexed_of_open ?_ rfl
    cases op with
    | not =>
      intro rest us ends lexes
      have other := (fronts.append rest).stops
      exact (operand ends lexes).token (Text.stops_cons.2 (by decide)) (Token.first?_not other)
        (Nat.lt_succ_self _)
    | negate => exact (Token.closed_of_parts [.mark 45] (by decide)).append_open operand
    | complement => exact (Token.closed_of_parts [.mark 126] (by decide)).append_open operand
  | binary op left right ihl ihr =>
    obtain ⟨⟨legibleLeft, -⟩, legibleRight, -⟩ := legible
    have first := ihl legibleLeft fun x listed => words x (List.mem_append_left _ listed)
    have second := ihr legibleRight fun x listed => words x (List.mem_append_right _ listed)
    refine lexed_of_open ?_ rfl
    have all := first.opens.append_open ((Token.closed_symbol op).append_open second.opens)
      (Text.cuts_cons (by decide))
    simp only [toText, List.append_assoc] at all ⊢
    exact all
  | cond test yes no iht ihy ihn =>
    obtain ⟨⟨legibleTest, -⟩, ⟨legibleYes, -⟩, legibleNo, -⟩ := legible
    obtain ⟨inTest, others⟩ := List.forall_mem_append.1 words
    obtain ⟨inYes, inNo⟩ := List.forall_mem_append.1 others
    have question : Token.Closed " ? " [.mark "?"] :=
      Token.closed_of_parts [.blank, .mark 63, .blank] (by decide)
    have colon : Token.Closed " : " [.mark ":"] :=
      Token.closed_of_parts [.blank, .mark 58, .blank] (by decide)
    have last := (ihy legibleYes inYes).opens.append_open
      (colon.append_open (ihn legibleNo inNo).opens) (Text.cuts_cons (by decide))
    refine lexed_of_open ?_ rfl
    simp only [toText, List.append_assoc]
    exact (iht legibleTest inTest).opens.append_open (question.append_open last)
      (Text.cuts_cons (by decide))
  | index t i ih =>
    obtain ⟨legible, head, small⟩ := legible
    have position :=
      Token.closed_leftBracket.append
        ((Double.open_ofNat small).seal Token.closed_rightBracket (Text.cuts_cons (by decide)))
    refine lexed_of_open ?_ rfl
    simp only [toText, List.append_assoc]
    exact ((ih legible words).followed head position (Text.cuts_cons (by decide))).isOpen
  | member t field ih =>
    obtain ⟨legible, head⟩ := legible
    refine lexed_of_open ?_ rfl
    exact ((ih legible words).firm head).append_open (Token.firm_access field).isOpen
      (Token.cuts_access field)
  | invoke t method ih =>
    obtain ⟨legible, head⟩ := legible
    have call : Token.Closed "()" [.mark "(", .mark ")"] :=
      Token.closed_of_parts [.mark 40, .mark 41] (by decide)
    have all :=
      (Token.firm_access method).seal call (Text.cuts_cons (by decide))
    refine lexed_of_open ?_ rfl
    simp only [toText, List.append_assoc]
    exact ((ih legible words).followed head all
      ((Token.cuts_access method).append _)).isOpen
  | call f t ih =>
    refine lexed_of_open ?_ rfl
    have all := f.closed_text.append (ih legible.1 words).close
    simp only [toText, tokens, List.append_assoc] at all ⊢
    exact all.isOpen
  | call₂ f left right ihl ihr =>
    obtain ⟨⟨legibleLeft, -⟩, legibleRight, -⟩ := legible
    obtain ⟨inLeft, inRight⟩ := List.forall_mem_append.1 words
    have all :=
      f.closed_text.append ((ihl legibleLeft inLeft).closeAfter (ihr legibleRight inRight))
    refine lexed_of_open ?_ rfl
    simp only [toText, tokens, List.append_assoc] at all ⊢
    exact all.isOpen
  | charCode t ih =>
    obtain ⟨x, rfl⟩ := legible
    have before : Token.Closed ".charCodeAt(" [.mark ".", .word "charCodeAt", .mark "("] :=
      Token.closed_of_parts [.mark 46, .word "charCodeAt", .mark 40] (by decide)
    have zero :=
      before.append ((lexed_of_open (t := .number (.zero false)) (Double.open_text _) rfl).close)
    refine lexed_of_open ?_ rfl
    exact ((ih trivial words).followed rfl zero (Text.cuts_cons (by decide))).isOpen
  | tail t start iht ihs =>
    obtain ⟨⟨legible, head⟩, legibleStart, -⟩ := legible
    obtain ⟨inside, inStart⟩ := List.forall_mem_append.1 words
    have before : Token.Closed ".substring(" [.mark ".", .word "substring", .mark "("] :=
      Token.closed_of_parts [.mark 46, .word "substring", .mark 40] (by decide)
    have call := before.append (ihs legibleStart inStart).close
    refine lexed_of_open ?_ rfl
    simp only [toText, List.append_assoc]
    exact ((iht legible inside).followed head call (Text.cuts_cons (by decide))).isOpen
  | slice t start stop iht ihs ihe =>
    obtain ⟨⟨legible, head⟩, ⟨legibleStart, -⟩, legibleStop, -⟩ := legible
    obtain ⟨inside, others⟩ := List.forall_mem_append.1 words
    obtain ⟨inStart, inStop⟩ := List.forall_mem_append.1 others
    have before : Token.Closed ".substring(" [.mark ".", .word "substring", .mark "("] :=
      Token.closed_of_parts [.mark 46, .word "substring", .mark 40] (by decide)
    have call := before.append ((ihs legibleStart inStart).closeAfter (ihe legibleStop inStop))
    refine lexed_of_open ?_ rfl
    have all :=
      (iht legible inside).followed head call (Text.cuts_cons (by decide))
    simp only [toText, tokens, Token.calling, List.append_assoc, List.cons_append,
      List.nil_append] at all ⊢
    exact all.isOpen
  | format formatter t ih =>
    obtain ⟨named, inside⟩ := List.forall_mem_cons.1 words
    have before : Token.Closed ".format(" [.mark ".", .word "format", .mark "("] :=
      Token.closed_of_parts [.mark 46, .word "format", .mark 40] (by decide)
    refine lexed_of_open ?_ rfl
    simp only [toText, List.append_assoc]
    exact ((Token.firm_word named).seal (before.append (ih legible.1 inside).close)
      (Text.cuts_cons (by decide))).isOpen
  | parse formatter t ih =>
    obtain ⟨named, inside⟩ := List.forall_mem_cons.1 words
    have before : Token.Closed ".parse(" [.mark ".", .word "parse", .mark "("] :=
      Token.closed_of_parts [.mark 46, .word "parse", .mark 40] (by decide)
    refine lexed_of_open ?_ rfl
    simp only [toText, List.append_assoc]
    exact ((Token.firm_word named).seal (before.append (ih legible.1 inside).close)
      (Text.cuts_cons (by decide))).isOpen

/-! ## Lines -/

namespace Token

/-- Lines that are cut into tokens, each line by itself. -/
inductive CutLines : List Text → List Token → Prop
  | nil : CutLines [] []
  | cons {line : Text} {ts : List Token} {lines : List Text} {us : List Token} :
    Closed line ts → CutLines lines us → CutLines (line :: lines) (ts ++ us)

namespace CutLines

variable {lines lines' : List Text} {ts us : List Token}

theorem single {line : Text} (closed : Closed line ts) : CutLines [line] ts := by
  have cut := CutLines.cons closed .nil
  rw [List.append_nil] at cut
  exact cut

theorem append (first : CutLines lines ts) (second : CutLines lines' us) :
    CutLines (lines ++ lines') (ts ++ us) := by
  induction first with
  | nil => exact second
  | cons closed _ ih =>
    rw [List.append_assoc]
    exact .cons closed ih

/-- Blanks in front of every line change nothing. -/
theorem map_blanks {margin : Text} (blanks : ∀ u ∈ margin, Text.isBlank u = true)
    (cut : CutLines lines ts) : CutLines (lines.map (margin ++ ·)) ts := by
  induction cut with
  | nil => exact .nil
  | cons closed _ ih => exact .cons ((closed_blanks blanks).append closed) ih

theorem indent (cut : CutLines lines ts) : CutLines (Block.indent lines) ts :=
  cut.map_blanks (List.all_eq_true.1 rfl)

/-- The text of the lines, each ended by a line feed. -/
theorem closed (cut : CutLines lines ts) : Closed (lines.flatMap (· ++ [Text.lineFeed])) ts := by
  induction cut with
  | nil => exact closed_nil
  | cons line _ ih =>
    have feed : Closed [Text.lineFeed] [] := closed_blank (by decide)
    have ended := line.append feed
    rw [List.append_nil] at ended
    exact ended.append ih

end CutLines

end Token

section Lines

variable {x : Name} {t : Term}

/-- A term and the semicolon after it. -/
theorem Term.Lexed.ended (lexed : t.Lexed) :
    Token.Closed (t.toText ++ ";") (t.tokens ++ [.mark ";"]) :=
  lexed.opens.seal Token.closed_semicolon (Text.cuts_cons (by decide))

theorem Term.Lexed.assigned (lexed : t.Lexed) :
    Token.Closed (" = " ++ (t.toText ++ ";")) (.mark "=" :: (t.tokens ++ [.mark ";"])) :=
  (Token.closed_of_parts [.blank, .mark 61, .blank] (by decide)).append lexed.ended

/-- A name, the mark of an assignment, a value and a semicolon. -/
theorem Block.closed_assignment (named : Name.isIdentifier x.text = true) (lexed : t.Lexed) :
    Token.Closed (Block.assignment x t) (Block.assignmentTokens x t) := by
  have all :=
    (Token.firm_word named).seal lexed.assigned (Text.cuts_cons (by decide))
  simp only [Block.assignment, List.append_assoc] at all ⊢
  exact all

/-- A declaration is one line, with or without an annotation. -/
theorem Statement.cut_declare (named : Name.isIdentifier x.text = true) (lexed : t.Lexed)
    {type : Option Text} (marked : ∀ mark ∈ type, mark.IsTypeMark) :
    Token.CutLines (Statement.declare x type t).lines (Statement.declare x type t).tokens := by
  have word := Token.firm_word named
  cases type with
  | none =>
    have all :=
      Token.closed_const.append
        (word.seal lexed.assigned (Text.cuts_cons (by decide)))
    rw [Statement.lines, Statement.tokens]
    apply Token.CutLines.single
    simp only [List.append_assoc] at all ⊢
    exact all
  | some mark =>
    have value :=
      (marked mark rfl).opens.seal lexed.assigned (Text.cuts_cons (by decide))
    have all :=
      Token.closed_const.append
        (word.seal (Token.closed_colon.append value) (Text.cuts_cons (by decide)))
    rw [Statement.lines, Statement.tokens]
    apply Token.CutLines.single
    simp only [List.append_assoc] at all ⊢
    exact all

theorem Statement.cut_reserve (named : Name.isIdentifier x.text = true) {type : Text}
    (marked : type.IsTypeMark) :
    Token.CutLines (Statement.reserve x type).lines (Statement.reserve x type).tokens := by
  have reserved : Token.Closed "let " [.word "let"] :=
    Token.closed_of_parts [.word "let", .blank] (by decide)
  have mark := marked.opens.seal Token.closed_semicolon (Text.cuts_cons (by decide))
  have all :=
    reserved.append
      ((Token.firm_word named).seal (Token.closed_colon.append mark) (Text.cuts_cons (by decide)))
  rw [Statement.lines, Statement.tokens]
  apply Token.CutLines.single
  simp only [List.append_assoc] at all ⊢
  exact all

end Lines

mutual

/-- Each line of a statement is cut by itself, those of its blocks by induction. -/
theorem Statement.cut {statement : Statement} (legible : statement.Legible)
    (words : ∀ x ∈ statement.mentions, Name.isIdentifier x.text = true) :
    Token.CutLines statement.lines statement.tokens := by
  cases statement with
  | declare x type value =>
    rw [Statement.Legible] at legible
    rw [Statement.mentions] at words
    obtain ⟨named, inside⟩ := List.forall_mem_cons.1 words
    exact Statement.cut_declare named (Term.lexed legible.2.1 inside) legible.1
  | reserve x type =>
    rw [Statement.Legible] at legible
    rw [Statement.mentions] at words
    exact Statement.cut_reserve (words x List.mem_cons_self) legible
  | assign x value =>
    rw [Statement.Legible] at legible
    rw [Statement.mentions] at words
    obtain ⟨named, inside⟩ := List.forall_mem_cons.1 words
    rw [Statement.lines, Statement.tokens]
    exact .single (Block.closed_assignment named (Term.lexed legible.1 inside))
  | branch test yes no =>
    rw [Statement.Legible] at legible
    rw [Statement.mentions] at words
    obtain ⟨inTest, others⟩ := List.forall_mem_append.1 words
    obtain ⟨inYes, inNo⟩ := List.forall_mem_append.1 others
    have before : Token.Closed "if (" [.word "if", .mark "("] :=
      Token.closed_of_parts [.word "if", .blank, .mark 40] (by decide)
    have between : Token.Closed "\x7d else \x7b" [.mark "\x7d", .word "else", .mark "\x7b"] :=
      Token.closed_of_parts [.mark 125, .blank, .word "else", .blank, .mark 123] (by decide)
    have first :=
      before.append
        ((Term.lexed legible.1.1 inTest).opens.seal Token.closed_opening
          (Text.cuts_cons (by decide)))
    have yesLines := (Block.cut legible.2.1 inYes).indent
    have noLines := (Block.cut legible.2.2 inNo).indent
    have all :=
      Token.CutLines.cons
        first (yesLines.append (.cons between (noLines.append (.single Token.closed_rightBrace))))
    rw [Statement.lines, Statement.tokens]
    simp only [List.append_assoc, List.cons_append, List.nil_append] at all ⊢
    exact all
  | attempt x value otherwise =>
    rw [Statement.Legible] at legible
    rw [Statement.mentions] at words
    obtain ⟨named, others⟩ := List.forall_mem_cons.1 words
    obtain ⟨inside, inHandler⟩ := List.forall_mem_append.1 others
    have first : Token.Closed "try \x7b" [.word "try", .mark "\x7b"] :=
      Token.closed_of_parts [.word "try", .blank, .mark 123] (by decide)
    have between : Token.Closed "\x7d catch \x7b" [.mark "\x7d", .word "catch", .mark "\x7b"] :=
      Token.closed_of_parts [.mark 125, .blank, .word "catch", .blank, .mark 123] (by decide)
    have tried := (Token.CutLines.single
      (Block.closed_assignment named (Term.lexed legible.1.1 inside))).indent
    have handler := (Block.cut legible.2 inHandler).indent
    have all :=
      Token.CutLines.cons
        first (tried.append (.cons between (handler.append (.single Token.closed_rightBrace))))
    rw [Statement.lines, Statement.tokens]
    simp only [List.cons_append, List.nil_append] at all ⊢
    exact all

/-- The lines of a legible block are cut into its tokens. -/
theorem Block.cut {b : Block} (legible : b.Legible)
    (words : ∀ x ∈ b.mentions, Name.isIdentifier x.text = true) :
    Token.CutLines b.lines b.tokens := by
  cases b with
  | nil =>
    rw [Block.lines, Block.tokens]
    exact .nil
  | cons statement rest =>
    rw [Block.Legible] at legible
    rw [Block.mentions] at words
    obtain ⟨here, later⟩ := List.forall_mem_append.1 words
    rw [Block.lines, Block.tokens]
    exact (Statement.cut legible.1 here).append (Block.cut legible.2 later)

end

/-! ## Names -/

/-- An identifier can be made longer by everything that a word can hold. -/
theorem Name.isIdentifier_append {s t : Text} (identifier : Name.isIdentifier s = true)
    (more : ∀ u ∈ t, Token.inWord u = true) : Name.isIdentifier (s ++ t) = true := by
  rcases s with _ | ⟨u, s⟩
  · cases identifier
  · rw [Name.isIdentifier, Bool.and_eq_true, List.all_eq_true] at identifier
    rw [List.cons_append, Name.isIdentifier, Bool.and_eq_true, List.all_eq_true]
    refine ⟨identifier.1, List.forall_mem_append.2 ⟨identifier.2, fun v listed => ?_⟩⟩
    have unit := more v listed
    rw [Token.inWord, Token.startsWord] at unit
    simp only [Bool.or_eq_true] at unit ⊢
    rcases unit with ((letter | line) | dollar) | digit
    · exact .inl (.inl (.inl letter))
    · exact .inl (.inr line)
    · exact .inr dollar
    · exact .inl (.inl (.inr digit))

theorem Token.inWord_of_mem_ofNat {n : Nat} : ∀ u ∈ Text.ofNat n, Token.inWord u = true := by
  intro u listed
  rw [Token.inWord, Text.isDigit_of_mem_ofNat listed, Bool.or_true]

/-- The names that a registry declares are identifiers, that of a date with its number. -/
theorem Declaration.isIdentifier_name (d : Declaration) :
    Name.isIdentifier d.name.text = true := by
  cases d with
  | formatter k => cases k <;> decide
  | dateConstant t =>
    rw [Declaration.name]
    cases t with
    | none => decide
    | some i =>
      rw [Name.text]
      split
      · exact Name.isIdentifier_append (by decide) Token.inWord_of_mem_ofNat
      · exact Name.isIdentifier_append (by decide) Token.inWord_of_mem_ofNat

/-- The texts of the names that a unit can use are identifiers. -/
theorem Name.Usable.isIdentifier {inputs : List Input}
    (fine : ∀ input ∈ inputs, Input.isIdentifier input.name = true) {x : Name}
    (usable : x.Usable inputs) : Name.isIdentifier x.text = true := by
  cases usable with
  | input listed => exact Input.isIdentifier_name (fine _ listed)
  | declaration d => exact d.isIdentifier_name
  | numbered listed =>
    have begun : ∀ stem ∈ Name.stems, Name.isIdentifier (stem ++ ("$" : Text)) = true := by decide
    exact Name.isIdentifier_append (begun _ listed) Token.inWord_of_mem_ofNat

/-! ## Units -/

namespace Token

/-- Lines that are cut one by one. -/
theorem CutLines.of_map {α : Type} {f : α → Text} {g : α → List Token} {as : List α}
    (closed : ∀ a ∈ as, Closed (f a) (g a)) : CutLines (as.map f) (as.flatMap g) := by
  induction as with
  | nil => exact .nil
  | cons a as ih =>
    obtain ⟨here, others⟩ := List.forall_mem_cons.1 closed
    exact .cons here (ih others)

/-- A margin is white space. -/
theorem CutLines.setIn {lines : List Text} {ts : List Token} (cut : CutLines lines ts)
    (blanks : Nat) : CutLines (Text.setIn blanks lines) ts := by
  refine cut.map_blanks fun u listed => ?_
  rw [List.eq_of_mem_replicate listed]
  decide

/-- Pieces with commas between them. -/
theorem open_join {α : Type} {f : α → Text} {g : α → List Token} {as : List α}
    (pieces : ∀ a ∈ as, Open (f a) (g a)) :
    Open (Text.join ", " (as.map f)) (commas (as.map g)) := by
  induction as with
  | nil => exact closed_nil.isOpen
  | cons a as ih =>
    obtain ⟨here, others⟩ := List.forall_mem_cons.1 pieces
    rcases as with _ | ⟨b, as⟩
    · exact here
    · have sealed := here.seal closed_comma (Text.cuts_cons (by decide))
      have all := sealed.append_open (ih others)
      simp only [List.append_assoc] at all
      simp only [List.map_cons, Text.join, commas, List.append_assoc] at all ⊢
      exact all

/-- Parameters with their annotations, and commas between them. -/
theorem open_parameters {names : List Text}
    (named : ∀ name ∈ names, Name.isIdentifier name = true) :
    Open (Text.join ", " (names.map (· ++ ": any"))) (parameters names) := by
  have any : Open (": " ++ "any") [.mark ":", .word "any"] :=
    (closed_of_parts [.mark 58, .blank] (by decide)).append_open
      (open_word (w := "any") (by decide))
  refine open_join fun name listed => ?_
  exact (firm_word (named name listed)).append_open any (Text.cuts_cons (by decide))

end Token

/-- The line of a declaration is cut into the tokens of its statement. -/
theorem Declaration.closed_text (d : Declaration) : Token.Closed d.text d.statement.tokens := by
  have named := Token.firm_word d.isIdentifier_name
  cases d with
  | formatter k =>
    have made : Token.Closed " = runtime.createFormatter("
        [.mark "=", .word "runtime", .mark ".", .word "createFormatter", .mark "("] :=
      Token.closed_of_parts [.blank, .mark 61, .blank, .word "runtime", .mark 46,
        .word "createFormatter", .mark 40] (by decide)
    have value :=
      made.append ((Token.closed_singleQuoted k.unbroken_pattern).append Token.closed_callEnd)
    have all := Token.closed_const.append
      (named.seal value (Text.cuts_cons (by decide)))
    simp only [Declaration.text, List.append_assoc] at all ⊢
    exact all
  | dateConstant t =>
    have made : Token.Closed " = new Date(" [.mark "=", .word "new", .word "Date", .mark "("] :=
      Token.closed_of_parts [.blank, .mark 61, .blank, .word "new", .blank,
        .word "Date", .mark 40]
        (by decide)
    have value :=
      made.append (t.toDouble.open_text.seal Token.closed_callEnd (Text.cuts_cons (by decide)))
    have all := Token.closed_const.append
      (named.seal value (Text.cuts_cons (by decide)))
    simp only [Declaration.text, Declaration.statement, FactoryStatement.tokens, Term.tokens,
      Function.tokens, List.append_assoc, List.cons_append, List.nil_append] at all ⊢
    exact all

/-- The line that sets the zone of a formatter is cut into the tokens of its statement. -/
theorem Init.closed_setZone {zone : Text} (unbroken : zone.Unbroken) (k : FormatterKind) :
    Token.Closed ((Init.setZone k).text zone)
      (FactoryStatement.setZone (.formatter k) (.singleText zone)).tokens := by
  have named := Token.firm_word (Declaration.formatter k).isIdentifier_name
  have before : Token.Closed ".setTimeZone(" [.mark ".", .word "setTimeZone", .mark "("] :=
    Token.closed_of_parts [.mark 46, .word "setTimeZone", .mark 40] (by decide)
  have value := before.append ((Token.closed_singleQuoted unbroken).append Token.closed_callEnd)
  have all := named.seal value (Text.cuts_cons (by decide))
  simp only [Init.text, List.append_assoc] at all ⊢
  exact all

/-- What is returned is one term, or terms in brackets with commas between them. -/
theorem Returned.opens {r : Returned} (lexed : ∀ t ∈ r.terms, t.Lexed) :
    Token.Open r.text r.tokens := by
  cases r with
  | term t => exact (lexed t List.mem_cons_self).opens
  | list ts =>
    have items := @Token.open_join _ Term.toText Term.tokens ts
      fun t listed => (lexed t listed).opens
    have all := Token.closed_leftBracket.append
      (items.seal Token.closed_rightBracket (Text.cuts_cons (by decide)))
    rw [Returned.text, List.append_assoc]
    exact all.isOpen

section Frame

variable {names : List Text} {r : Returned}

/-- The line with which the function of a unit begins. -/
theorem UnitParts.closed_signature (named : ∀ name ∈ names, Name.isIdentifier name = true) :
    Token.Closed (("    return function evaluate(" : Text) ++
        Text.join ", " (names.map (· ++ ": any")) ++ ") \x7b")
      (([.word "return", .word "function", .word "evaluate", .mark "("] : List Token) ++
        (Token.parameters names ++ [.mark ")", .mark "\x7b"])) := by
  have before : Token.Closed "    return function evaluate("
      [.word "return", .word "function", .word "evaluate", .mark "("] :=
    Token.closed_of_parts [.blank, .blank, .blank, .blank, .word "return", .blank,
      .word "function", .blank, .word "evaluate", .mark 40] (by decide)
  rw [List.append_assoc]
  exact before.append
    ((Token.open_parameters named).seal Token.closed_opening (Text.cuts_cons (by decide)))

/-- The line with which the function of a unit ends. -/
theorem UnitParts.closed_returned (lexed : ∀ t ∈ r.terms, t.Lexed) :
    Token.Closed (("        return " : Text) ++ r.text ++ ";")
      (([.word "return"] : List Token) ++ (r.tokens ++ [.mark ";"])) := by
  have before : Token.Closed "        return " [.word "return"] :=
    Token.closed_of_parts [.blank, .blank, .blank, .blank, .blank, .blank, .blank, .blank,
      .word "return", .blank] (by decide)
  rw [List.append_assoc]
  exact before.append
    ((Returned.opens lexed).seal Token.closed_semicolon (Text.cuts_cons (by decide)))

/-- The frame of a unit, around lines that are cut into the tokens of its parts. -/
theorem UnitParts.cut_framed {members inits code : List Text} {ms is cs : List Token}
    (declared : Token.CutLines members ms) (zoned : Token.CutLines inits is)
    (named : ∀ name ∈ names, Name.isIdentifier name = true) (body : Token.CutLines code cs)
    (lexed : ∀ t ∈ r.terms, t.Lexed) :
    Token.CutLines (UnitParts.framed names members inits code r.text)
      (([.word "export", .word "function", .word "createEvaluator", .mark "(", .word "runtime",
          .mark ":", .word "any", .mark ")", .mark "\x7b"] : List Token) ++ ms ++ is ++
        (([.word "return", .word "function", .word "evaluate", .mark "("] : List Token) ++
          (Token.parameters names ++ [.mark ")", .mark "\x7b"])) ++ cs ++
        (([.word "return"] : List Token) ++ (r.tokens ++ [.mark ";"]) ++
          (([.mark "\x7d", .mark ";"] : List Token) ++ [.mark "\x7d"]))) := by
  have header : Token.Closed "export function createEvaluator(runtime: any) \x7b"
      [.word "export", .word "function", .word "createEvaluator", .mark "(", .word "runtime",
        .mark ":", .word "any", .mark ")", .mark "\x7b"] :=
    Token.closed_of_parts [.word "export", .blank, .word "function", .blank,
      .word "createEvaluator", .mark 40, .word "runtime", .mark 58, .blank, .word "any", .mark 41,
      .blank, .mark 123] (by decide)
  have inner : Token.Closed "    \x7d;" [.mark "\x7d", .mark ";"] :=
    Token.closed_of_parts [.blank, .blank, .blank, .blank, .mark 125, .mark 59] (by decide)
  have last :
      Token.CutLines [("        return " : Text) ++ r.text ++ ";", "    \x7d;", "\x7d"] _ :=
    .cons (UnitParts.closed_returned lexed) (.cons inner (.single Token.closed_rightBrace))
  exact ((((Token.CutLines.single header).append (declared.setIn 4)).append
    (zoned.setIn 4)).append
    (.single (UnitParts.closed_signature named))).append (body.setIn 8) |>.append last

end Frame

/-- The source of a legible unit is cut into the tokens of the unit. -/
theorem GeneratedUnit.lexes_source {inputs : List Input} {u : GeneratedUnit}
    (fine : ∀ input ∈ inputs, Input.isIdentifier input.name = true) (legible : u.Legible inputs) :
    Token.Lexes u.source u.tokens := by
  obtain ⟨ds, lists⟩ := legible.declares
  have words : ∀ x ∈ u.mentions, Name.isIdentifier x.text = true :=
    fun x mentioned => (legible.usable x mentioned).isIdentifier fine
  obtain ⟨inBody, inReturns⟩ := List.forall_mem_append.1 words
  have names : ∀ name ∈ u.inputs, Name.isIdentifier name = true := by
    rw [legible.named]
    exact List.forall_mem_map.2 fun input listed => Input.isIdentifier_name (fine input listed)
  have lexed : ∀ t ∈ u.returns.terms, t.Lexed := by
    intro t listed
    exact Term.lexed (legible.returns t listed).1 fun x read =>
      inReturns x (List.mem_flatMap.2 ⟨t, listed, read⟩)
  have declared := Token.CutLines.of_map fun d (_ : d ∈ ds) => d.closed_text
  have zoned := Token.CutLines.of_map fun k (_ : k ∈ ds.filterMap Declaration.formatter?) =>
    Init.closed_setZone legible.zone k
  have cut := UnitParts.cut_framed declared zoned names (Block.cut legible.body inBody) lexed
  have lexes := cut.closed Token.lexes_nil
  rw [List.append_nil, List.append_nil] at lexes
  obtain ⟨memberLines, initLines⟩ := lists.isLine legible.zone.1
  rw [GeneratedUnit.source, UnitParts.source,
    GeneratedUnit.sourceLines_eq memberLines initLines legible.tidy,
    Text.join_feed (by simp [UnitParts.framed]), lists.memberTexts_eq, lists.initTexts_eq,
    Declaration.initTexts]
  convert lexes using 1
  simp only [GeneratedUnit.tokens, GeneratedUnit.functionTokens, GeneratedUnit.factory,
    lists.memberStatements, lists.initStatements, List.flatMap_append, List.flatMap_map,
    List.append_assoc, List.cons_append, List.nil_append]
  rfl

end RowExpr
