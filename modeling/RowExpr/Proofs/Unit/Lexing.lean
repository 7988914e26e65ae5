import RowExpr.Code.Name
import RowExpr.Number.Arithmetic
import RowExpr.Proofs.Number.Layout
import RowExpr.Proofs.Text.Quoted
import RowExpr.Proofs.Text.Runs
import RowExpr.Unit.Token

/-!
Tokens of texts that are put together.

A piece of text is closed if it gives its tokens whatever follows, firm if it does so in front of
everything that cannot go on with a word, and open if it does so in front of everything that
cannot go on with a word or a numeral. Marks, blanks and quoted texts are closed, words are firm
and numerals are open. Pieces are put together by `Token.Closed.append`,
`Token.Closed.append_open` and, where something follows that ends the last token, by
`Token.Firm.seal` and `Token.Open.seal`. A fixed text is closed if its parts fit
(`Token.closed_of_parts`).
-/

namespace RowExpr

namespace Token

/-! ## First tokens -/

/-- A unit with which a word can begin is not skipped as white space. -/
theorem visible_of_startsWord {u : UInt16} (starts : startsWord u = true) :
    Text.isBlank u = false := by
  simp only [startsWord, Text.isLetter, Bool.or_eq_true, Bool.and_eq_true,
    decide_eq_true_iff, beq_iff_eq, UInt16.le_iff_toNat_le, ← UInt16.toNat_inj,
    UInt16.reduceToNat] at starts
  exact Text.isBlank_of_visible (by omega) (by omega)

/-- A digit is not skipped, and begins no word. -/
theorem visible_of_isDigit {u : UInt16} (digit : Text.isDigit u = true) :
    Text.isBlank u = false ∧ startsWord u = false := by
  simp only [Text.isDigit, Bool.and_eq_true, decide_eq_true_iff, UInt16.le_iff_toNat_le,
    UInt16.reduceToNat] at digit
  refine ⟨Text.isBlank_of_visible (by omega) (by omega), ?_⟩
  simp only [startsWord, Text.isLetter, Bool.or_eq_false_iff, Bool.and_eq_false_iff,
    decide_eq_false_iff_not, beq_eq_false_iff_ne, UInt16.le_iff_toNat_le, ne_eq,
    ← UInt16.toNat_inj, UInt16.reduceToNat]
  omega

/-- An identifier is a word. -/
theorem word_of_isIdentifier {w : Text} (identifier : Name.isIdentifier w = true) :
    ∃ u tail, w = u :: tail ∧ startsWord u = true ∧ ∀ v ∈ w, inWord v = true := by
  rcases w with _ | ⟨u, tail⟩
  · cases identifier
  · rw [Name.isIdentifier, Bool.and_eq_true, List.all_eq_true] at identifier
    refine ⟨u, tail, rfl, identifier.1, List.forall_mem_cons.2 ⟨?_, fun v listed => ?_⟩⟩
    · rw [inWord, startsWord, identifier.1, Bool.true_or]
    · have unit := identifier.2 v listed
      rw [inWord, startsWord]
      simp only [Bool.or_eq_true] at unit ⊢
      rcases unit with ((letter | digit) | line) | dollar
      · exact .inl (.inl (.inl letter))
      · exact .inr digit
      · exact .inl (.inl (.inr line))
      · exact .inl (.inr dollar)

section First

variable {rest : Text}

/-- A word is taken whole. -/
theorem first?_word {w : Text} (identifier : Name.isIdentifier w = true)
    (stops : Text.Stops inWord rest) : first? (w ++ rest) = some (.word w, rest) := by
  obtain ⟨u, tail, rfl, starts, all⟩ := word_of_isIdentifier identifier
  have taken := Text.takeWhile_run all stops
  have dropped := Text.dropWhile_run all stops
  rw [List.cons_append] at taken dropped ⊢
  rw [first?, if_pos starts, taken, dropped]

/-- A numeral is taken whole, with its fraction and its exponent. -/
theorem first?_number (p : Numeral.Parts) (ends : Ends rest) :
    first? (p.text ++ rest) = some (.number (Double.ofDecimal false p.decimal), rest) := by
  have length := p.numberLength_text ends
  have taken : (p.text ++ rest).take p.text.length = p.text := List.take_left
  have dropped : (p.text ++ rest).drop p.text.length = rest := List.drop_left
  have read := p.decimal?_text
  obtain ⟨u, tail, shape, digit⟩ := p.text_begins
  rw [shape, List.cons_append] at length taken dropped ⊢
  rw [shape] at read
  rw [first?, if_neg (ne_true_of_eq_false (visible_of_isDigit digit).2), if_pos digit]
  dsimp only
  rw [length, taken, dropped, read, Option.map_some]

/-- A quoted text is taken up to its last quotation mark. -/
theorem first?_quoted (t : Text) : first? (t.quoted ++ rest) = some (.text t, rest) := by
  have read := (Text.spells_escape t).unquote?_eq (.inl rfl) rest
  rw [Text.quoted, List.cons_append, List.append_assoc, List.singleton_append, first?,
    if_neg (by decide), if_neg (by decide), if_pos (.inl rfl), read, Option.map_some]

/-- The units with which a longer mark can begin. -/
def longStarts : Text := "=!<>&|"

/-- Only a few units begin a mark of more than one unit. -/
theorem find?_longMarks {u : UInt16} (other : u ∉ longStarts) :
    (longMarks.find? fun m => (Text.ofString m).isPrefixOf (u :: rest)) = none := by
  have starts : ∀ m ∈ longMarks, ∃ v ∈ longStarts, (Text.ofString m).head? = some v := by decide
  refine List.find?_eq_none.2 fun m listed begins => ?_
  obtain ⟨v, start, first⟩ := starts m listed
  obtain ⟨tail, whole⟩ := List.isPrefixOf_iff_prefix.1 begins
  rcases text : Text.ofString m with _ | ⟨w, more⟩
  · rw [text] at first
    cases first
  · rw [text] at first whole
    cases first
    cases whole
    exact other start

/-- A mark of one unit, if no longer one begins with it. -/
theorem first?_mark {u : UInt16} (short : u ∈ shortMarks) (other : u ∉ longStarts) :
    first? (u :: rest) = some (.mark [u], rest) := by
  have plain : (shortMarks.all fun v =>
      !startsWord v && !Text.isDigit v && (v != Text.doubleQuote && v != Text.singleQuote)) =
        true := by decide
  have here := List.all_eq_true.1 plain u short
  simp only [Bool.and_eq_true, Bool.not_eq_true', bne_iff_ne] at here
  obtain ⟨⟨noWord, noDigit⟩, noQuotes⟩ := here
  rw [first?, if_neg (ne_true_of_eq_false noWord), if_neg (ne_true_of_eq_false noDigit),
    if_neg (not_or.2 noQuotes), find?_longMarks other]
  dsimp only
  rw [if_pos short]

/-- An equals sign alone is known by the blank after it. -/
theorem first?_assign : first? (61 :: 32 :: rest) = some (.mark "=", 32 :: rest) := rfl

end First

/-! ## Pieces -/

/-- A text is cut into these tokens, with any fuel that allows for their number. -/
structure Lexes (t : Text) (ts : List Token) : Prop where
  few : ts.length ≤ t.length
  scan : ∀ fuel, ts.length ≤ fuel → Token.scan fuel t = some ts

section Lexes

variable {t rest : Text} {ts : List Token}

/-- As many steps as the text has units suffice. -/
theorem Lexes.ofText? (lexes : Lexes t ts) : ofText? t = some ts := lexes.scan t.length lexes.few

theorem lexes_nil : Lexes [] [] := by
  refine ⟨Nat.le_refl 0, fun fuel _ => ?_⟩
  cases fuel <;> rfl

theorem Lexes.blank (lexes : Lexes t ts) {u : UInt16} (blank : Text.isBlank u = true) :
    Lexes (u :: t) ts := by
  refine ⟨Nat.le_succ_of_le lexes.few, fun fuel enough => ?_⟩
  rw [← lexes.scan fuel enough]
  cases fuel with
  | zero => rw [Token.scan, Token.scan, List.dropWhile_cons_of_pos blank]
  | succ fuel => rw [Token.scan, Token.scan, List.dropWhile_cons_of_pos blank]

/-- The first token is taken off, and the rest is cut by itself. -/
theorem Lexes.token (lexes : Lexes rest ts) {token : Token}
    (visible : Text.Stops Text.isBlank t) (first : first? t = some (token, rest))
    (shorter : rest.length < t.length) : Lexes t (token :: ts) := by
  refine ⟨Nat.succ_le_of_lt (Nat.lt_of_le_of_lt lexes.few shorter), fun fuel enough => ?_⟩
  rcases fuel with _ | fuel
  · cases enough
  · have here : t.dropWhile Text.isBlank = t := @Text.dropWhile_run _ [] _ nofun visible
    rw [Token.scan, here]
    rcases t with _ | ⟨u, t⟩
    · cases shorter
    · dsimp only
      rw [first]
      dsimp only
      rw [lexes.scan fuel (Nat.le_of_succ_le_succ enough)]
      rfl

end Lexes

/-- A piece of text gives these tokens, whatever follows. -/
def Closed (piece : Text) (ts : List Token) : Prop :=
  ∀ ⦃rest us⦄, Lexes rest us → Lexes (piece ++ rest) (ts ++ us)

/-- A piece of text gives these tokens in front of what cannot go on with a word. -/
def Firm (piece : Text) (ts : List Token) : Prop :=
  ∀ ⦃rest us⦄, Text.Stops inWord rest → Lexes rest us → Lexes (piece ++ rest) (ts ++ us)

/-- A piece of text gives these tokens in front of what cannot go on with a word or a numeral. -/
def Open (piece : Text) (ts : List Token) : Prop :=
  ∀ ⦃rest us⦄, Ends rest → Lexes rest us → Lexes (piece ++ rest) (ts ++ us)

section Pieces

variable {piece piece' : Text} {ts ts' : List Token}

theorem closed_nil : Closed [] [] := fun _ _ lexes => lexes

theorem Closed.isFirm (closed : Closed piece ts) : Firm piece ts :=
  fun _ _ _ lexes => closed lexes

theorem Closed.isOpen (closed : Closed piece ts) : Open piece ts :=
  fun _ _ _ lexes => closed lexes

theorem Firm.isOpen (firm : Firm piece ts) : Open piece ts :=
  fun _ _ ends lexes => firm ends.stops_inWord lexes

/-- Two closed pieces make a closed one. -/
theorem Closed.append (first : Closed piece ts) (second : Closed piece' ts') :
    Closed (piece ++ piece') (ts ++ ts') := by
  intro rest us lexes
  rw [List.append_assoc, List.append_assoc]
  exact first (second lexes)

/-- A piece that ends open stays open behind a closed one. -/
theorem Closed.append_open (first : Closed piece ts) (second : Open piece' ts') :
    Open (piece ++ piece') (ts ++ ts') := by
  intro rest us ends lexes
  rw [List.append_assoc, List.append_assoc]
  exact first (second ends lexes)

/-- An open piece is closed by a piece that neither a word nor a numeral can go on with. -/
theorem Open.seal (first : Open piece ts) (second : Closed piece' ts')
    (cuts : Text.Cuts (fun u => inWord u || u == 46) piece') :
    Closed (piece ++ piece') (ts ++ ts') := by
  intro rest us lexes
  rw [List.append_assoc, List.append_assoc]
  exact first (cuts.append rest).stops (second lexes)

/-- Two open pieces can be put together if the second ends the last token of the first. -/
theorem Open.append_open (first : Open piece ts) (second : Open piece' ts')
    (cuts : Text.Cuts (fun u => inWord u || u == 46) piece') :
    Open (piece ++ piece') (ts ++ ts') := by
  intro rest us ends lexes
  rw [List.append_assoc, List.append_assoc]
  exact first (cuts.append rest).stops (second ends lexes)

/-- A firm piece is closed by a piece that no word can go on with; a point will do. -/
theorem Firm.seal (first : Firm piece ts) (second : Closed piece' ts')
    (cuts : Text.Cuts inWord piece') : Closed (piece ++ piece') (ts ++ ts') := by
  intro rest us lexes
  rw [List.append_assoc, List.append_assoc]
  exact first (cuts.append rest).stops (second lexes)

theorem Firm.append_open (first : Firm piece ts) (second : Open piece' ts')
    (cuts : Text.Cuts inWord piece') : Open (piece ++ piece') (ts ++ ts') := by
  intro rest us ends lexes
  rw [List.append_assoc, List.append_assoc]
  exact first (cuts.append rest).stops (second ends lexes)

theorem closed_blank {u : UInt16} (blank : Text.isBlank u = true) : Closed [u] [] :=
  fun _ _ lexes => lexes.blank blank

theorem closed_blanks {t : Text} (blanks : ∀ u ∈ t, Text.isBlank u = true) : Closed t [] := by
  induction t with
  | nil => exact closed_nil
  | cons u t ih =>
    have first := closed_blank (blanks u List.mem_cons_self)
    exact first.append (ih fun v listed => blanks v (List.mem_cons_of_mem u listed))

theorem Lexes.word {w rest : Text} {us : List Token} (lexes : Lexes rest us)
    (identifier : Name.isIdentifier w = true) (stops : Text.Stops inWord rest) :
    Lexes (w ++ rest) (.word w :: us) := by
  obtain ⟨u, tail, shape, starts, -⟩ := word_of_isIdentifier identifier
  refine lexes.token ?_ (first?_word identifier stops) ?_
  · rw [shape]
    exact Text.stops_cons.2 (visible_of_startsWord starts)
  · rw [shape, List.length_append, List.length_cons]
    omega

/-- Words are firm: a point ends them. -/
theorem firm_word {w : Text} (identifier : Name.isIdentifier w = true) : Firm w [.word w] :=
  fun _ _ stops lexes => lexes.word identifier stops

theorem open_word {w : Text} (identifier : Name.isIdentifier w = true) : Open w [.word w] :=
  (firm_word identifier).isOpen

/-- Numerals are open: a point would go on with them. -/
theorem open_number (p : Numeral.Parts) :
    Open p.text [.number (Double.ofDecimal false p.decimal)] := by
  intro rest us ends lexes
  obtain ⟨u, tail, shape, digit⟩ := p.text_begins
  refine lexes.token ?_ (first?_number p ends) ?_
  · rw [shape]
    exact Text.stops_cons.2 (visible_of_isDigit digit).1
  · rw [shape, List.length_append, List.length_cons]
    omega

/-- A quoted text is closed by its own quotation marks. -/
theorem closed_quoted (t : Text) : Closed t.quoted [.text t] := by
  intro rest us lexes
  refine lexes.token ?_ (first?_quoted t) ?_
  · exact Text.stops_cons.2 (by decide)
  · rw [List.length_append, Text.quoted, List.length_cons]
    omega

/-- Marks of one unit are closed if no longer one begins with them. -/
theorem closed_mark {u : UInt16} (short : u ∈ shortMarks) (other : u ∉ longStarts) :
    Closed [u] [.mark [u]] := by
  intro rest us lexes
  have visible : (shortMarks.all fun v => !Text.isBlank v) = true := by decide
  have here := Bool.not_eq_eq_eq_not.1 (List.all_eq_true.1 visible u short)
  exact lexes.token (Text.stops_cons.2 here) (first?_mark short other) (Nat.lt_succ_self _)

end Pieces

/-! ## Fixed texts -/

/-- A part of a fixed text. -/
inductive Part where
  | blank
  | mark (u : UInt16)
  | word (w : String)

def Part.text : Part → Text
  | .blank => [32]
  | .mark u => [u]
  | .word w => w

def Part.tokens : Part → List Token
  | .blank => []
  | .mark u => [.mark [u]]
  | .word w => [.word w]

/-- A part ends the word in front of it. -/
def Part.parts : Part → Bool
  | .blank => true
  | .mark u => !inWord u
  | .word _ => false

/-- Each part is a blank, a mark or a word, and does not run together with the next. A mark
with which a longer one can begin is an equals sign in front of a blank. -/
def Part.fit : List Part → Bool
  | [] => true
  | .blank :: ps => fit ps
  | .mark u :: ps =>
    (u ∈ shortMarks && (u ∉ longStarts || (u == 61 && ps.head?.any (·.text == [32])))) && fit ps
  | .word w :: ps => (Name.isIdentifier w && ps.head?.any Part.parts) && fit ps

/-- What follows a word in a fixed text ends the word. -/
theorem Part.stops_inWord {ps : List Part} (parts : ps.head?.any Part.parts = true)
    (rest : Text) : Text.Stops inWord (ps.flatMap Part.text ++ rest) := by
  rcases ps with _ | ⟨p, ps⟩
  · cases parts
  · cases p with
    | blank => exact Text.stops_cons.2 (by decide)
    | mark u => exact Text.stops_cons.2 (Bool.not_eq_eq_eq_not.1 parts)
    | word w => cases parts

/-- A fixed text is cut into the tokens of its parts, whatever follows. That the parts fit is
decided by evaluation. -/
theorem closed_of_parts (ps : List Part) (fit : Part.fit ps = true) :
    Closed (ps.flatMap Part.text) (ps.flatMap Part.tokens) := by
  induction ps with
  | nil => exact closed_nil
  | cons p ps ih =>
    cases p with
    | blank => exact (closed_blank (by decide)).append (ih fit)
    | mark u =>
      rw [Part.fit, Bool.and_eq_true, Bool.and_eq_true, decide_eq_true_iff] at fit
      obtain ⟨⟨short, alone⟩, fit⟩ := fit
      by_cases other : u ∉ longStarts
      · exact (closed_mark short other).append (ih fit)
      · rw [decide_eq_false other, Bool.false_or, Bool.and_eq_true, beq_iff_eq] at alone
        obtain ⟨rfl, blank⟩ := alone
        rcases ps with _ | ⟨p, ps⟩
        · cases blank
        · have text : p.text = [32] := eq_of_beq blank
          intro rest us lexes
          have more := ih fit lexes
          rw [List.flatMap_cons, text] at more
          rw [List.flatMap_cons, List.flatMap_cons, text]
          exact more.token (Text.stops_cons.2 (by decide)) first?_assign (Nat.lt_succ_self _)
    | word w =>
      rw [Part.fit, Bool.and_eq_true, Bool.and_eq_true] at fit
      obtain ⟨⟨identifier, parts⟩, fit⟩ := fit
      intro rest us lexes
      rw [List.flatMap_cons, List.flatMap_cons, List.append_assoc, List.append_assoc]
      exact (ih fit lexes).word identifier (Part.stops_inWord parts rest)

theorem closed_minus : Closed "-" [.mark "-"] := closed_of_parts [.mark 45] (by decide)

end Token

/-! ## Numbers -/

/-- Whether the text of a number begins with a minus sign. -/
def Double.isSigned : Double → Bool
  | .nan => false
  | .infinite neg => neg
  | .finite neg rank => neg && rank.val != 0

/-- The token of a number without its sign. -/
def Double.token : Double → Token
  | .nan => .word "NaN"
  | .infinite _ => .word "Infinity"
  | .finite _ rank => .number (.finite false rank)

/-- The tokens of the text of a number. -/
def Double.tokens (x : Double) : List Token :=
  if x.isSigned then [.mark "-", x.token] else [x.token]

/-- A number has the text of its absolute value, after a minus sign if it is signed. -/
theorem Double.text_eq (x : Double) :
    x.text = (if x.isSigned then ("-" : Text) else []) ++ x.abs.text := by
  cases x with
  | nan => rfl
  | infinite neg => cases neg <;> rfl
  | finite neg rank =>
    cases neg with
    | false => rfl
    | true =>
      by_cases zero : rank.val = 0
      · have unsigned : (Double.finite true rank).isSigned = false := by
          rw [isSigned, zero]
          rfl
        rw [unsigned, text, if_pos zero, abs, text, if_pos zero]
        rfl
      · have signed : (Double.finite true rank).isSigned = true := by
          rw [isSigned, Bool.true_and, bne_iff_ne]
          exact zero
        rw [signed, text_finite_neg zero]
        rfl

/-- The text of a number without its sign is a numeral or a word. -/
theorem Double.open_text_abs (x : Double) : Token.Open x.abs.text [x.token] := by
  cases x with
  | nan => exact Token.open_word (w := "NaN") (by decide)
  | infinite neg => exact Token.open_word (w := "Infinity") (by decide)
  | finite neg rank =>
    obtain ⟨p, text, read⟩ := Double.exists_parts rank
    rw [Double.abs, text, Double.token, ← read]
    exact Token.open_number p

/-- The text of a number is cut into its tokens. -/
theorem Double.open_text (x : Double) : Token.Open x.text x.tokens := by
  rw [x.text_eq, Double.tokens]
  split
  · exact Token.closed_minus.append_open x.open_text_abs
  · exact x.open_text_abs

end RowExpr
