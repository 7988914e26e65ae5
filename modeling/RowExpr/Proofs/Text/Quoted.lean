import RowExpr.Unit.Token

/-!
Quoted texts.

`Text.Spells` is the grammar of what stands between two quotes: units that stand for
themselves, escapes of one letter and escapes of four hexadecimal digits. What it relates to a
text is read back as that text (`Text.Spells.unquote?_eq`), and no quote in it ends the literal
early (`Text.Spells.closed`). `Text.escape` writes by this grammar, so every text between
double quotes is one token (`Text.isLiteralOf_quoted`).
-/

namespace RowExpr.Text

/-! ## Hexadecimal digits -/

/-- A hexadecimal digit is read as its value. -/
theorem hexDigitValue?_hexDigit {n : Nat} (small : n < 16) :
    hexDigitValue? (hexDigit n) = some n := by
  have all : ∀ n < 16, hexDigitValue? (hexDigit n) = some n := by decide
  exact all n small

/-- A digit is no control, no quote and no backslash. -/
theorem hexDigit_plain {n : Nat} (small : n < 16) :
    32 ≤ hexDigit n ∧ hexDigit n ≠ doubleQuote ∧ hexDigit n ≠ singleQuote ∧
      hexDigit n ≠ backslash := by
  have all : ∀ n < 16, 32 ≤ hexDigit n ∧ hexDigit n ≠ doubleQuote ∧ hexDigit n ≠ singleQuote ∧
      hexDigit n ≠ backslash := by decide
  exact all n small

/-- The four digits of a unit. -/
theorem hexDigits_lt (u : UInt16) :
    u.toNat / 4096 < 16 ∧ u.toNat / 256 % 16 < 16 ∧ u.toNat / 16 % 16 < 16 ∧
      u.toNat % 16 < 16 := by
  have bound := u.toNat_lt
  omega

/-- A unit is put together from its four hexadecimal digits. -/
theorem ofNat_hexDigits (u : UInt16) :
    UInt16.ofNat
      (u.toNat / 4096 * 4096 + u.toNat / 256 % 16 * 256 + u.toNat / 16 % 16 * 16 + u.toNat % 16) =
        u := by
  have whole : u.toNat / 4096 * 4096 + u.toNat / 256 % 16 * 256 + u.toNat / 16 % 16 * 16 +
    u.toNat % 16 =
      u.toNat := by omega
  rw [whole, UInt16.ofNat_toNat]

/-! ## Escaped units -/

/-- Whether a unit that follows the text is escaped: the text ends with a backslash that is not
escaped itself. -/
def escapes (t : Text) : Bool := t.foldl (fun escaped u => u == backslash && !escaped) false

/-- All quotes in the text are escaped, and what follows the text is not. -/
structure Closed (quote : UInt16) (t : Text) : Prop where
  inside : ∀ before after, t = before ++ quote :: after → before.escapes = true
  after : t.escapes = false

section Closed

variable {quote : UInt16}

/-- Behind a text that escapes nothing, escaping begins anew. -/
theorem escapes_append {t : Text} (closed : t.escapes = false) (rest : Text) :
    escapes (t ++ rest) = escapes rest := by
  unfold escapes at closed ⊢
  rw [List.foldl_append, closed]

theorem closed_nil : Closed quote [] :=
  ⟨fun before after same => by simp at same, rfl⟩

theorem closed_unit {u : UInt16} (other : u ≠ quote) (plain : u ≠ backslash) :
    Closed quote [u] := by
  refine ⟨fun before after same => ?_, ?_⟩
  · rcases before with _ | ⟨_, before⟩
    · exact absurd (List.cons.inj same).1 other
    · simp at same
  · simp [escapes, plain]

/-- A backslash and what it escapes, even if that is a quote. -/
theorem closed_letter (proper : quote ≠ backslash) (letter : UInt16) :
    Closed quote [backslash, letter] := by
  refine ⟨fun before after same => ?_, ?_⟩
  · rcases before with _ | ⟨u, _ | ⟨v, before⟩⟩
    · exact absurd (List.cons.inj same).1.symm proper
    · rw [← (List.cons.inj same).1]
      rfl
    · simp at same
  · simp [escapes]

/-- Closed texts can be put together. -/
theorem Closed.append {s t : Text} (first : Closed quote s) (rest : Closed quote t) :
    Closed quote (s ++ t) := by
  refine ⟨fun before after same => ?_, ?_⟩
  · rcases List.append_eq_append_iff.1 same with ⟨part, rfl, inRest⟩ | ⟨part, inFirst, following⟩
    · rw [escapes_append first.after]
      exact rest.inside part after inRest
    · rcases part with _ | ⟨u, part⟩
      · -- The rest would begin with a quote, which nothing escapes.
        exact absurd (rest.inside [] after following.symm) Bool.false_ne_true
      · obtain ⟨rfl, -⟩ := List.cons.inj following
        exact first.inside before part inFirst
  · rw [escapes_append first.after]
    exact rest.after

end Closed

/-! ## The grammar of literals -/

/-- What can stand between two quotes, and the text that it spells. -/
inductive Spells (quote : UInt16) : Text → Text → Prop
  | nil : Spells quote [] []
  | unit {u body t} : u ≠ quote → u ≠ backslash → u ≠ lineFeed → u ≠ carriageReturn →
    Spells quote body t → Spells quote ([u] ++ body) (u :: t)
  | letter {letter body t} : letter ≠ 117 → letter ≠ lineFeed → letter ≠ carriageReturn →
    Spells quote body t → Spells quote ([backslash, letter] ++ body) (unescapeLetter letter :: t)
  | unicode (u) {body t} : Spells quote body t → Spells quote (unicodeEscape u ++ body) (u :: t)

/-! ## Reading -/

/-- Reading stops at a quote that is not escaped. -/
theorem unquote?_quote {quote : UInt16} (rest : Text) :
    unquote? quote (quote :: rest) = some ([], rest) := by
  rw [unquote?.eq_def]
  exact if_pos rfl

/-- A unit that is neither escaped nor a quote stands for itself. -/
theorem unquote?_unit {quote u : UInt16} (other : u ≠ quote) (plain : u ≠ backslash)
    (noFeed : u ≠ lineFeed) (noReturn : u ≠ carriageReturn) (rest : Text) :
    unquote? quote ([u] ++ rest) = (unquote? quote rest).map fun (t, after) =>
      (u :: t, after) := by
  rw [unquote?.eq_def]
  simp [other, plain, noFeed, noReturn]

section Spells

variable {quote : UInt16} {body t : Text} (quotes : quote = doubleQuote ∨ quote = singleQuote)

include quotes

theorem quote_ne_backslash : quote ≠ backslash := by
  rcases quotes with rfl | rfl <;> decide

theorem hexDigit_ne_quote {n : Nat} (small : n < 16) : hexDigit n ≠ quote := by
  obtain ⟨-, double, single, -⟩ := hexDigit_plain small
  rcases quotes with rfl | rfl
  · exact double
  · exact single

/-- An escape by digits has no quote in it. -/
theorem closed_unicodeEscape (u : UInt16) : Closed quote (unicodeEscape u) := by
  have digit {n : Nat} (small : n < 16) : Closed quote [hexDigit n] :=
    closed_unit (hexDigit_ne_quote quotes small) (hexDigit_plain small).2.2.2
  obtain ⟨first, second, third, fourth⟩ := hexDigits_lt u
  exact (closed_letter (quote_ne_backslash quotes) 117).append <|
    (digit first).append <| (digit second).append <| (digit third).append (digit fourth)

/-- What is spelled ends where its quote does: no quote in it counts. -/
theorem Spells.closed (spells : Spells quote body t) : Closed quote body := by
  induction spells with
  | nil => exact closed_nil
  | unit other plain _ _ _ ih => exact (closed_unit other plain).append ih
  | letter _ _ _ _ ih => exact (closed_letter (quote_ne_backslash quotes) _).append ih
  | unicode u _ ih => exact (closed_unicodeEscape quotes u).append ih

/-- An escape by digits is read as the unit that it was made of. -/
theorem unquote?_unicodeEscape (u : UInt16) (rest : Text) :
    unquote? quote (unicodeEscape u ++ rest) = (unquote? quote rest).map fun (t, after) =>
      (u :: t, after) := by
  obtain ⟨first, second, third, fourth⟩ := hexDigits_lt u
  show unquote? quote
    (backslash :: 117 :: hexDigit _ :: hexDigit _ :: hexDigit _ :: hexDigit _ :: rest) = _
  rw [unquote?, if_neg (quote_ne_backslash quotes).symm, if_neg (by decide), if_pos rfl]
  simp only [hexDigitValue?_hexDigit first, hexDigitValue?_hexDigit second,
    hexDigitValue?_hexDigit third, hexDigitValue?_hexDigit fourth, ofNat_hexDigits]

/-- An escaped letter is read as the unit that it stands for. -/
theorem unquote?_letter {letter : UInt16} (noDigits : letter ≠ 117) (noFeed : letter ≠ lineFeed)
    (noReturn : letter ≠ carriageReturn) (rest : Text) :
    unquote? quote ([backslash, letter] ++ rest) =
      (unquote? quote rest).map fun (t, after) => (unescapeLetter letter :: t, after) := by
  show unquote? quote (backslash :: letter :: rest) = _
  rw [unquote?, if_neg (quote_ne_backslash quotes).symm, if_neg (by decide), if_pos rfl,
    if_neg (by simp [noDigits, noFeed, noReturn])]
  exact fun _ _ _ _ _ digits => absurd digits noDigits

/-- Reading up to the closing quote gives the text that is spelled. -/
theorem Spells.unquote?_eq (spells : Spells quote body t) (rest : Text) :
    unquote? quote (body ++ quote :: rest) = some (t, rest) := by
  induction spells with
  | nil => exact unquote?_quote rest
  | unit other plain noFeed noReturn _ ih =>
    rw [List.append_assoc, unquote?_unit other plain noFeed noReturn, ih]
    rfl
  | letter noDigits noFeed noReturn _ ih =>
    rw [List.append_assoc, unquote?_letter quotes noDigits noFeed noReturn, ih]
    rfl
  | unicode u _ ih =>
    rw [List.append_assoc, unquote?_unicodeEscape quotes, ih]
    rfl

end Spells

/-! ## Escaping -/

/-- The letter of an escape is read back as the unit that it stands for. -/
theorem of_lookup_letterEscapes {u letter : UInt16}
    (found : letterEscapes.lookup u = some letter) :
    unescapeLetter letter = u ∧ 32 ≤ letter ∧ letter ≠ 117 := by
  have all : letterEscapes.all
      (fun entry => unescapeLetter entry.2 = entry.1 ∧ 32 ≤ entry.2 ∧ entry.2 ≠ 117) = true := by
        decide
  obtain ⟨front, rest, table, -⟩ := List.lookup_eq_some_iff.1 found
  have listed : (u, letter) ∈ letterEscapes := table ▸ List.mem_append_right _ List.mem_cons_self
  exact of_decide_eq_true (List.all_eq_true.1 all (u, letter) listed)

/-- A unit without an escape of one letter. -/
theorem plain_of_lookup {u : UInt16} (missing : letterEscapes.lookup u = none) :
    u ≠ doubleQuote ∧ u ≠ backslash ∧ u ≠ lineFeed ∧ u ≠ carriageReturn := by
  refine ⟨?_, ?_, ?_, ?_⟩ <;> rintro rfl <;> exact absurd missing (by decide)

/-- A visible unit is no control character. -/
theorem ne_of_visible {u v : UInt16} (visible : 32 ≤ u) (control : v < 32) : u ≠ v := by
  rintro rfl
  exact absurd control (UInt16.not_lt.2 visible)

/-- Every unit has a spelling between quotes: control characters and quotes are escaped. -/
theorem Spells.escapeUnit (u : UInt16) {body t : Text} (spells : Spells doubleQuote body t) :
    Spells doubleQuote (escapeUnit u ++ body) (u :: t) := by
  unfold Text.escapeUnit
  split
  · next letter found =>
    obtain ⟨back, visible, noDigits⟩ := of_lookup_letterEscapes found
    have written :=
      Spells.letter noDigits (ne_of_visible visible (by decide))
        (ne_of_visible visible (by decide)) spells
    rwa [back] at written
  · next missing =>
    obtain ⟨noQuote, noEscape, noFeed, noReturn⟩ := plain_of_lookup missing
    split
    · exact .unicode u spells
    · exact .unit noQuote noEscape noFeed noReturn spells

/-- A surrogate is none of the units that end a literal or begin an escape. -/
theorem plain_of_surrogate {u : UInt16} (large : 0xD800 ≤ u) :
    u ≠ doubleQuote ∧ u ≠ backslash ∧ u ≠ lineFeed ∧ u ≠ carriageReturn := by
  refine ⟨?_, ?_, ?_, ?_⟩ <;> rintro rfl <;> exact absurd large (by decide)

/-- The two halves of a pair are surrogates. -/
theorem surrogates_of_pair {u v : UInt16} (pair : (isHigh u && isLow v) = true) :
    0xD800 ≤ u ∧ 0xD800 ≤ v := by
  simp only [isHigh, isLow, Bool.and_eq_true, decide_eq_true_eq] at pair
  exact ⟨pair.1.1, UInt16.le_trans (by decide) pair.2.1⟩

/-- A surrogate stands for itself. -/
theorem Spells.surrogate {u : UInt16} (large : 0xD800 ≤ u) {body t : Text}
    (spells : Spells doubleQuote body t) : Spells doubleQuote (u :: body) (u :: t) := by
  obtain ⟨noQuote, noEscape, noFeed, noReturn⟩ := plain_of_surrogate large
  exact .unit noQuote noEscape noFeed noReturn spells

/-- An escaped text spells the text. -/
theorem spells_escape (t : Text) : Spells doubleQuote (escape t) t := by
  fun_induction escape t with
  | case1 => exact .nil
  | case2 u =>
    have written := Spells.nil.escapeUnit u
    rwa [List.append_nil] at written
  | case3 u v rest pair ih =>
    obtain ⟨high, low⟩ := surrogates_of_pair pair
    exact (ih.surrogate low).surrogate high
  | case4 u v rest _ ih => exact ih.escapeUnit u

/-- Escaping leaves no control characters. -/
theorem visible_escapeUnit (u : UInt16) : ∀ v ∈ escapeUnit u, 32 ≤ v := by
  unfold escapeUnit
  split
  · next letter found =>
    exact List.forall_mem_cons.2
      ⟨by decide, List.forall_mem_singleton.2 (of_lookup_letterEscapes found).2.1⟩
  · split
    · obtain ⟨first, second, third, fourth⟩ := hexDigits_lt u
      have mark : ∀ v ∈ [backslash, 117], 32 ≤ v :=
        List.forall_mem_cons.2 ⟨by decide, List.forall_mem_singleton.2 (by decide)⟩
      refine List.forall_mem_append.2 ⟨mark, ?_⟩
      simp [(hexDigit_plain first).1, (hexDigit_plain second).1, (hexDigit_plain third).1,
        (hexDigit_plain fourth).1]
    · next plain =>
      simp only [Bool.or_eq_true, decide_eq_true_eq, not_or] at plain
      simpa using plain.1.1

/-- No control is left in an escaped text. -/
theorem visible_escape (t : Text) : ∀ v ∈ escape t, 32 ≤ v := by
  fun_induction escape t with
  | case1 => simp
  | case2 u => exact visible_escapeUnit u
  | case3 u v rest pair ih =>
    obtain ⟨high, low⟩ := surrogates_of_pair pair
    have visible {w : UInt16} (large : 0xD800 ≤ w) : 32 ≤ w := UInt16.le_trans (by decide) large
    simpa [visible high, visible low] using ih
  | case4 u v rest _ ih => exact List.forall_mem_append.2 ⟨visible_escapeUnit u, ih⟩

/-! ## Tokens -/

/-- A token between double quotes that stands for a text. No control stands in it as it is, it has
no quote before its end that is not escaped, and whatever follows it, reading it gives the
text. -/
structure IsLiteralOf (token t : Text) : Prop where
  visible : ∀ u ∈ token, 32 ≤ u
  enclosed : ∃ body, token = doubleQuote :: (body ++ [doubleQuote]) ∧ Closed doubleQuote body
  reads : ∀ rest, Token.first? (token ++ rest) = some (.text t, rest)

/-- A quoted text is a literal, and the text it stands for is the one that was quoted. -/
theorem isLiteralOf_quoted (t : Text) : t.quoted.IsLiteralOf t := by
  have spells := spells_escape t
  refine ⟨?_, ⟨escape t, rfl, spells.closed (.inl rfl)⟩, fun rest => ?_⟩
  · have quote : 32 ≤ doubleQuote := by decide
    exact List.forall_mem_cons.2
      ⟨quote, List.forall_mem_append.2 ⟨visible_escape t, List.forall_mem_singleton.2 quote⟩⟩
  · have read := spells.unquote?_eq (.inl rfl) rest
    show Token.first? (doubleQuote :: (escape t ++ [doubleQuote] ++ rest)) = _
    rw [Token.first?, if_neg (by decide), if_neg (by decide), if_pos (.inl rfl),
      List.append_assoc, List.singleton_append, read]
    rfl

end RowExpr.Text
