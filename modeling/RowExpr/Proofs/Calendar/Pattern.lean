import RowExpr.Calendar.Pattern
import RowExpr.Proofs.Number.Shortest
import RowExpr.Proofs.Text.Numeral

/-!
What a date pattern reads.

Every token of a pattern takes a fixed number of units, and all of them together take as many
as the pattern has letters (`PatternToken.span_ofText`). So only one beginning of a text can
match in full, and the search for the longest one always ends there: reading a text is reading
its first units, as many as the pattern has (`Formatter.parse?_eq`).

A pattern without a date is read after the text of the first day. This comes to reading it by
its own tokens from the start of that day (`Formatter.parseExact?_undated`).
-/

namespace RowExpr

/-- The text is a number of a fixed number of digits. -/
structure Text.IsNumber (width n : Nat) (t : Text) : Prop where
  length : t.length = width
  digits : ∀ u ∈ t, isDigit u = true
  value : digitsValue t = n

/-- A number that has no more digits than a field is written in as many as the field. -/
theorem PatternToken.isNumber_padded {width n : Nat} (some : 0 < width) (small : n < 10 ^ width) :
    (padded width n).IsNumber width n := by
  have short : (Text.ofNat n).length ≤ width := Decimal.width_le some small
  have text : padded width n = List.replicate (width - (Text.ofNat n).length) Text.zeroDigit ++
      Text.ofNat n := by
    rw [padded, if_neg (Int.not_lt.2 (Int.natCast_nonneg n)), Int.natAbs_natCast, Text.padLeft]
  rw [text]
  refine ⟨?_, List.forall_mem_append.2 ⟨?_, ?_⟩, ?_⟩
  · rw [List.length_append, List.length_replicate]
    omega
  · intro u listed
    rw [List.eq_of_mem_replicate listed]
    rfl
  · intro u listed
    exact Text.isDigit_of_mem_ofNat listed
  · rw [Text.digitsValue_append, Text.digitsValue_replicate, Text.digitsValue_ofNat,
      Nat.zero_mul, Nat.zero_add]

/-! ## Tokens -/

section Tokens

variable {tokens : List PatternToken} {t : Text} {c c' : Civil}

theorem PatternToken.read?_nil : read? [] t c = some c' ↔ t = [] ∧ c = c' := by
  rw [read?, Option.ite_none_right_eq_some, Option.some.injEq]

/-- A literal unit must stand in the text. -/
theorem PatternToken.read?_literal {u : UInt16} :
    read? (.literal u :: tokens) t c = some c' ↔ ∃ rest, t = u :: rest ∧
      read? tokens rest c = some c' := by
  rcases t with _ | ⟨v, rest⟩
  · simp [read?]
  · rw [read?, Option.ite_none_right_eq_some]
    constructor
    · rintro ⟨rfl, read⟩
      exact ⟨rest, rfl, read⟩
    · rintro ⟨_, ⟨⟩, read⟩
      exact ⟨rfl, read⟩

/-- A field is read from as many digits as it has letters. -/
theorem PatternToken.read?_field {f : DateField} :
    read? (.field f :: tokens) t c = some c' ↔
      ∃ n ds rest, t = ds ++ rest ∧ ds.IsNumber f.width n ∧
        read? tokens rest (f.set n c) = some c' := by
  rw [read?, Option.ite_none_right_eq_some, List.all_eq_true]
  constructor
  · rintro ⟨⟨length, digits⟩, read⟩
    exact ⟨_, t.take f.width, t.drop f.width, (List.take_append_drop _ t).symm,
      ⟨length, digits, rfl⟩, read⟩
  · rintro ⟨n, ds, rest, rfl, ⟨length, digits, rfl⟩, read⟩
    rw [List.take_left' length, List.drop_left' length]
    exact ⟨⟨length, digits⟩, read⟩

/-! ## Widths -/

/-- The number of units that a token takes. -/
def PatternToken.width : PatternToken → Nat
  | .field f => f.width
  | .literal _ => 1

/-- The number of units that tokens take together. -/
def PatternToken.span : List PatternToken → Nat
  | [] => 0
  | token :: tokens => token.width + span tokens

theorem DateField.width_pos (f : DateField) : 0 < f.width := by
  cases f <;> decide

/-- Tokens read texts of one length only. -/
theorem PatternToken.length_of_read? (read : read? tokens t c = some c') :
    t.length = span tokens := by
  induction tokens generalizing t c with
  | nil =>
    obtain ⟨rfl, -⟩ := read?_nil.1 read
    rfl
  | cons token tokens ih =>
    rw [span]
    cases token with
    | literal u =>
      obtain ⟨rest, rfl, more⟩ := read?_literal.1 read
      rw [List.length_cons, ih more, Nat.add_comm]
      rfl
    | field f =>
      obtain ⟨n, ds, rest, rfl, number, more⟩ := read?_field.1 read
      rw [List.length_append, number.length, ih more]
      rfl

theorem PatternToken.width_le_of_fieldAt? {f : DateField} (found : fieldAt? t = some f) :
    f.width ≤ t.length := by
  unfold fieldAt? at found
  have letters := List.find?_some found
  exact (List.isPrefixOf_iff_prefix.1 letters).length_le

/-- The tokens of a pattern span as many units as the pattern has. -/
theorem PatternToken.span_scan (skip : Nat) (t : Text) (enough : skip ≤ t.length) :
    span (scan skip t) + skip = t.length := by
  fun_induction scan skip t with
  | case1 skip => exact (Nat.zero_add skip).trans (Nat.le_zero.1 enough)
  | case2 skip u rest ih =>
    have := ih (Nat.le_of_succ_le_succ enough)
    rw [List.length_cons]
    omega
  | case3 u rest f found ih =>
    have taken := width_le_of_fieldAt? found
    have pos := f.width_pos
    rw [List.length_cons] at taken ⊢
    have := ih (by omega)
    rw [span, width]
    omega
  | case4 u rest none ih =>
    rw [span, List.length_cons, width, ← ih (Nat.zero_le _)]
    omega

/-- The tokens of a pattern take as many units as the pattern has. -/
theorem PatternToken.span_ofText (pattern : Text) : span (ofText pattern) = pattern.length :=
  span_scan 0 pattern (Nat.zero_le _)

end Tokens

/-! ## Patterns without a date -/

section Undated

variable {f : Formatter}

/-- The fields that hold where a pattern without a date names none: the start of 1970-01-01. -/
def Formatter.start : Civil := ⟨1970, 1, 1, 0, 0, 0, 0⟩

/-- The tokens that stand before a pattern without a date. -/
def PatternToken.day : List PatternToken :=
  [.field .year, .literal 45, .field .month, .literal 45, .field .day, .literal 32]

/-- The tokens of a pattern that has been made longer by a date. -/
theorem PatternToken.ofText_day (pattern : Text) :
    ofText (("yyyy-MM-dd " : Text) ++ pattern) = day ++ ofText pattern := rfl

/-- Reading a text after the first day of the epoch sets the date, and nothing else. -/
theorem PatternToken.read?_day (tokens : List PatternToken) (t : Text) (c : Civil) :
    read? (day ++ tokens) (("1970-01-01 " : Text) ++ t) c =
      read? tokens t { c with year := 1970, month := 1, day := 1 } := rfl

/-- If the year is named, every other field starts from its least value. -/
theorem PatternToken.settle_of_year {tokens : List PatternToken} (named : .field .year ∈ tokens)
    (c : Civil) : settle tokens DateField.all c = ⟨c.year, 1, 1, 0, 0, 0, 0⟩ := by
  rw [DateField.all, settle, if_pos named]
  rfl

/-- The text of the first day gives the date, and nothing is taken from the present. -/
theorem Zone.instant?_day [TimeZones] (z : Zone) (tokens : List PatternToken) (t : Text)
    (c : Civil) :
    z.instant? (PatternToken.day ++ tokens) (("1970-01-01 " : Text) ++ t)
        (PatternToken.settle (PatternToken.day ++ tokens) DateField.all c) =
      z.instant? tokens t Formatter.start := by
  have named : .field .year ∈ PatternToken.day ++ tokens := List.mem_cons_self
  rw [PatternToken.settle_of_year named]
  unfold Zone.instant?
  rw [PatternToken.read?_day]
  rfl

/-- By a pattern without a date a text is read on 1970-01-01, from its own tokens. -/
theorem Formatter.parseExact?_undated [TimeZones] (undated : f.isDated = false) (t : Text) :
    f.parseExact? t = (TimeZones.zone? f.zone).bind fun z =>
      z.instant? (PatternToken.ofText f.pattern) t start := by
  rw [parseExact?, if_neg (by rw [undated]; exact Bool.false_ne_true), denoted?]
  cases TimeZones.zone? f.zone with
  | none => rfl
  | some z =>
    dsimp only
    rw [PatternToken.ofText_day]
    exact z.instant?_day _ t _

/-- A pattern that has a date field reads the text as it is. -/
theorem Formatter.parseExact?_dated [TimeZones] (dated : f.isDated = true) (t : Text) :
    f.parseExact? t = (TimeZones.zone? f.zone).bind fun z =>
      z.instant? (PatternToken.ofText f.pattern) t
        (PatternToken.settle (PatternToken.ofText f.pattern) DateField.all z.present) := by
  rw [parseExact?, if_pos dated, denoted?]
  cases TimeZones.zone? f.zone with
  | none => rfl
  | some z => rfl

end Undated

/-! ## The head of a text -/

section Head

variable [TimeZones] {f : Formatter} {t : Text} {i : Instant}

/-- An instant is read from fields that make a date of the calendar, in a zone. -/
theorem Zone.instant?_eq_some {z : Zone} {tokens : List PatternToken} {c : Civil} :
    z.instant? tokens t c = some i ↔ ∃ c', PatternToken.read? tokens t c = some c' ∧
      c'.isValid = true ∧ Time.ofMillis (z.resolveLocal c'.toMillis) = some i := by
  unfold Zone.instant?
  cases PatternToken.read? tokens t c with
  | none => simp
  | some c' => simp

/-- Whatever a text is read as, its tokens are those of the pattern. -/
theorem Formatter.exists_instant?_of_parseExact? (parsed : f.parseExact? t = some i) :
    ∃ (z : Zone) (c : Civil), z.instant? (PatternToken.ofText f.pattern) t c = some i := by
  cases dated : f.isDated with
  | true =>
    rw [parseExact?_dated dated] at parsed
    obtain ⟨z, -, read⟩ := Option.bind_eq_some_iff.1 parsed
    exact ⟨z, _, read⟩
  | false =>
    rw [parseExact?_undated dated] at parsed
    obtain ⟨z, -, read⟩ := Option.bind_eq_some_iff.1 parsed
    exact ⟨z, _, read⟩

/-- A text that is read is as long as the pattern. -/
theorem Formatter.length_of_parseExact? (parsed : f.parseExact? t = some i) :
    t.length = f.pattern.length := by
  obtain ⟨z, c, read⟩ := exists_instant?_of_parseExact? parsed
  obtain ⟨c', read, -⟩ := Zone.instant?_eq_some.1 read
  rw [PatternToken.length_of_read? read, PatternToken.span_ofText]

theorem Formatter.parseExact?_eq_none (other : t.length ≠ f.pattern.length) :
    f.parseExact? t = none :=
  Option.eq_none_iff_forall_ne_some.2 fun _ parsed => other (length_of_parseExact? parsed)

/-- The search finds nothing before it comes to the length of the pattern, and nothing else after
it. -/
theorem Formatter.parseWithin?_eq (some : f.pattern ≠ []) {limit : Nat}
    (inside : limit ≤ t.length) :
    f.parseWithin? t limit =
      if f.pattern.length ≤ limit then f.parseExact? (t.take f.pattern.length) else none := by
  induction limit with
  | zero => rw [parseWithin?, if_neg (Nat.not_le.2 (List.length_pos_iff.2 some))]
  | succ limit ih =>
    have length : (t.take (limit + 1)).length = limit + 1 := List.length_take_of_le inside
    rw [parseWithin?, ih (Nat.le_of_succ_le inside)]
    by_cases same : f.pattern.length = limit + 1
    · rw [same, if_pos (Nat.le_refl _), if_neg (by omega)]
      cases f.parseExact? (t.take (limit + 1)) <;> rfl
    · rw [parseExact?_eq_none (by omega)]
      have reach : f.pattern.length ≤ limit ↔ f.pattern.length ≤ limit + 1 := by omega
      simp only [reach]

/-- A text is read by its first units, as many as the pattern has. -/
theorem Formatter.parse?_eq (some : f.pattern ≠ []) (t : Text) :
    f.parse? t = f.parseExact? (t.take f.pattern.length) := by
  rw [parse?, parseWithin?_eq some (Nat.le_refl _)]
  split
  · rfl
  · next short =>
    rw [List.take_of_length_le (by omega), parseExact?_eq_none (by omega)]

end Head

end RowExpr
