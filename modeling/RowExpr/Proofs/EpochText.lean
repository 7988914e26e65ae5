import RowExpr.Calendar.Offsets
import RowExpr.Proofs.DateReading
import RowExpr.Proofs.IntegralDivision
import RowExpr.Proofs.Number.IntegerText

/-!
Integers as dates.

A text becomes a date by the first standard pattern that matches a beginning of it, and only if
none does by the epoch milliseconds that it writes. The patterns and the integers never compete:
a date begins with a digit and has a mark after some digits, and an integer that begins with a
digit has nothing but digits and white space (`Text.WritesInt.not_spells`). So the text of an
integer means its milliseconds, in every zone, and a number becomes the same date through its
text as by itself (`Query.integer_text_is_epoch`).
-/

namespace RowExpr

/-! ## Integers and dates in texts -/

section Languages

variable {k : FormatterKind} {zone t head : Text} {c : Civil} {n : Int}

/-- What spells a date begins with a digit, and has a mark in it. -/
theorem FormatterKind.Spells.digit_and_mark (spelled : k.Spells t c) :
    (∃ u ∈ t.head?, Text.isDigit u = true) ∧ ∃ u ∈ t, Text.isDigit u = false ∧
      Text.isBlank u = false := by
  have begins {width m : Nat} {ds rest : Text} (number : ds.IsNumber (width + 1) m) :
      ∃ u ∈ (ds ++ rest).head?, Text.isDigit u = true := by
    rcases ds with _ | ⟨u, ds⟩
    · cases number.length
    · exact ⟨u, rfl, number.digits u List.mem_cons_self⟩
  cases spelled with
  | date year _ _ =>
    simp only [Text.marks, List.append_assoc, List.singleton_append]
    exact ⟨begins year, 45, List.mem_append_right _ List.mem_cons_self, rfl, by decide⟩
  | time hour _ _ =>
    simp only [Text.marks, List.append_assoc, List.singleton_append]
    exact ⟨begins hour, 58, List.mem_append_right _ List.mem_cons_self, rfl, by decide⟩
  | timestamp year _ _ _ _ _ _ =>
    simp only [Text.marks, List.append_assoc, List.singleton_append]
    exact ⟨begins year, 45, List.mem_append_right _ List.mem_cons_self, rfl, by decide⟩

/-- An integer that begins with a digit has nothing but digits, and white space after them. -/
theorem Text.WritesInt.digits_and_blanks (writes : t.WritesInt n)
    (begins : ∃ u ∈ t.head?, isDigit u = true) :
    ∀ u ∈ t, isDigit u = true ∨ isBlank u = true := by
  obtain ⟨front, body, back, rfl, blankFront, blankBack, denotes⟩ := writes
  obtain ⟨u, first, digit⟩ := begins
  -- The first unit is the digit, so neither white space nor a sign is in front.
  rcases front with _ | ⟨v, front⟩
  · cases denotes with
    | unsigned _ digits =>
      intro v listed
      rcases List.mem_append.1 listed with inside | after
      · exact .inl (digits v inside)
      · exact .inr (blankBack v after)
    | plus _ _ =>
      cases first
      cases digit
    | minus _ _ =>
      cases first
      cases digit
  · cases first
    have blank := blankFront u List.mem_cons_self
    rw [visible_of_isDigit digit] at blank
    cases blank

/-- No beginning of an integer spells a date. -/
theorem Text.WritesInt.not_spells (writes : t.WritesInt n) (front : head <+: t) :
    ¬ k.Spells head c := by
  intro spelled
  obtain ⟨⟨u, first, digit⟩, mark, listed, notDigit, notBlank⟩ := spelled.digit_and_mark
  obtain ⟨rest, rfl⟩ := front
  have begins : ∃ u ∈ (head ++ rest).head?, isDigit u = true := by
    refine ⟨u, ?_, digit⟩
    rcases head with _ | ⟨v, head⟩
    · cases first
    · exact first
  rcases writes.digits_and_blanks begins mark
    (List.mem_append_left rest listed) with isDigit | isBlank
  · rw [notDigit] at isDigit
    cases isDigit
  · rw [notBlank] at isBlank
    cases isBlank

/-- No beginning of an integer is read by one of the patterns of dates. -/
theorem Text.WritesInt.parseExact?_eq_none [TimeZones] (writes : t.WritesInt n)
    (front : head <+: t) : (k.inZone zone).parseExact? head = none := by
  refine Option.eq_none_iff_forall_ne_some.2 fun i parsed => ?_
  obtain ⟨c, z, spelled, -⟩ := FormatterKind.parseExact?_iff.1 parsed
  exact writes.not_spells front spelled

theorem Text.writesInt_ofInt (n : Int) : (ofInt n).WritesInt n := by
  have digits : ∀ u ∈ ofNat n.natAbs, isDigit u = true :=
    fun u listed => isDigit_of_mem_ofNat listed
  have value := digitsValue_ofNat n.natAbs
  refine ⟨[], ofInt n, [], (List.append_nil _).symm, List.forall_mem_nil _,
    List.forall_mem_nil _, ?_⟩
  unfold ofInt
  split
  · have denotes := Numeral.Denotes.minus (ofNat_ne_nil _) digits
    have negative : -(n.natAbs : Int) = n := by omega
    rwa [value, negative] at denotes
  · have denotes := Numeral.Denotes.unsigned (ofNat_ne_nil _) digits
    have positive : (n.natAbs : Int) = n := by omega
    rwa [value, positive] at denotes

end Languages

/-! ## Conversions -/

section Conversions

variable {t : Text} {n : Int} (writes : t.WritesInt n)

include writes

/-- An integer in range is read as milliseconds since the epoch. -/
theorem Text.WritesInt.epochMillis (inRange : n.natAbs ≤ Instant.limit) :
    Conversion.epochMillis (.text t) = .ok (.date .made (some ⟨n, inRange⟩)) := by
  obtain ⟨x, read, rounds⟩ := writes.read
  have time : Time.ofMillis n = some ⟨n, inRange⟩ := Time.ofMillis_eq_some.2 rfl
  have safe : n.natAbs < 2 ^ 53 := Nat.lt_of_le_of_lt inRange (by decide)
  unfold Conversion.epochMillis
  dsimp only
  rw [read, Option.bind_some, rounds.toSafeInt?_eq, if_pos safe]
  dsimp only
  rw [time]

/-- One beyond the range of dates is refused. -/
theorem Text.WritesInt.epochMillis_error (beyond : Instant.limit < n.natAbs) :
    Conversion.epochMillis (.text t) = .error (.unparseable (.text t) "epoch milliseconds") := by
  obtain ⟨x, read, rounds⟩ := writes.read
  have time : Time.ofMillis n = none := dif_neg (Nat.not_le.2 beyond)
  unfold Conversion.epochMillis
  dsimp only
  rw [read, Option.bind_some, rounds.toSafeInt?_eq]
  by_cases small : n.natAbs < 2 ^ 53
  · rw [if_pos small]
    dsimp only
    rw [time]
  · rw [if_neg small]

/-- The text of an integer is a date by its milliseconds alone. -/
theorem Text.WritesInt.parseDate [TimeZones] (zone : Text) :
    (Value.text t).parseDate zone = Conversion.epochMillis (.text t) := by
  have unread (k : FormatterKind) : (k.inZone zone).parse? t = none := by
    rw [FormatterKind.parse?_eq]
    exact writes.parseExact?_eq_none (List.take_prefix _ _)
  have next (k : FormatterKind) (otherwise : Except Fault Value) :
      (Value.text t).parseDateAs zone k otherwise = otherwise := by
    rw [Value.parseDateAs, Conversion.parseDate_eq_error (unread k)]
  rw [Value.parseDate, next, next, next]

end Conversions

theorem Value.IsInt.toTime {v : Value} {n : Int} (whole : v.IsInt n)
    (inRange : n.natAbs ≤ Instant.limit) : v.toTime = some ⟨n, inRange⟩ := by
  obtain ⟨x, rfl, integer⟩ := whole
  rw [Value.toTime, Time.ofDouble, Double.truncated?_of_toInt? integer]
  exact Time.ofMillis_eq_some.2 rfl

theorem Value.IsInt.toText {v : Value} {n : Int} (whole : v.IsInt n) (small : n.natAbs < 2 ^ 53) :
    v.toText = Text.ofInt n := by
  obtain ⟨x, rfl, integer⟩ := whole
  exact Double.text_of_toInt? integer small

section Casts

variable [TimeZones] {inputs : List Input} {given : GivenOptions} {e : Expr} {p : Query}
  (built : (Query.projection inputs [e] given).outcome = .ok p)

include built

/-- As a date, the text of an integer is at its milliseconds, or an error that names it as a whole
if they are out of range. -/
theorem Query.exists_cast_integer_text (isText : e.type = .basic .string) :
    ∃ dated : Query,
      (Query.projection inputs [.cast e (.basic .date)] given).outcome = .ok dated ∧
      ∀ records t n, t.WritesInt n → p.Returns records (.text t) →
        (∀ inRange : n.natAbs ≤ 8640000000000000,
          dated.Returns records (.date .made (some ⟨n, inRange⟩))) ∧
        (8640000000000000 < n.natAbs →
          dated.run records = .error (.unparseable (.text t) "epoch milliseconds")) := by
  obtain ⟨options, dated, -, builtDated, reads⟩ :=
    Query.exists_cast built (isText ▸ Ty.Castable.dateOfText)
  refine ⟨dated, builtDated, ?_⟩
  intro records t n writes returns
  have ran := reads records _ rfl returns
  rw [isText, Value.cast, writes.parseDate] at ran
  constructor
  · intro inRange
    rw [writes.epochMillis inRange] at ran
    exact ran
  · intro beyond
    rw [writes.epochMillis_error beyond] at ran
    exact ran

/-- A number of type Long becomes the same date through its text as by itself. -/
theorem Query.exists_cast_long_through_text (isLong : e.type = .basic .long) :
    ∃ direct through : Query,
      (Query.projection inputs [.cast e (.basic .date)] given).outcome = .ok direct ∧
      (Query.projection inputs [.cast (.cast e (.basic .string)) (.basic .date)] given).outcome =
        .ok through ∧
      ∀ records n, p.Gives records n → ∀ inRange : n.natAbs ≤ 8640000000000000,
        direct.Returns records (.date .made (some ⟨n, inRange⟩)) ∧
        through.Returns records (.date .made (some ⟨n, inRange⟩)) := by
  obtain ⟨_, direct, -, builtDirect, converts⟩ :=
    Query.exists_cast built (isLong ▸ Ty.Castable.dateOfMillis)
  obtain ⟨_, written, -, builtWritten, writes⟩ := Query.exists_cast built Ty.Castable.toText
  obtain ⟨_, through, -, builtThrough, reads⟩ :=
    Query.exists_cast builtWritten Ty.Castable.dateOfText
  refine ⟨direct, through, builtDirect, builtThrough, ?_⟩
  intro records n gives inRange
  obtain ⟨v, returns, whole⟩ := gives
  constructor
  · have ran := converts records v whole.isAbsent returns
    rw [isLong, Value.cast, whole.toTime inRange] at ran
    exact ran
  · have wrote : written.Returns records (.text (Text.ofInt n)) := by
      have cast (zone : Text) : v.cast zone (.basic .long) (.basic .string) =
        .ok (.text v.toText) := rfl
      have ran := writes records v whole.isAbsent returns
      rw [isLong, cast, whole.toText (Nat.lt_of_le_of_lt inRange (by decide))] at ran
      exact ran
    have numeral := Text.writesInt_ofInt n
    have ran := reads records _ rfl wrote
    rw [Expr.type, Value.cast, numeral.parseDate, numeral.epochMillis inRange] at ran
    exact ran

end Casts

/-- The text of an integer means epoch milliseconds, in every zone of every host. No formatter
reads a beginning of it. For all inputs and options and all expressions that can be compiled, as a
date it is at its milliseconds, or an error that names it as a whole if they are out of range; and
a number of type Long becomes the same date through its text as by itself. -/
theorem Query.integer_text_is_epoch [TimeZones] :
    (∀ (k : FormatterKind) (zone t head : Text) (n : Int), t.WritesInt n → head <+: t →
      (k.inZone zone).parseExact? head = none) ∧
    ∀ (inputs : List Input) (given : GivenOptions) (e : Expr) (p : Query),
      (Query.projection inputs [e] given).outcome = .ok p →
      (e.type = .basic .string → ∃ dated : Query,
        (Query.projection inputs [.cast e (.basic .date)] given).outcome = .ok dated ∧
        ∀ records t n, t.WritesInt n → p.Returns records (.text t) →
          (∀ inRange : n.natAbs ≤ 8640000000000000,
            dated.Returns records (.date .made (some ⟨n, inRange⟩))) ∧
          (8640000000000000 < n.natAbs →
            dated.run records = .error (.unparseable (.text t) "epoch milliseconds"))) ∧
      (e.type = .basic .long → ∃ direct through : Query,
        (Query.projection inputs [.cast e (.basic .date)] given).outcome = .ok direct ∧
        (Query.projection inputs [.cast (.cast e (.basic .string)) (.basic .date)]
          given).outcome =
          .ok through ∧
        ∀ records n, p.Gives records n → ∀ inRange : n.natAbs ≤ 8640000000000000,
          direct.Returns records (.date .made (some ⟨n, inRange⟩)) ∧
          through.Returns records (.date .made (some ⟨n, inRange⟩))) := by
  refine ⟨fun k zone t head n writes front => writes.parseExact?_eq_none front, ?_⟩
  intro inputs given e p built
  constructor
  · intro isText
    exact Query.exists_cast_integer_text built isText
  · intro isLong
    exact Query.exists_cast_long_through_text built isLong

def Input.clock : List Input :=
  [⟨"row", .plain .pojo [.mk "s" (.basic .string), .mk "n" (.basic .long)]⟩]

def Value.clock (t : Text) : List Value :=
  [.record (.given 0) [("s", .text t), ("n", .number (Double.ofInt (-42)))]]

section Host

open scoped Offsets

/-- Zeros, a sign and white space do not matter; one millisecond beyond the range is an error. -/
theorem Query.integer_text_is_epoch_signed :
    ∃ (p p' dated direct through : Query) (i : Instant), i.millis = -42 ∧
      (Query.projection Input.clock [.field "s" (.basic .string)] (.members [])).outcome = .ok p ∧
      (Query.projection Input.clock [.field "n" (.basic .long)] (.members [])).outcome = .ok p' ∧
      dated.Returns (Value.clock " -0042\n") (.date .made (some i)) ∧
      dated.run (Value.clock "+8640000000000001") =
        .error (.unparseable (.text "+8640000000000001") "epoch milliseconds") ∧
      direct.Returns (Value.clock "") (.date .made (some i)) ∧
      through.Returns (Value.clock "") (.date .made (some i)) := by
  obtain ⟨p, built, returns⟩ : ∃ p : Query,
      (Query.projection Input.clock [.field "s" (.basic .string)] (.members [])).outcome = .ok p ∧
      ∀ t, p.Returns (Value.clock t) (.text t) := ⟨_, rfl, fun _ => rfl⟩
  obtain ⟨p', built', gives⟩ : ∃ p : Query,
      (Query.projection Input.clock [.field "n" (.basic .long)] (.members [])).outcome = .ok p ∧
      p.Gives (Value.clock "") (-42) := ⟨_, rfl, _, rfl, _, rfl, Double.toInt?_ofInt (by decide)⟩
  obtain ⟨-, casts⟩ := Query.integer_text_is_epoch
  obtain ⟨dated, -, reads⟩ := (casts _ _ _ _ built).1 rfl
  obtain ⟨direct, through, -, -, converts⟩ := (casts _ _ _ _ built').2 rfl
  have padded : Text.WritesInt " -0042\n" (-42) :=
    ⟨" ", "-0042", "\n", rfl, List.all_eq_true.1 rfl, List.all_eq_true.1 rfl,
      @Numeral.Denotes.minus "0042" (List.cons_ne_nil _ _) (List.all_eq_true.1 rfl)⟩
  have beyond : Text.WritesInt "+8640000000000001" 8640000000000001 :=
    ⟨[], "+8640000000000001", [], rfl, List.forall_mem_nil _, List.forall_mem_nil _,
      @Numeral.Denotes.plus "8640000000000001" (List.cons_ne_nil _ _) (List.all_eq_true.1 rfl)⟩
  have inRange : (-42 : Int).natAbs ≤ 8640000000000000 := by decide
  obtain ⟨alone, written⟩ := converts _ _ gives inRange
  exact ⟨p, p', dated, direct, through, ⟨-42, inRange⟩, rfl, built, built',
    (reads _ _ _ padded (returns _)).1 inRange, (reads _ _ _ beyond (returns _)).2 (by decide),
    alone, written⟩

end Host

end RowExpr
