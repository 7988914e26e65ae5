import RowExpr.Calendar.Offsets
import RowExpr.Proofs.DateReading
import RowExpr.Proofs.Projection

/-!
Dates written as texts and read again.

A date becomes a text by the pattern of timestamps, and a text becomes a date by the first of
the standard patterns that it matches. In UTC the two undo each other for the years that have
four digits, to the millisecond (`Query.date_survives_text`): the fields of an instant name a
date of the calendar, what is written spells these fields, and in UTC the local time is the
instant.
-/

namespace RowExpr

/-- The year of an instant, in UTC. -/
def Instant.year (i : Instant) : Int := (Civil.ofMillis i.millis).year

/-! ## UTC -/

section Utc

variable [TimeZones] {i : Instant}

/-- In UTC, local time is time. -/
theorem Zone.resolveLocal_utc (localMillis : Int) :
    Zone.utc.resolveLocal localMillis = localMillis := by
  have same (millis : Int) : Zone.utc.offsetAt millis = 0 := rfl
  unfold Zone.resolveLocal
  dsimp only
  rw [same, same, if_pos rfl, Int.sub_zero]

theorem Formatter.civil?_utc (pattern : Text) (i : Instant) :
    Formatter.civil? ⟨pattern, "UTC"⟩ (some i) = some (Civil.ofMillis i.millis) := by
  have same : Time.ofMillis (i.millis + Zone.utc.offsetAt i.millis) = some i :=
    Time.ofMillis_eq_some.2 (Int.add_zero i.millis).symm
  unfold Formatter.civil?
  rw [TimeZones.utc]
  dsimp only
  rw [same, Option.map_some]

/-- In UTC, a formatter writes the fields of the instant. -/
theorem FormatterKind.format_utc (k : FormatterKind) (i : Instant) :
    (k.inZone "UTC").format (some i) =
      k.tokens.flatMap (PatternToken.write (Civil.ofMillis i.millis)) := by
  rw [Formatter.format, FormatterKind.inZone, Formatter.civil?_utc]
  dsimp only
  rw [FormatterKind.ofText_pattern]

/-- What is written for an instant spells its fields. -/
theorem Instant.spells_format (year : 0 ≤ i.year ∧ i.year ≤ 9999) :
    FormatterKind.Spells .timestamp ((FormatterKind.timestamp.inZone "UTC").format (some i))
      (Civil.ofMillis i.millis) := by
  rw [FormatterKind.format_utc]
  exact FormatterKind.spells_write (Civil.isDate_ofMillis i.millis) year

/-- What is written for an instant is read as the instant. -/
theorem Instant.parse?_format (year : 0 ≤ i.year ∧ i.year ≤ 9999) :
    (FormatterKind.timestamp.inZone "UTC").parse?
      ((FormatterKind.timestamp.inZone "UTC").format (some i)) = some i := by
  have spelled := Instant.spells_format year
  have whole := List.take_of_length_le (Nat.le_of_eq spelled.length_eq)
  rw [FormatterKind.parse?_eq, whole]
  refine FormatterKind.parseExact?_iff.2 ⟨_, _, spelled, Civil.isDate_ofMillis i.millis,
    TimeZones.utc, ?_⟩
  rw [Zone.resolveLocal_utc, Civil.toMillis_ofMillis]

end Utc

/-- A text that the pattern of timestamps matches is not read by any other. -/
theorem Value.parseDate_of_timestamp [TimeZones] {zone : Text} {v d : Value}
    (read : Conversion.parseDate (FormatterKind.timestamp.inZone zone) v = .ok d) :
    v.parseDate zone = .ok d := by
  rw [Value.parseDate, Value.parseDateAs, read]

/-- In UTC, a date of a year from 0 to 9999 survives being written as a text, for all inputs and
options and all expressions that can be compiled. The text has 23 units and is read by the pattern
of timestamps, and the date that is read is at the same millisecond. -/
theorem Query.date_survives_text [TimeZones] {inputs : List Input} {given : GivenOptions}
    {options : Options} {e : Expr} {p : Query} (resolved : Options.resolve given = .ok options)
    (utc : options.timeZone = "UTC") (dated : e.type = .basic .date)
    (built : (Query.projection inputs [e] given).outcome = .ok p) :
    ∃ written back : Query,
      (Query.projection inputs [.cast e (.basic .string)] given).outcome = .ok written ∧
      (Query.projection inputs [.cast (.cast e (.basic .string)) (.basic .date)] given).outcome =
        .ok back ∧
      ∀ records id (i : Instant), p.Returns records (.date id (some i)) → 0 ≤ i.year →
        i.year ≤ 9999 →
        ∃ t : Text, t = (FormatterKind.timestamp.inZone "UTC").format (some i) ∧ t.length = 23 ∧
          Conversion.parseDate (FormatterKind.timestamp.inZone "UTC") (.text t) =
            .ok (.date .made (some i)) ∧
          written.Returns records (.text t) ∧ back.Returns records (.date .made (some i)) := by
  obtain ⟨_, written, found, builtWritten, writes⟩ := Query.exists_cast built Ty.Castable.toText
  cases found.symm.trans resolved
  obtain ⟨_, back, found, builtBack, reads⟩ :=
    Query.exists_cast builtWritten Ty.Castable.dateOfText
  cases found.symm.trans resolved
  refine ⟨written, back, builtWritten, builtBack, ?_⟩
  intro records id i returns low high
  have spelled := Instant.spells_format ⟨low, high⟩
  have read := Conversion.parseDate_eq_ok.2 ⟨i, Instant.parse?_format ⟨low, high⟩, rfl⟩
  have wrote :
      written.Returns records
        (.text ((FormatterKind.timestamp.inZone "UTC").format (some i))) := by
    have ran := writes records _ rfl returns
    rw [utc, dated] at ran
    exact ran
  have readBack := reads records _ rfl wrote
  rw [utc, Expr.type, Value.cast, Value.parseDate_of_timestamp read] at readBack
  exact ⟨_, rfl, spelled.length_eq, read, wrote, readBack⟩

def Input.diary : List Input := [⟨"row", .plain .pojo [.mk "d" (.basic .date)]⟩]

def Value.diary (i : Instant) : List Value :=
  [.record (.given 0) [("d", .date (.given 1) (some i))]]

/-- The last millisecond of the leap day of the year 0. -/
def Instant.leapEvening : Instant := ⟨-62162035200001, by decide⟩

section Host

open scoped Offsets

theorem Query.date_survives_text_leapEvening :
    ∃ p written back : Query,
      (Query.projection Input.diary [.field "d" (.basic .date)] (.members [])).outcome = .ok p ∧
      p.Returns (Value.diary Instant.leapEvening) (.date (.given 1) (some Instant.leapEvening)) ∧
      Instant.leapEvening.year = 0 ∧
      written.Returns (Value.diary Instant.leapEvening) (.text "0000-02-29 23:59:59.999") ∧
      back.Returns (Value.diary Instant.leapEvening)
        (.date .made (some Instant.leapEvening)) := by
  have text : (FormatterKind.timestamp.inZone "UTC").format (some Instant.leapEvening) =
      "0000-02-29 23:59:59.999" := by
    decide +kernel
  have year : Instant.leapEvening.year = 0 := by decide
  have low : 0 ≤ Instant.leapEvening.year := by decide
  have high : Instant.leapEvening.year ≤ 9999 := by decide
  obtain ⟨p, built, returns⟩ : ∃ p : Query,
      (Query.projection Input.diary [.field "d" (.basic .date)] (.members [])).outcome = .ok p ∧
      p.Returns (Value.diary Instant.leapEvening) (.date (.given 1) (some Instant.leapEvening)) :=
      ⟨_, rfl, rfl⟩
  obtain ⟨written, back, -, -, survives⟩ := @Query.date_survives_text _
    Input.diary (.members []) ⟨true, "UTC", .levels []⟩ _ _ rfl rfl rfl built
  obtain ⟨_, rfl, -, -, wrote, readBack⟩ := survives _ _ _ returns low high
  exact ⟨p, written, back, built, returns, year, text ▸ wrote, readBack⟩

end Host

end RowExpr
