import RowExpr.Proofs.Calendar.Standard
import RowExpr.Value.Conversion

/-!
Dates are read from the head of a text.

A formatter looks for the longest beginning of a text that its pattern matches. For the
standard patterns only one beginning can match, the one that is as long as the pattern. A text
is therefore read exactly if that beginning spells a date of the calendar, what it is read as
depends on nothing else, and whatever is appended changes nothing
(`Conversion.date_read_from_head`).
-/

namespace RowExpr

section Formatters

variable [TimeZones] {f : Formatter} {t : Text} {d : Value}

/-- A formatter gives a date exactly if it reads the text. -/
theorem Conversion.parseDate_eq_ok :
    Conversion.parseDate f (.text t) = .ok d ↔ ∃ i, f.parse? t = some i ∧
      d = .date .made (some i) := by
  unfold Conversion.parseDate
  dsimp only
  cases f.parse? t with
  | none =>
    constructor
    · intro same
      cases same
    · intro found
      obtain ⟨_, found, -⟩ := found
      cases found
  | some i =>
    constructor
    · intro same
      cases same
      exact ⟨i, rfl, rfl⟩
    · intro found
      obtain ⟨_, ⟨⟩, rfl⟩ := found
      rfl

/-- A text that it does not read is refused, with the pattern in the message. -/
theorem Conversion.parseDate_eq_error (unread : f.parse? t = none) :
    Conversion.parseDate f (.text t) =
      .error (.unparseable (.text t) (("date for pattern \"" : Text) ++ f.pattern ++ "\"")) := by
  unfold Conversion.parseDate
  dsimp only
  rw [unread]

end Formatters

section Kinds

variable [TimeZones] {k : FormatterKind} {zone t : Text} {c : Civil} {z : Zone}

omit [TimeZones] in
theorem FormatterKind.Spells.le_length (spelled : k.Spells (t.take k.pattern.length) c) :
    k.pattern.length ≤ t.length := by
  have length := spelled.length_eq
  rw [List.length_take] at length
  omega

/-- What a head spells is what its text is read as. -/
theorem FormatterKind.Spells.exists_parse? (spelled : k.Spells (t.take k.pattern.length) c)
    (date : c.IsDate) (known : TimeZones.zone? zone = some z) :
    ∃ i : Instant, i.millis = z.resolveLocal c.toMillis ∧ (k.inZone zone).parse? t = some i := by
  obtain ⟨i, millis⟩ := spelled.exists_instant date z
  refine ⟨i, millis, ?_⟩
  rw [FormatterKind.parse?_eq]
  exact FormatterKind.parseExact?_iff.2 ⟨c, z, spelled, date, known, millis⟩

/-- A text that is read has a head that spells a date, and its zone is known. -/
theorem FormatterKind.exists_spells_of_parse? {i : Instant}
    (parsed : (k.inZone zone).parse? t = some i) :
    (∃ z, TimeZones.zone? zone = some z) ∧ ∃ c, k.Spells (t.take k.pattern.length) c ∧
      c.IsDate := by
  rw [FormatterKind.parse?_eq] at parsed
  obtain ⟨c, z, spelled, date, known, -⟩ := FormatterKind.parseExact?_iff.1 parsed
  exact ⟨⟨z, known⟩, c, spelled, date⟩

/-- Texts with the same head are read alike. -/
theorem FormatterKind.parse?_congr {t' : Text}
    (same : t'.take k.pattern.length = t.take k.pattern.length) :
    (k.inZone zone).parse? t' = (k.inZone zone).parse? t := by
  rw [FormatterKind.parse?_eq, FormatterKind.parse?_eq, same]

end Kinds

/-- Reading a date by a standard pattern, in any zone of any host. In a zone that is known, as all
zones are that options accept, a text is read if the first units of the text, as many as the
pattern has, exist and spell a date of the calendar; the date is then the one of that local time.
In a zone that is not known nothing is read. Texts that begin with the same units are read as the
same date, so nothing that is appended matters. A text that is not read is an error that names it
as a whole. -/
theorem Conversion.date_read_from_head [TimeZones] (k : FormatterKind) (zone t : Text) :
    (TimeZones.accepts zone = true → ∃ z, TimeZones.zone? zone = some z) ∧
      (∀ z, TimeZones.zone? zone = some z →
        ((∃ d, Conversion.parseDate (k.inZone zone) (.text t) = .ok d) ↔
          k.pattern.length ≤ t.length ∧ ∃ c, k.Spells (t.take k.pattern.length) c ∧ c.IsDate) ∧
        ∀ c, k.Spells (t.take k.pattern.length) c → c.IsDate →
          ∃ i : Instant, i.millis = z.resolveLocal c.toMillis ∧
            Conversion.parseDate (k.inZone zone) (.text t) = .ok (.date .made (some i))) ∧
      (TimeZones.zone? zone = none →
        ∀ d, Conversion.parseDate (k.inZone zone) (.text t) ≠ .ok d) ∧
      (∀ t' d, t'.take k.pattern.length = t.take k.pattern.length →
        Conversion.parseDate (k.inZone zone) (.text t) = .ok d →
          Conversion.parseDate (k.inZone zone) (.text t') = .ok d) ∧
      (∀ suffix d, Conversion.parseDate (k.inZone zone) (.text t) = .ok d →
        Conversion.parseDate (k.inZone zone) (.text (t ++ suffix)) = .ok d) ∧
      ((∀ d, Conversion.parseDate (k.inZone zone) (.text t) ≠ .ok d) →
        Conversion.parseDate (k.inZone zone) (.text t) =
          .error
            (.unparseable (.text t) (("date for pattern \"" : Text) ++ k.pattern ++ "\""))) := by
  have heads {t' : Text} {d : Value} (same : t'.take k.pattern.length = t.take k.pattern.length)
      (read : Conversion.parseDate (k.inZone zone) (.text t) = .ok d) :
      Conversion.parseDate (k.inZone zone) (.text t') = .ok d := by
    rw [Conversion.parseDate_eq_ok, FormatterKind.parse?_congr same]
    exact Conversion.parseDate_eq_ok.1 read
  have spells {d : Value} (read : Conversion.parseDate (k.inZone zone) (.text t) = .ok d) :
      (∃ z, TimeZones.zone? zone = some z) ∧ ∃ c, k.Spells (t.take k.pattern.length) c ∧
      c.IsDate := by
    obtain ⟨i, parsed, -⟩ := Conversion.parseDate_eq_ok.1 read
    exact FormatterKind.exists_spells_of_parse? parsed
  refine ⟨?_, ?_, ?_, fun t' d same => heads same, ?_, ?_⟩
  · intro accepted
    exact Option.isSome_iff_exists.1 (TimeZones.known zone accepted)
  · intro z known
    have reads (c : Civil) (spelled : k.Spells (t.take k.pattern.length) c) (date : c.IsDate) :
        ∃ i : Instant, i.millis = z.resolveLocal c.toMillis ∧
          Conversion.parseDate (k.inZone zone) (.text t) = .ok (.date .made (some i)) := by
      obtain ⟨i, millis, parsed⟩ := spelled.exists_parse? date known
      exact ⟨i, millis, Conversion.parseDate_eq_ok.2 ⟨i, parsed, rfl⟩⟩
    refine ⟨⟨?_, ?_⟩, reads⟩
    · rintro ⟨d, read⟩
      obtain ⟨-, c, spelled, date⟩ := spells read
      exact ⟨spelled.le_length, c, spelled, date⟩
    · rintro ⟨-, c, spelled, date⟩
      obtain ⟨i, -, read⟩ := reads c spelled date
      exact ⟨_, read⟩
  · intro unknown d read
    obtain ⟨⟨z, known⟩, -⟩ := spells read
    rw [unknown] at known
    cases known
  · intro suffix d read
    obtain ⟨-, c, spelled, -⟩ := spells read
    exact heads (List.take_append_of_le_length spelled.le_length) read
  · intro unread
    refine Conversion.parseDate_eq_error (Option.eq_none_iff_forall_ne_some.2 ?_)
    intro i parsed
    exact unread _ (Conversion.parseDate_eq_ok.2 ⟨i, parsed, rfl⟩)

end RowExpr
