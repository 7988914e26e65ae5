import RowExpr.Proofs.Calendar.Civil
import RowExpr.Proofs.Calendar.Pattern

/-!
Dates in the standard patterns.

`FormatterKind.Spells` tells by what digits and marks a text writes a date. Reading by a standard
pattern takes exactly the texts that spell a date of the calendar
(`FormatterKind.parseExact?_iff`), in every zone. A date of a year from 0 to 9999, written by the
pattern of timestamps, is spelled by what is written (`FormatterKind.spells_write`).
-/

namespace RowExpr

/-- The text writes the fields of a date by a standard pattern. What the pattern does not name is
that of the start of 1970-01-01. -/
inductive FormatterKind.Spells : FormatterKind → Text → Civil → Prop
  | date {y m d : Nat} {ys ms ds : Text} : ys.IsNumber 4 y → ms.IsNumber 2 m → ds.IsNumber 2 d →
    FormatterKind.Spells .date (ys ++ "-" ++ ms ++ "-" ++ ds) ⟨y, m, d, 0, 0, 0, 0⟩
  | time {h n s : Nat} {hs ns ss : Text} : hs.IsNumber 2 h → ns.IsNumber 2 n → ss.IsNumber 2 s →
    FormatterKind.Spells .time (hs ++ ":" ++ ns ++ ":" ++ ss) ⟨1970, 1, 1, h, n, s, 0⟩
  | timestamp {y m d h n s f : Nat} {ys ms ds hs ns ss fs : Text} :
    ys.IsNumber 4 y → ms.IsNumber 2 m → ds.IsNumber 2 d → hs.IsNumber 2 h → ns.IsNumber 2 n →
    ss.IsNumber 2 s →
    fs.IsNumber 3 f →
    FormatterKind.Spells .timestamp
      (ys ++ "-" ++ ms ++ "-" ++ ds ++ " " ++ hs ++ ":" ++ ns ++ ":" ++ ss ++ "." ++ fs)
        ⟨y, m, d, h, n, s, f⟩

def FormatterKind.tokens : FormatterKind → List PatternToken
  | .date => [.field .year, .literal 45, .field .month, .literal 45, .field .day]
  | .time => [.field .hour, .literal 58, .field .minute, .literal 58, .field .second]
  | .timestamp =>
    [.field .year, .literal 45, .field .month, .literal 45, .field .day,
      .literal 32, .field .hour, .literal 58, .field .minute, .literal 58, .field .second,
      .literal 46, .field .milli]

theorem FormatterKind.ofText_pattern (k : FormatterKind) :
    PatternToken.ofText k.pattern = k.tokens := by
  cases k <;> rfl

theorem FormatterKind.pattern_ne_nil (k : FormatterKind) : k.pattern ≠ [] := by
  cases k <;> exact List.cons_ne_nil _ _

/-! ## Reading -/

section Reading

variable {k : FormatterKind} {t : Text} {c : Civil} {y : Int}

theorem Text.marks :
    Text.ofString "-" = [45] ∧ Text.ofString ":" = [58] ∧ Text.ofString " " = [32] ∧
      Text.ofString "." = [46] := ⟨rfl, rfl, rfl, rfl⟩

/-- The first pattern reads a date, with the time of midnight. -/
theorem FormatterKind.read?_date :
    PatternToken.read? FormatterKind.date.tokens t ⟨y, 1, 1, 0, 0, 0, 0⟩ = some c ↔
      FormatterKind.Spells .date t c := by
  simp only [tokens, PatternToken.read?_field, PatternToken.read?_literal, PatternToken.read?_nil]
  constructor
  · intro read
    obtain ⟨y, ys, _, rfl, year, _, rfl, m, ms, _, rfl, month, _, rfl, d, ds, _, rfl, day,
      rfl, rfl⟩ := read
    have spelled := Spells.date year month day
    simp only [Text.marks, List.append_assoc, List.singleton_append] at spelled
    rw [List.append_nil]
    exact spelled
  · intro spelled
    cases spelled with
    | @date y m d ys ms ds year month day =>
      simp only [Text.marks, List.append_assoc, List.singleton_append]
      exact ⟨y, ys, _, rfl, year, _, rfl, m, ms, _, rfl, month, _, rfl, d, ds, [],
        (List.append_nil ds).symm, day, rfl, rfl⟩

/-- The second reads a time, on the first day of the epoch. -/
theorem FormatterKind.read?_time :
    PatternToken.read? FormatterKind.time.tokens t Formatter.start = some c ↔
      FormatterKind.Spells .time t c := by
  simp only [tokens, PatternToken.read?_field, PatternToken.read?_literal, PatternToken.read?_nil]
  constructor
  · intro read
    obtain ⟨h, hs, _, rfl, hour, _, rfl, n, ns, _, rfl, minute, _, rfl, s, ss, _, rfl, second,
      rfl, rfl⟩ := read
    have spelled := Spells.time hour minute second
    simp only [Text.marks, List.append_assoc, List.singleton_append] at spelled
    rw [List.append_nil]
    exact spelled
  · intro spelled
    cases spelled with
    | @time h n s hs ns ss hour minute second =>
      simp only [Text.marks, List.append_assoc, List.singleton_append]
      exact ⟨h, hs, _, rfl, hour, _, rfl, n, ns, _, rfl, minute, _, rfl, s, ss, [],
        (List.append_nil ss).symm, second, rfl, rfl⟩

/-- The third reads both. -/
theorem FormatterKind.read?_timestamp :
    PatternToken.read? FormatterKind.timestamp.tokens t ⟨y, 1, 1, 0, 0, 0, 0⟩ = some c ↔
      FormatterKind.Spells .timestamp t c := by
  simp only [tokens, PatternToken.read?_field, PatternToken.read?_literal, PatternToken.read?_nil]
  constructor
  · intro read
    obtain ⟨y, ys, _, rfl, year, _, rfl, m, ms, _, rfl, month, _, rfl, d, ds, _, rfl, day, _,
      rfl, read⟩ := read
    obtain ⟨h, hs, _, rfl, hour, _, rfl, n, ns, _, rfl, minute, _, rfl, s, ss, _, rfl, second, _,
      rfl, read⟩ := read
    obtain ⟨f, fs, _, rfl, milli, rfl, rfl⟩ := read
    have spelled := Spells.timestamp year month day hour minute second milli
    simp only [Text.marks, List.append_assoc, List.singleton_append] at spelled
    rw [List.append_nil]
    exact spelled
  · intro spelled
    cases spelled with
    | @timestamp y m d h n s f ys ms ds hs ns ss fs year month day hour minute second milli =>
      simp only [Text.marks, List.append_assoc, List.singleton_append]
      refine ⟨y, ys, _, rfl, year, _, rfl, m, ms, _, rfl, month, _, rfl, d, ds, _, rfl,
        day, _, rfl, ?_⟩
      refine ⟨h, hs, _, rfl, hour, _, rfl, n, ns, _, rfl, minute, _, rfl, s, ss, _, rfl,
        second, _, rfl, ?_⟩
      exact ⟨f, fs, [], (List.append_nil fs).symm, milli, rfl, rfl⟩

/-- The fields from which reading by a standard pattern starts, at a local time of the present. -/
def FormatterKind.initial : FormatterKind → Civil → Civil
  | .date, c => PatternToken.settle FormatterKind.date.tokens DateField.all c
  | .time, _ => Formatter.start
  | .timestamp, c => PatternToken.settle FormatterKind.timestamp.tokens DateField.all c

/-- What a text is read as does not depend on the present. -/
theorem FormatterKind.read?_iff {present : Civil} :
    PatternToken.read? k.tokens t (k.initial present) = some c ↔ k.Spells t c := by
  cases k with
  | date => exact read?_date
  | time => exact read?_time
  | timestamp => exact read?_timestamp

/-- A text that spells a date is as long as the pattern. -/
theorem FormatterKind.Spells.length_eq (spelled : k.Spells t c) :
    t.length = k.pattern.length := by
  rw [PatternToken.length_of_read? ((@read?_iff k t c Formatter.start).2 spelled),
    ← ofText_pattern, PatternToken.span_ofText]

/-- Years have four digits. -/
theorem FormatterKind.Spells.year (spelled : k.Spells t c) : 0 ≤ c.year ∧ c.year ≤ 9999 := by
  have bound {n : Nat} {ys : Text} (year : ys.IsNumber 4 n) : 0 ≤ (n : Int) ∧
      (n : Int) ≤ 9999 := by
    have less := Text.digitsValue_lt year.digits
    rw [year.length, year.value] at less
    omega
  cases spelled with
  | date year _ _ => exact bound year
  | time _ _ _ => exact (by decide : (0 : Int) ≤ 1970 ∧ (1970 : Int) ≤ 9999)
  | timestamp year _ _ _ _ _ _ => exact bound year

end Reading

/-! ## Writing -/

open PatternToken in
/-- A date of a year from 0 to 9999 is spelled by what the pattern of timestamps writes for it. -/
theorem FormatterKind.spells_write {c : Civil} (date : c.IsDate)
    (year : 0 ≤ c.year ∧ c.year ≤ 9999) :
    FormatterKind.Spells .timestamp
      (FormatterKind.timestamp.tokens.flatMap (PatternToken.write c)) c := by
  obtain ⟨month, day, hour, minute, second, milli⟩ := date
  have days := Civil.daysInMonth_le c.year c.month
  rcases c with ⟨cy, cm, cd, ch, cn, cs, cf⟩
  dsimp only at year month day hour minute second milli days
  -- No field is negative, so none is written with a sign.
  obtain ⟨y, rfl⟩ := Int.eq_ofNat_of_zero_le year.1
  obtain ⟨m, rfl⟩ := Int.eq_ofNat_of_zero_le (Int.le_trans (by decide) month.1)
  obtain ⟨d, rfl⟩ := Int.eq_ofNat_of_zero_le (Int.le_trans (by decide) day.1)
  obtain ⟨h, rfl⟩ := Int.eq_ofNat_of_zero_le hour.1
  obtain ⟨n, rfl⟩ := Int.eq_ofNat_of_zero_le minute.1
  obtain ⟨s, rfl⟩ := Int.eq_ofNat_of_zero_le second.1
  obtain ⟨f, rfl⟩ := Int.eq_ofNat_of_zero_le milli.1
  have spelled :=
    Spells.timestamp (@isNumber_padded 4 y (by decide) (by omega))
      (@isNumber_padded 2 m (by decide) (by omega))
      (@isNumber_padded 2 d (by decide) (by omega)) (@isNumber_padded 2 h (by decide) (by omega))
        (@isNumber_padded 2 n (by decide) (by omega))
      (@isNumber_padded 2 s (by decide) (by omega)) (@isNumber_padded 3 f (by decide) (by omega))
  simp only [Text.marks, List.append_assoc, List.singleton_append] at spelled
  simp only [tokens, List.flatMap_cons, List.flatMap_nil, List.append_nil, PatternToken.write,
    DateField.get, List.singleton_append]
  exact spelled

/-! ## Instants -/

section Instants

variable [TimeZones] {k : FormatterKind} {t zone : Text} {c : Civil} {z : Zone} {i : Instant}

omit [TimeZones] in
theorem Time.ofMillis_eq_some {millis : Int} :
    Time.ofMillis millis = some i ↔ i.millis = millis := by
  unfold Time.ofMillis
  constructor
  · intro found
    split at found
    · cases found
      rfl
    · cases found
  · intro same
    subst same
    exact dif_pos i.inRange

/-- The epoch millisecond of a local time is some offset of the zone away from it. -/
theorem Zone.exists_resolveLocal (z : Zone) (localMillis : Int) :
    ∃ millis, z.resolveLocal localMillis = localMillis - z.offsetAt millis := by
  unfold resolveLocal
  generalize z.offsetAt TimeZones.now = o
  dsimp only
  split
  · next same => exact ⟨localMillis - o, by rw [same]⟩
  · split
    · exact ⟨localMillis - o, by omega⟩
    · rcases Int.le_total (z.offsetAt (localMillis - o))
        (z.offsetAt (localMillis - o - (z.offsetAt (localMillis - o) - o))) with le | ge
      · exact ⟨_, by rw [Int.min_eq_left le]⟩
      · exact ⟨_, by rw [Int.min_eq_right ge]⟩

/-- No zone is far from UTC. -/
theorem Zone.natAbs_resolveLocal_le (z : Zone) (localMillis : Int) :
    (z.resolveLocal localMillis).natAbs ≤ localMillis.natAbs + furthest := by
  obtain ⟨millis, same⟩ := z.exists_resolveLocal localMillis
  have bound := z.bounded millis
  rw [same]
  omega

/-- How a formatter of the three reads: what its pattern leaves open is filled in before. -/
theorem FormatterKind.parseExact?_eq (k : FormatterKind) (zone t : Text) :
    (k.inZone zone).parseExact? t =
      (TimeZones.zone? zone).bind fun z => z.instant? k.tokens t (k.initial z.present) := by
  cases k with
  | date => exact Formatter.parseExact?_dated rfl t
  | time => exact Formatter.parseExact?_undated rfl t
  | timestamp => exact Formatter.parseExact?_dated rfl t

/-- A text is read as an instant if it spells a date of the calendar whose local time is that
instant. -/
theorem FormatterKind.parseExact?_iff :
    (k.inZone zone).parseExact? t = some i ↔
      ∃ c z, k.Spells t c ∧ c.IsDate ∧ TimeZones.zone? zone = some z ∧
        i.millis = z.resolveLocal c.toMillis := by
  rw [parseExact?_eq, Option.bind_eq_some_iff]
  constructor
  · intro parsed
    obtain ⟨z, known, parsed⟩ := parsed
    obtain ⟨c, read, valid, time⟩ := Zone.instant?_eq_some.1 parsed
    exact ⟨c, z, read?_iff.1 read, Civil.isValid_iff.1 valid, known, Time.ofMillis_eq_some.1 time⟩
  · intro spelled
    obtain ⟨c, z, spelled, date, known, time⟩ := spelled
    refine ⟨z, known, Zone.instant?_eq_some.2 ⟨c, read?_iff.2 spelled, ?_, ?_⟩⟩
    · exact Civil.isValid_iff.2 date
    · exact Time.ofMillis_eq_some.2 time

/-- What is spelled in four digits of a year is in the range of instants, in every zone. -/
theorem FormatterKind.Spells.exists_instant (spelled : k.Spells t c) (date : c.IsDate)
    (z : Zone) : ∃ i : Instant, i.millis = z.resolveLocal c.toMillis := by
  have near := date.natAbs_toMillis_le spelled.year
  have shifted := z.natAbs_resolveLocal_le c.toMillis
  refine ⟨⟨z.resolveLocal c.toMillis, ?_⟩, rfl⟩
  unfold Zone.furthest at shifted
  unfold Instant.limit
  omega

/-- Only the beginning of a text is read, as long as the pattern. -/
theorem FormatterKind.parse?_eq (k : FormatterKind) (zone t : Text) :
    (k.inZone zone).parse? t = (k.inZone zone).parseExact? (t.take k.pattern.length) :=
  Formatter.parse?_eq k.pattern_ne_nil t

end Instants

end RowExpr
