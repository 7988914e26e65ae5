import RowExpr.Calendar.Offsets
import RowExpr.Proofs.DecimalText
import RowExpr.Proofs.EpochText
import RowExpr.Proofs.IntegralText

/-!
Conversions of one text to several types.

Texts are read by two grammars, integers and decimal numbers, and each integral type, and each
use as epoch milliseconds, has a range of its own. The conditions are nested all the same: what a
type takes, every wider type takes as the same number, and what can be epoch milliseconds is a
Long first. A text therefore becomes the same date by its milliseconds as through a Long
(`Query.text_conversions_agree`).
-/

namespace RowExpr

/-- A numeric type and the one after it, from the narrowest to the widest. -/
inductive Primitive.Next : Primitive → Primitive → Prop
  | byte : Primitive.Next .byte .short
  | short : Primitive.Next .short .int
  | int : Primitive.Next .int .long
  | long : Primitive.Next .long .double

section Conversions

variable {t : Text} {v : Value} {n : Int}

/-- What one integral type takes, another takes that has all integers of the first. -/
theorem Conversion.whole_mono {T U : Whole} (wider : ∀ n, T.InRange n → U.InRange n)
    (converted : Conversion.valueOf T.primitive (.text t) = .ok v) :
    Conversion.valueOf U.primitive (.text t) = .ok v := by
  obtain ⟨x, n, rfl, read, writes, rounds, inRange⟩ := (Conversion.whole_eq_ok T).1 converted
  exact (Conversion.whole_eq_ok U).2 ⟨x, n, rfl, read, writes, rounds, wider n inRange⟩

theorem Width.InRange.mono {w w' : Width} (wider : w.bits ≤ w'.bits) (inRange : w.InRange n) :
    w'.InRange n := by
  obtain ⟨low, high⟩ := inRange
  have bound : 2 ^ (w.bits - 1) ≤ 2 ^ (w'.bits - 1) :=
    Nat.pow_le_pow_right Nat.two_pos (Nat.sub_le_sub_right wider 1)
  have power (k : Nat) : ((2 ^ k : Nat) : Int) = 2 ^ k := Int.natCast_pow 2 k
  rw [← power] at low high
  rw [Width.InRange, ← power]
  omega

theorem Width.InRange.long {w : Width} (inRange : w.InRange n) : Whole.InRange .long n := by
  have := inRange.natAbs_le_int
  exact ⟨by omega, by omega⟩

/-- What a type takes, the next wider type takes as the same number. -/
theorem Primitive.Next.valueOf {narrow wide : Primitive} (next : narrow.Next wide)
    (converted : Conversion.valueOf narrow (.text t) = .ok v) :
    Conversion.valueOf wide (.text t) = .ok v := by
  cases next with
  | byte =>
    exact @Conversion.whole_mono _ _ (.width .byte) (.width .short)
      (fun _ => Width.InRange.mono (by decide)) converted
  | short =>
    exact @Conversion.whole_mono _ _ (.width .short) (.width .int)
      (fun _ => Width.InRange.mono (by decide)) converted
  | int =>
    exact @Conversion.whole_mono _ _ (.width .int) .long (fun _ => Width.InRange.long) converted
  | long =>
    obtain ⟨x, n, rfl, read, -⟩ := (Conversion.whole_eq_ok .long).1 converted
    exact Conversion.fractional_of_read .double (Numeral.decimal?_of_integer? read)

/-- A Long that was read from a text is the integer that the text writes. -/
theorem Conversion.long_writesInt (converted : Conversion.valueOf .long (.text t) = .ok v) :
    ∃ n, v.IsInt n ∧ t.WritesInt n := by
  obtain ⟨x, n, rfl, -, writes, rounds, inRange⟩ := (Conversion.whole_eq_ok .long).1 converted
  exact ⟨n, Value.isInt_number (rounds.toInt? inRange.natAbs_lt), writes⟩

end Conversions

/-! ## Epoch milliseconds -/

section Epoch

variable {t : Text} {d v : Value} {m n : Int}

theorem Whole.inRange_of_limit (inRange : n.natAbs ≤ Instant.limit) : Whole.InRange .long n := by
  have limit : Instant.limit = 8640000000000000 := rfl
  exact ⟨by omega, by omega⟩

theorem Value.IsInt.unique (left : v.IsInt m) (right : v.IsInt n) : m = n := by
  obtain ⟨x, rfl, whole⟩ := left
  obtain ⟨_, ⟨⟩, whole'⟩ := right
  exact Option.some.inj (whole.symm.trans whole')

/-- What is read as epoch milliseconds is an integer in the range of dates. -/
theorem Conversion.epochMillis_eq_ok :
    Conversion.epochMillis (.text t) = .ok d ↔
      ∃ (n : Int) (inRange : n.natAbs ≤ Instant.limit), t.WritesInt n ∧
        d = .date .made (some ⟨n, inRange⟩) := by
  constructor
  · intro converted
    cases read : Numeral.integer? t.trim with
    | none =>
      rw [Conversion.epochMillis, read] at converted
      cases converted
    | some x =>
      obtain ⟨n, writes, -⟩ := Text.exists_writesInt read
      rcases Nat.lt_or_ge Instant.limit n.natAbs with beyond | inRange
      · rw [writes.epochMillis_error beyond] at converted
        cases converted
      · rw [writes.epochMillis inRange] at converted
        cases converted
        exact ⟨n, inRange, writes, rfl⟩
  · intro written
    obtain ⟨n, inRange, writes, rfl⟩ := written
    exact writes.epochMillis inRange

/-- Epoch milliseconds are a Long in the range of dates. -/
theorem Conversion.epochMillis_of_long (converted : Conversion.valueOf .long (.text t) = .ok v)
    (whole : v.IsInt n) (inRange : n.natAbs ≤ Instant.limit) :
    Conversion.epochMillis (.text t) = .ok (.date .made (some ⟨n, inRange⟩)) := by
  obtain ⟨m, whole', writes⟩ := Conversion.long_writesInt converted
  cases whole.unique whole'
  exact writes.epochMillis inRange

theorem Conversion.exists_epochMillis_iff :
    (∃ d, Conversion.epochMillis (.text t) = .ok d) ↔
      ∃ v n, Conversion.valueOf .long (.text t) = .ok v ∧ v.IsInt n ∧
        n.natAbs ≤ Instant.limit := by
  constructor
  · intro read
    obtain ⟨d, read⟩ := read
    obtain ⟨n, inRange, writes, -⟩ := Conversion.epochMillis_eq_ok.1 read
    obtain ⟨v, converted, whole⟩ := writes.exists_whole .long (Whole.inRange_of_limit inRange)
    exact ⟨v, n, converted, whole, inRange⟩
  · intro converted
    obtain ⟨v, n, converted, whole, inRange⟩ := converted
    exact ⟨_, Conversion.epochMillis_of_long converted whole inRange⟩

/-- The date made from a Long has a time exactly if the text of the Long is read as epoch
milliseconds, and it is the same time. -/
theorem Conversion.toTime_of_long (converted : Conversion.valueOf .long (.text t) = .ok v)
    (i : Instant) :
    v.toTime = some i ↔ Conversion.epochMillis (.text t) = .ok (.date .made (some i)) := by
  obtain ⟨n, whole, writes⟩ := Conversion.long_writesInt converted
  constructor
  · intro time
    obtain ⟨x, rfl, integer⟩ := whole
    rw [Value.toTime, Time.ofDouble, Double.truncated?_of_toInt? integer] at time
    have millis : i.millis = n := Time.ofMillis_eq_some.1 time
    subst millis
    exact writes.epochMillis i.inRange
  · intro read
    obtain ⟨m, inRange, writes', same⟩ := Conversion.epochMillis_eq_ok.1 read
    cases same
    obtain ⟨v', converted', whole'⟩ := writes'.exists_whole .long (Whole.inRange_of_limit inRange)
    cases converted.symm.trans converted'
    exact whole'.toTime inRange

end Epoch

/-- A text cast to Long and then to Date gives a date with a time exactly if it is read as epoch
milliseconds, and the same date. -/
theorem Query.date_through_long [TimeZones] {inputs : List Input} {given : GivenOptions}
    {e : Expr} {p : Query} (built : (Query.projection inputs [e] given).outcome = .ok p)
    (isText : e.type = .basic .string) :
    ∃ through : Query,
      (Query.projection inputs [.cast (.cast e (.basic .long)) (.basic .date)] given).outcome =
        .ok through ∧
      ∀ records t (i : Instant), p.Returns records (.text t) →
        (through.Returns records (.date .made (some i)) ↔
          Conversion.epochMillis (.text t) = .ok (.date .made (some i))) := by
  obtain ⟨_, long, -, builtLong, reads⟩ := Query.exists_cast built (isText ▸ Ty.Castable.ofText)
  obtain ⟨_, through, -, builtThrough, makes⟩ :=
    Query.exists_cast builtLong Ty.Castable.dateOfMillis
  refine ⟨through, builtThrough, ?_⟩
  intro records t i returns
  have ran := reads records _ rfl returns
  rw [isText, Value.cast] at ran
  cases converted : Conversion.valueOf .long (.text t) with
  | error f =>
    -- The cast stops at the Long, and no text is read as milliseconds that is no Long.
    rw [converted] at ran
    have stopped : through.run records = .error f := Query.cast_stops builtLong builtThrough ran
    refine iff_of_false ?_ ?_
    · intro returned
      cases stopped.symm.trans returned
    · intro read
      obtain ⟨v, n, converted', -⟩ := Conversion.exists_epochMillis_iff.1 ⟨_, read⟩
      cases converted.symm.trans converted'
  | ok v =>
    have returned : long.Returns records v := (Query.returns_of_run ran).2 converted
    obtain ⟨n, whole, -⟩ := Conversion.long_writesInt converted
    rw [Query.returns_of_run (makes records v whole.isAbsent returned),
      ← Conversion.toTime_of_long converted]
    show .ok (Value.date .made v.toTime) = Except.ok (Value.date .made (some i)) ↔ _
    rw [Except.ok.injEq, Value.date.injEq, and_iff_right rfl]

/-- The conversions of a text agree. What a numeric type takes, the next wider type takes as the
same number. A text is read as epoch milliseconds exactly if it is a Long in the range of dates,
and the date is at that number. For all inputs and options and all texts that an expression gives,
the text cast to Long and then to Date gives a date with a time exactly if the text is read so,
and the same date. -/
theorem Query.text_conversions_agree [TimeZones] :
    (∀ (t : Text) (v : Value) (narrow wide : Primitive), narrow.Next wide →
      Conversion.valueOf narrow (.text t) = .ok v → Conversion.valueOf wide (.text t) = .ok v) ∧
    (∀ t : Text, (∃ d, Conversion.epochMillis (.text t) = .ok d) ↔
      ∃ v n, Conversion.valueOf .long (.text t) = .ok v ∧ v.IsInt n ∧
        n.natAbs ≤ 8640000000000000) ∧
    (∀ (t : Text) (v : Value) (n : Int), Conversion.valueOf .long (.text t) = .ok v → v.IsInt n →
      ∀ inRange : n.natAbs ≤ 8640000000000000,
        Conversion.epochMillis (.text t) = .ok (.date .made (some ⟨n, inRange⟩))) ∧
    ∀ (inputs : List Input) (given : GivenOptions) (e : Expr) (p : Query),
      (Query.projection inputs [e] given).outcome = .ok p → e.type = .basic .string →
      ∃ through : Query,
        (Query.projection inputs [.cast (.cast e (.basic .long)) (.basic .date)] given).outcome =
          .ok through ∧
        ∀ records t (i : Instant), p.Returns records (.text t) →
          (through.Returns records (.date .made (some i)) ↔
            Conversion.epochMillis (.text t) = .ok (.date .made (some i))) := by
  refine ⟨?_, ?_, ?_, ?_⟩
  · intro t v narrow wide next converted
    exact next.valueOf converted
  · intro t
    exact Conversion.exists_epochMillis_iff
  · intro t v n converted whole inRange
    exact Conversion.epochMillis_of_long converted whole inRange
  · intro inputs given e p built isText
    exact Query.date_through_long built isText

section Host

open scoped Offsets

/-- The largest Byte, with a sign and a zero in front and white space around it. -/
theorem Query.text_conversions_agree_padded :
    ∃ (p through : Query) (v : Value) (i : Instant), i.millis = 127 ∧ v.IsInt 127 ∧
      (Query.projection Input.clock [.field "s" (.basic .string)] (.members [])).outcome = .ok p ∧
      (Query.projection Input.clock
        [.cast (.cast (.field "s" (.basic .string)) (.basic .long)) (.basic .date)]
        (.members [])).outcome = .ok through ∧
      p.Returns (Value.clock " +0127\n") (.text " +0127\n") ∧
      (∀ type ∈ [Primitive.byte, .short, .int, .long, .double],
        Conversion.valueOf type (.text " +0127\n") = .ok v) ∧
      Conversion.epochMillis (.text " +0127\n") = .ok (.date .made (some i)) ∧
      through.Returns (Value.clock " +0127\n") (.date .made (some i)) := by
  obtain ⟨p, built, returns⟩ : ∃ p : Query,
      (Query.projection Input.clock [.field "s" (.basic .string)] (.members [])).outcome = .ok p ∧
      p.Returns (Value.clock " +0127\n") (.text " +0127\n") := ⟨_, rfl, rfl⟩
  obtain ⟨widens, -, dates, casts⟩ := Query.text_conversions_agree
  obtain ⟨through, builtThrough, agrees⟩ := casts _ _ _ _ built rfl
  have writes : Text.WritesInt " +0127\n" 127 :=
    ⟨" ", "+0127", "\n", rfl, List.all_eq_true.1 rfl, List.all_eq_true.1 rfl,
      @Numeral.Denotes.plus "0127" (List.cons_ne_nil _ _) (List.all_eq_true.1 rfl)⟩
  obtain ⟨v, byte, whole⟩ := writes.exists_whole (.width .byte) (by decide)
  have short := widens _ _ _ _ .byte byte
  have int := widens _ _ _ _ .short short
  have long := widens _ _ _ _ .int int
  have double := widens _ _ _ _ .long long
  have date := dates _ _ _ long whole (by decide)
  refine ⟨p, through, v, ⟨127, by decide⟩, rfl, whole, built, builtThrough, returns, ?_, date,
    (agrees _ _ _ returns).2 date⟩
  simp only [List.forall_mem_cons]
  exact ⟨byte, short, int, long, double, List.forall_mem_nil _⟩

end Host

end RowExpr
