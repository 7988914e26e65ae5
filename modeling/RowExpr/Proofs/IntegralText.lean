import RowExpr.Proofs.IntegralDivision
import RowExpr.Proofs.Text.Integer

/-!
Integral values from texts.

A text is converted to an integral type exactly if it is an integer of the range of the type,
with white space around it at most (`Conversion.integral_text_exact`). The digits are read as a
floating-point number before the range is checked. A long sequence of digits is then rounded or
becomes infinite, but no integer gets into a range or out of it that way.
-/

namespace RowExpr

def Whole.primitive : Whole → Primitive
  | .width w => w.primitive
  | .long => .long

theorem Whole.type_eq (T : Whole) : T.type = .basic (.primitive T.primitive) := by
  cases T <;> rfl

section Range

variable {p : Primitive} {low high n : Int} {t : Text} (lowSmall : low.natAbs < 2 ^ 53)
    (highSmall : high.natAbs < 2 ^ 53)

include lowSmall highSmall

/-- The check of the rounded number is the check of the integer. -/
theorem Conversion.integral_of_rounds {x : Double} (read : Numeral.integer? t.trim = some x)
    (rounds : x.Rounds n) :
    Conversion.integral p low high t =
      if low ≤ n ∧ n ≤ high then .ok (.number x) else .error (.unparseable (.text t) p.name) := by
  unfold Conversion.integral
  rw [read]
  dsimp only
  rw [rounds.lt_ofInt lowSmall, rounds.ofInt_lt highSmall, ← Bool.decide_or]
  by_cases inside : low ≤ n ∧ n ≤ high
  · rw [if_pos inside, if_neg]
    rw [decide_eq_true_iff]
    omega
  · rw [if_neg inside, if_pos]
    rw [decide_eq_true_iff]
    omega

/-- What a conversion gives is the number that was read, if the text is an integer of the
range. -/
theorem Conversion.integral_eq_ok {v : Value} :
    Conversion.integral p low high t = .ok v ↔ ∃ x n, v = .number x ∧
      Numeral.integer? t.trim = some x ∧
      t.WritesInt n ∧ x.Rounds n ∧ low ≤ n ∧ n ≤ high := by
  constructor
  · intro converted
    cases read : Numeral.integer? t.trim with
    | none =>
      rw [Conversion.integral, read] at converted
      cases converted
    | some x =>
      obtain ⟨n, writes, rounds⟩ := Text.exists_writesInt read
      rw [Conversion.integral_of_rounds lowSmall highSmall read rounds] at converted
      split at converted
      · next inside =>
        cases converted
        exact ⟨x, n, rfl, rfl, writes, rounds, inside⟩
      · cases converted
  · intro read
    obtain ⟨x, n, rfl, read, -, rounds, inside⟩ := read
    rw [Conversion.integral_of_rounds lowSmall highSmall read rounds, if_pos inside]

theorem Conversion.integral_ok_iff :
    (∃ v, Conversion.integral p low high t = .ok v ∧ v.IsInt n) ↔ t.WritesInt n ∧ low ≤ n ∧
      n ≤ high := by
  constructor
  · rintro ⟨v, converted, y, rfl, whole⟩
    obtain ⟨_, m, ⟨⟩, -, writes, rounds, inside⟩ :=
      (Conversion.integral_eq_ok lowSmall highSmall).1 converted
    have same : m = n := Option.some.inj ((rounds.toInt? (by omega)).symm.trans whole)
    subst same
    exact ⟨writes, inside⟩
  · rintro ⟨writes, inside⟩
    obtain ⟨x, read, rounds⟩ := writes.read
    refine ⟨.number x, ?_, x, rfl, rounds.toInt? (by omega)⟩
    exact (Conversion.integral_eq_ok lowSmall highSmall).2
      ⟨x, n, rfl, read, writes, rounds, inside⟩

theorem Conversion.integral_error (outside : ∀ n, t.WritesInt n → ¬ (low ≤ n ∧ n ≤ high)) :
    Conversion.integral p low high t = .error (.unparseable (.text t) p.name) := by
  cases read : Numeral.integer? t.trim with
  | none => rw [Conversion.integral, read]
  | some x =>
    obtain ⟨m, writes, rounds⟩ := Text.exists_writesInt read
    rw [Conversion.integral_of_rounds lowSmall highSmall read rounds, if_neg (outside m writes)]

end Range

/-- The range of an integral type has ends of fewer than 54 bits, and conversion checks them. -/
theorem Whole.exists_ends (T : Whole) :
    ∃ low high : Int, low.natAbs < 2 ^ 53 ∧ high.natAbs < 2 ^ 53 ∧
      (∀ n, T.InRange n ↔ low ≤ n ∧ n ≤ high) ∧
      ∀ t, Conversion.valueOf T.primitive (.text t) =
        Conversion.integral T.primitive low high t := by
  have range (w : Width) (n : Int) : w.InRange n ↔ -(2 ^ (w.bits - 1)) ≤ n ∧
      n ≤ 2 ^ (w.bits - 1) - 1 :=
    and_congr_right' Int.le_sub_one_iff.symm
  rcases T with (_ | _ | _) | _
  · exact ⟨-(2 ^ 7), 2 ^ 7 - 1, by decide, by decide, range .byte, fun _ => rfl⟩
  · exact ⟨-(2 ^ 15), 2 ^ 15 - 1, by decide, by decide, range .short, fun _ => rfl⟩
  · exact ⟨-(2 ^ 31), 2 ^ 31 - 1, by decide, by decide, range .int, fun _ => rfl⟩
  · exact ⟨-Double.maxSafe, Double.maxSafe, by decide, by decide, fun n => Iff.rfl, fun _ => rfl⟩

section Wholes

variable {t : Text} {v : Value} {n : Int}

/-- What a conversion to an integral type gives: the number that was read, if the text is an
integer of the type. -/
theorem Conversion.whole_eq_ok (T : Whole) :
    Conversion.valueOf T.primitive (.text t) = .ok v ↔ ∃ x n, v = .number x ∧
      Numeral.integer? t.trim = some x ∧
      t.WritesInt n ∧ x.Rounds n ∧ T.InRange n := by
  obtain ⟨low, high, lowSmall, highSmall, range, checked⟩ := T.exists_ends
  rw [checked, Conversion.integral_eq_ok lowSmall highSmall]
  simp only [range]

theorem Text.WritesInt.exists_whole (writes : t.WritesInt n) (T : Whole) (inRange : T.InRange n) :
    ∃ v, Conversion.valueOf T.primitive (.text t) = .ok v ∧ v.IsInt n := by
  obtain ⟨x, read, rounds⟩ := writes.read
  refine ⟨.number x, (Conversion.whole_eq_ok T).2 ⟨x, n, rfl, read, writes, rounds, inRange⟩, ?_⟩
  exact Value.isInt_number (rounds.toInt? inRange.natAbs_lt)

end Wholes

/-- A text is converted to an integral type, and gives an integer, exactly if it is that integer
with white space around it and the type has it. Every other text is an error that names the text,
as it was given, and the type. -/
theorem Conversion.integral_text_exact (T : Whole) (t : Text) :
    (∀ n, (∃ v, Conversion.valueOf T.primitive (.text t) = .ok v ∧ v.IsInt n) ↔ t.WritesInt n ∧
      T.InRange n) ∧
      ((∀ n, ¬ (t.WritesInt n ∧ T.InRange n)) →
        Conversion.valueOf T.primitive (.text t) =
          .error (.unparseable (.text t) T.primitive.name)) := by
  obtain ⟨low, high, lowSmall, highSmall, range, checked⟩ := T.exists_ends
  rw [checked]
  constructor
  · intro n
    rw [range]
    exact Conversion.integral_ok_iff lowSmall highSmall
  · intro outside
    refine Conversion.integral_error lowSmall highSmall fun n writes inside => ?_
    exact outside n ⟨writes, (range n).2 inside⟩

end RowExpr
