import Mathlib.Algebra.Group.Nat.Defs
import RowExpr.Calendar.Instant
import RowExpr.Number.Decimal

/-!
Integers among the floating-point numbers.

An integer of fewer than 54 bits is a floating-point number, so taking it as one
loses nothing: `Double.quanta?_ofInt` gives its quanta, and from it follow
`Double.truncated?_ofInt`, the round trip of 32-bit words `Double.toWord_ofWord`
and that of instants `Time.ofDouble_toDouble`.
-/

namespace RowExpr

/-! ## Ranks of whole numbers -/

theorem Double.rankBound_eq : rankBound = 2047 * 2 ^ 52 := rfl

theorem Double.one_eq : one = 2 ^ places := by
  have power (k : Nat) : Nat.pow 2 k = 2 ^ k := rfl
  delta one
  rw [power]

theorem Double.quantaOf_eq (rank : Nat) :
    quantaOf rank = (rank - (rank / 2 ^ 52 - 1) * 2 ^ 52) * 2 ^ (rank / 2 ^ 52 - 1) := rfl

theorem Double.nearestRank_eq (num den : Nat) :
    nearestRank num den = ((num * one / den).log2 - 52) * 2 ^ 52 +
      roundQuotient (num * one) (den * 2 ^ ((num * one / den).log2 - 52)) := rfl

/-- A whole quotient is not rounded. -/
theorem Double.roundQuotient_mul (q : Nat) {den : Nat} (pos : 0 < den) :
    roundQuotient (q * den) den = q := by
  unfold roundQuotient
  rw [Nat.mul_mod_left, Nat.mul_div_cancel _ pos]
  simp [pos]

/-- A rank that lies `m` above `k` full binades, `m` being a significand of 53
bits, has `m * 2 ^ k` quanta. -/
theorem Double.quantaOf_normal {k m : Nat} (low : 2 ^ 52 ≤ m) (high : m < 2 ^ 53) :
    quantaOf (k * 2 ^ 52 + m) = m * 2 ^ k := by
  have binade : (k * 2 ^ 52 + m) / 2 ^ 52 - 1 = k := by omega
  rw [quantaOf_eq, binade, Nat.add_sub_cancel_left]

theorem Double.log2_le_of_small {n : Nat} (pos : 0 < n) (small : n < 2 ^ 53) : n.log2 ≤ 52 := by
  have := (Nat.log2_lt (Nat.ne_of_gt pos)).2 small
  omega

/-- The significand that a positive number below `2 ^ 53` is brought to. -/
theorem Double.significand_bounds {n : Nat} (pos : 0 < n) (small : n < 2 ^ 53) :
    2 ^ 52 ≤ n * 2 ^ (52 - n.log2) ∧ n * 2 ^ (52 - n.log2) < 2 ^ 53 := by
  have bits := log2_le_of_small pos small
  have low : 2 ^ n.log2 ≤ n := Nat.log2_self_le (Nat.ne_of_gt pos)
  have high : n < 2 ^ (n.log2 + 1) := Nat.lt_log2_self
  constructor
  · calc 2 ^ 52 = 2 ^ n.log2 * 2 ^ (52 - n.log2) := by rw [← Nat.pow_add]; congr 1; omega
      _ ≤ n * 2 ^ (52 - n.log2) := Nat.mul_le_mul_right _ low
  · calc n * 2 ^ (52 - n.log2) < 2 ^ (n.log2 + 1) * 2 ^ (52 - n.log2) :=
          Nat.mul_lt_mul_of_pos_right high (Nat.two_pow_pos _)
      _ = 2 ^ 53 := by rw [← Nat.pow_add]; congr 1; omega

/-- Shifting a positive number up by `k` bits moves its leading bit up by `k`. -/
theorem Double.log2_shift {n : Nat} (pos : 0 < n) (k : Nat) : (n * 2 ^ k).log2 = n.log2 + k := by
  have nonzero : n ≠ 0 := Nat.ne_of_gt pos
  refine (Nat.log2_eq_iff (Nat.mul_ne_zero nonzero (Nat.ne_of_gt (Nat.two_pow_pos k)))).2 ⟨?_, ?_⟩
  · rw [Nat.pow_add]
    exact Nat.mul_le_mul_right _ (Nat.log2_self_le nonzero)
  · rw [Nat.add_right_comm, Nat.pow_add]
    exact Nat.mul_lt_mul_of_pos_right Nat.lt_log2_self (Nat.two_pow_pos k)

/-- One, split at the leading bit of a number of at most 53 bits. -/
theorem Double.one_eq_mul {n : Nat} (bits : n ≤ 52) : one = 2 ^ (52 - n) * 2 ^ (n + 1022) := by
  have exponent : 52 - n + (n + 1022) = places := by
    unfold places
    omega
  rw [one_eq, ← Nat.pow_add, exponent]

/-- A positive number below `2 ^ 53` is not rounded. -/
theorem Double.nearestRank_of_small {n : Nat} (pos : 0 < n) (small : n < 2 ^ 53) :
    nearestRank n 1 = (n.log2 + 1022) * 2 ^ 52 + n * 2 ^ (52 - n.log2) := by
  have bits := log2_le_of_small pos small
  have top : (n * one).log2 - 52 = n.log2 + 1022 := by
    rw [one_eq, log2_shift pos, places]
    omega
  have whole : n * one = n * 2 ^ (52 - n.log2) * 2 ^ (n.log2 + 1022) := by
    rw [one_eq_mul bits, Nat.mul_assoc]
  rw [nearestRank_eq, Nat.div_one, top, Nat.one_mul, whole,
    roundQuotient_mul _ (Nat.two_pow_pos _)]

/-- An integer below `2 ^ 53` in magnitude is a finite number of its own sign, and
its quanta are exact. -/
theorem Double.ofInt_of_small {n : Int} (small : n.natAbs < 2 ^ 53) :
    ∃ rank : Fin rankBound, ofInt n = .finite (n < 0) rank ∧ quantaOf rank = n.natAbs * one := by
  rcases Nat.eq_zero_or_pos n.natAbs with zero | pos
  · obtain rfl : n = 0 := Int.natAbs_eq_zero.1 zero
    exact ⟨⟨0, by decide⟩, by decide +kernel, by decide +kernel⟩
  · obtain ⟨low, high⟩ := significand_bounds pos small
    have bits := log2_le_of_small pos small
    have bound : (n.natAbs.log2 + 1022) * 2 ^ 52 + n.natAbs * 2 ^ (52 - n.natAbs.log2) <
        rankBound := by
      rw [rankBound_eq]
      omega
    refine ⟨⟨_, bound⟩, ?_, ?_⟩
    · rw [ofInt, ofRatio, nearestRank_of_small pos small, ofRank, dif_pos bound]
    · rw [quantaOf_normal low high, one_eq_mul bits, Nat.mul_assoc]

/-! ## Reading an integer back -/

theorem Double.quanta?_ofInt {n : Int} (small : n.natAbs < 2 ^ 53) :
    (ofInt n).quanta? = some (n * one) := by
  obtain ⟨rank, number, quanta⟩ := ofInt_of_small small
  rw [number, quanta?, quanta]
  rcases Int.lt_or_le n 0 with neg | nonneg
  · have abs : ((n.natAbs : Nat) : Int) = -n := Int.ofNat_natAbs_of_nonpos (Int.le_of_lt neg)
    rw [decide_eq_true neg, if_pos rfl, Int.natCast_mul, abs, Int.neg_mul, Int.neg_neg]
  · have abs : ((n.natAbs : Nat) : Int) = n := Int.natAbs_of_nonneg nonneg
    rw [decide_eq_false (Int.not_lt.2 nonneg), if_neg Bool.false_ne_true, Int.natCast_mul, abs]

theorem Double.one_pos : 0 < one := by
  rw [one_eq]
  apply Nat.two_pow_pos

theorem Double.one_ne_zero : (one : Int) ≠ 0 := by
  have := one_pos
  omega

theorem Double.truncated?_ofInt {n : Int} (small : n.natAbs < 2 ^ 53) :
    (ofInt n).truncated? = some n := by
  rw [truncated?, quanta?_ofInt small, Option.map_some, Int.mul_tdiv_cancel _ one_ne_zero]

/-- An integer below `2 ^ 53` in magnitude is zero only if it is the integer zero. -/
theorem Double.isZero_ofInt {n : Int} (small : n.natAbs < 2 ^ 53) :
    (ofInt n).isZero = decide (n = 0) := by
  obtain ⟨rank, number, quanta⟩ := ofInt_of_small small
  rw [number, isZero]
  by_cases zero : rank.val = 0
  · rw [zero, show quantaOf 0 = 0 by decide] at quanta
    have := (Nat.mul_eq_zero.1 quanta.symm).resolve_right (Nat.ne_of_gt one_pos)
    simp [zero, Int.natAbs_eq_zero.1 this]
  · have : n ≠ 0 := by
      rintro rfl
      rw [Int.natAbs_zero, Nat.zero_mul, quantaOf_eq, Nat.mul_eq_zero] at quanta
      have := Nat.two_pow_pos (rank.val / 2 ^ 52 - 1)
      omega
    simp [zero, this]

/-- The numeral of an integer denotes the integer: it has no sign to lose at zero. -/
theorem Double.written_ofInt {n : Int} (small : n.natAbs < 2 ^ 53) :
    (ofInt n).written = ofInt n := by
  rw [written, isZero_ofInt small]
  by_cases zero : n = 0
  · subst zero
    decide +kernel
  · rw [decide_eq_false zero, if_neg Bool.false_ne_true]

/-! ## Words and instants -/

theorem Double.natAbs_toInt_lt (w : BitVec 32) : w.toInt.natAbs < 2 ^ 53 := by
  have low := BitVec.le_toInt w
  have high := BitVec.toInt_lt (x := w)
  omega

/-- A word taken as a number and back is the same word. -/
@[simp] theorem Double.toWord_ofWord (w : BitVec 32) : (ofWord w).toWord = w := by
  rw [toWord, ofWord, truncated?_ofInt (natAbs_toInt_lt w)]
  exact BitVec.ofInt_toInt

theorem Instant.natAbs_millis_lt (i : Instant) : i.millis.natAbs < 2 ^ 53 :=
  Nat.lt_of_le_of_lt i.inRange (by decide)

/-- The milliseconds of a time, written as a numeral, give the time back; an
invalid date stays invalid. -/
theorem Time.ofDouble_toDouble (t : Time) : Time.ofDouble t.toDouble.written = t := by
  cases t with
  | none => rfl
  | some i =>
    rw [toDouble, Double.written_ofInt i.natAbs_millis_lt, ofDouble,
      Double.truncated?_ofInt i.natAbs_millis_lt]
    simp only [ofMillis]
    rw [dif_pos i.inRange]

end RowExpr
