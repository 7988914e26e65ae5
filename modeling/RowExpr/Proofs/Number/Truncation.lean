import RowExpr.Proofs.Number.SignedZero

/-!
The integer part of a number.

Words, code units and cuts of texts are taken from the integer part of a number and from nothing
else (`Double.toWord_eq`). Dropping the fraction keeps it, also where the number is too large to
have a fraction (`Double.truncated?_trunc`), and so does the sign of a zero: numbers that are
numerically the same (`Double.Same`) have the same integer part.
-/

namespace RowExpr

/-- Numerically the same: one number, or two zeros. NaN is the same as itself. -/
def Double.Same (x y : Double) : Prop := x = y ∨ x.isZero = true ∧ y.isZero = true

/-- The integer part of a number, zero for NaN and the infinities. -/
def Double.whole (x : Double) : Int := x.truncated?.getD 0

/-! ## Truncation -/

section Truncation

variable {x y z : Double} {m n : Int}

theorem Double.truncated?_finite (neg : Bool) (rank : Fin rankBound) :
    (finite neg rank).truncated? =
      some
        (if neg then -((quantaOf rank / one : Nat) : Int) else (quantaOf rank / one : Nat)) := by
  have quotient := signed_tdiv neg false (quantaOf rank) one
  rw [Bool.xor_false] at quotient
  exact congrArg some quotient.symm

/-- From `2 ^ 53` on there are no fractions. -/
theorem Double.fractionless_of_large {neg : Bool} {rank : Fin rankBound}
    (large : 2 ^ 53 * one ≤ quantaOf rank) : (finite neg rank).Fractionless := by
  obtain ⟨k, m, -, -, high, -, quanta⟩ := rank_split rank
  have exponent : places ≤ k := by
    refine Nat.le_of_not_lt fun low => ?_
    have small : 2 ^ k ≤ one := by
      rw [one_eq]
      exact Nat.pow_le_pow_right Nat.two_pos (Nat.le_of_lt low)
    have below : m * 2 ^ k < 2 ^ 53 * one :=
      Nat.lt_of_le_of_lt (Nat.mul_le_mul_left m small) (Nat.mul_lt_mul_of_pos_right high one_pos)
    rw [quanta] at large
    exact absurd below (Nat.not_lt.2 large)
  show one ∣ quantaOf rank
  rw [quanta, one_eq]
  exact Nat.dvd_mul_left_of_dvd (Nat.pow_dvd_pow 2 exponent) m

theorem Double.truncated?_trunc (x : Double) : x.trunc.truncated? = x.truncated? := by
  cases x with
  | nan => rfl
  | infinite neg => rfl
  | finite neg rank =>
    rcases Nat.lt_or_ge (quantaOf rank / one) (2 ^ 53) with small | large
    · have kept := toInt?_ofRatio small Nat.one_pos neg
      rw [Nat.mul_one] at kept
      rw [truncated?_finite, trunc]
      exact truncated?_of_toInt? kept
    · have fractionless :=
        @fractionless_of_large neg rank ((Nat.le_div_iff_mul_le one_pos).1 large)
      rw [fractionless.trunc_eq]

theorem Double.whole_trunc (x : Double) : x.trunc.whole = x.whole := by
  rw [whole, whole, truncated?_trunc]

theorem Double.whole_of_toInt? (integer : x.toInt? = some n) : x.whole = n := by
  rw [whole, truncated?_of_toInt? integer, Option.getD_some]

theorem Double.whole_ofInt (small : n.natAbs < 2 ^ 53) : (ofInt n).whole = n :=
  whole_of_toInt? (toInt?_ofInt small)

theorem Double.toWord_eq (x : Double) : x.toWord = BitVec.ofInt 32 x.whole := by
  rw [toWord, whole]
  cases x.truncated? with
  | none => rfl
  | some n => rfl

end Truncation

/-! ## Numbers that are numerically the same -/

section Same

variable {x y z : Double} {n : Int}

theorem Double.Same.refl (x : Double) : x.Same x := .inl rfl

theorem Double.Same.symm (same : x.Same y) : y.Same x := by
  rcases same with rfl | ⟨left, right⟩
  · exact .refl x
  · exact .inr ⟨right, left⟩

theorem Double.Same.trans (same : x.Same y) (same' : y.Same z) : x.Same z := by
  rcases same with rfl | ⟨left, middle⟩
  · exact same'
  · rcases same' with rfl | ⟨-, right⟩
    · exact .inr ⟨left, middle⟩
    · exact .inr ⟨left, right⟩

theorem Double.isZero_iff : x.isZero = true ↔ ∃ neg, x = zero neg := by
  cases x with
  | nan => exact iff_of_false Bool.false_ne_true (not_exists.2 fun _ => nan_ne_zero)
  | infinite neg => exact iff_of_false Bool.false_ne_true (not_exists.2 fun _ => infinite_ne_zero)
  | finite neg rank =>
    constructor
    · intro none
      exact ⟨neg, finite_eq_zero.2 ⟨rfl, beq_iff_eq.1 none⟩⟩
    · intro zero
      obtain ⟨_, same⟩ := zero
      exact beq_iff_eq.2 (finite_eq_zero.1 same).2

theorem Double.trunc_zero (neg : Bool) : (zero neg).trunc = zero neg :=
  (fractionless_of_toInt? (toInt?_zero neg)).trunc_eq

theorem Double.same_zero (neg neg' : Bool) : (zero neg).Same (zero neg') :=
  .inr ⟨isZero_iff.2 ⟨neg, rfl⟩, isZero_iff.2 ⟨neg', rfl⟩⟩

theorem Double.same_of_eq (equal : x.eq y = true) : x.Same y := by
  cases x with
  | nan => cases equal
  | infinite neg =>
    cases y with
    | nan => cases equal
    | infinite neg' => exact .inl (beq_iff_eq.1 equal)
    | finite neg' rank' => cases equal
  | finite neg rank =>
    cases y with
    | nan => cases equal
    | infinite neg' => cases equal
    | finite neg' rank' =>
      obtain ⟨ranks, signs⟩ := (Bool.and_eq_true _ _).mp equal
      obtain rfl := beq_iff_eq.1 ranks
      rcases (Bool.or_eq_true _ _).mp signs with sameSign | zero
      · exact .inl (by rw [beq_iff_eq.1 sameSign])
      · exact .inr ⟨zero, zero⟩

/-- A function that keeps both zeros keeps sameness. -/
theorem Double.Same.map {f : Double → Double} (zeros : ∀ neg, f (zero neg) = zero neg)
    (same : x.Same y) : (f x).Same (f y) := by
  rcases same with rfl | ⟨left, right⟩
  · exact .refl (f x)
  · obtain ⟨neg, rfl⟩ := isZero_iff.1 left
    obtain ⟨neg', rfl⟩ := isZero_iff.1 right
    rw [zeros, zeros]
    exact same_zero neg neg'

theorem Double.Same.truncated? (same : x.Same y) : x.truncated? = y.truncated? := by
  rcases same with rfl | ⟨left, right⟩
  · rfl
  · obtain ⟨neg, rfl⟩ := isZero_iff.1 left
    obtain ⟨neg', rfl⟩ := isZero_iff.1 right
    rw [truncated?_of_toInt? (toInt?_zero neg), truncated?_of_toInt? (toInt?_zero neg')]

theorem Double.Same.whole (same : x.Same y) : x.whole = y.whole := by
  rw [Double.whole, Double.whole, same.truncated?]

/-- Numbers that are one integer are the same. -/
theorem Double.same_of_toInt? (left : x.toInt? = some n) (right : y.toInt? = some n) :
    x.Same y := by
  by_cases zero : n = 0
  · refine .inr ⟨?_, ?_⟩
    · rw [isZero_of_toInt? left, decide_eq_true_iff]
      exact zero
    · rw [isZero_of_toInt? right, decide_eq_true_iff]
      exact zero
  · obtain ⟨neg, rank, rfl, quanta, sign⟩ := of_toInt? left
    obtain ⟨neg', rank', rfl, quanta', sign'⟩ := of_toInt? right
    have sameRank : rank.val = rank'.val := by
      rcases Nat.lt_trichotomy rank.val rank'.val with less | same | greater
      · have := quantaOf_lt less
        omega
      · exact same
      · have := quantaOf_lt greater
        omega
    have sameSign : neg = neg' := by
      cases neg <;> cases neg'
      · rfl
      · simp only [if_true, Bool.false_eq_true, if_false] at sign sign'
        omega
      · simp only [if_true, Bool.false_eq_true, if_false] at sign sign'
        omega
      · rfl
    exact .inl (by rw [sameSign, Fin.ext sameRank])

end Same

end RowExpr
