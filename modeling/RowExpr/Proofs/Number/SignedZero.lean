import RowExpr.Proofs.Number.Division
import RowExpr.Proofs.Number.Nearest

/-!
The zero with a minus sign.

For each operation, the operands for which it gives the negative zero. Sums and differences
hardly ever do; products, quotients and remainders do so if they are zero and their sign is
negative. Products of numbers without a fraction do not become zero by rounding, and a
quotient whose fraction is dropped is zero exactly if the dividend is smaller than the
divisor, however it has been rounded (`Double.trunc_div_eq_negativeZero`).
-/

namespace RowExpr

/-! ## Kinds of numbers -/

/-- Zero with a minus sign. -/
abbrev Double.negativeZero : Double := zero true

def Double.isFinite : Double → Bool
  | .finite _ _ => true
  | _ => false

def Double.isInfinite : Double → Bool
  | .infinite _ => true
  | _ => false

/-- The number has a minus sign; zeros and infinities have signs, NaN has none. -/
def Double.isNegative : Double → Bool
  | .nan => false
  | .infinite neg => neg
  | .finite neg _ => neg

/-- A number that has no fraction: if it is finite, it is an integer. -/
def Double.Fractionless : Double → Prop
  | .finite _ rank => one ∣ quantaOf rank
  | _ => True

/-- One integer is a multiple of another one that is not zero. -/
def Double.IsMultipleOf (x y : Double) : Prop :=
  ∃ m n : Int, x.toInt? = some m ∧ y.toInt? = some n ∧ n ≠ 0 ∧ n ∣ m

/-! ## Zeros -/

section Zeros

variable {s t : Bool} {num den rank : Nat}

theorem Double.finite_eq_zero {rank : Fin rankBound} :
    Double.finite s rank = zero t ↔ s = t ∧ rank.val = 0 := by
  rw [zero, Double.finite.injEq, Fin.ext_iff]

theorem Double.toSingle_zero (neg : Bool) : (zero neg).toSingle = zero neg := by
  cases neg <;> decide +kernel

theorem Double.nan_ne_zero : nan ≠ zero t := by
  intro same
  cases same

theorem Double.infinite_ne_zero : infinite s ≠ zero t := by
  intro same
  cases same

theorem Double.ofRank_eq_zero : ofRank s rank = zero t ↔ s = t ∧ rank = 0 := by
  unfold ofRank
  split
  · exact finite_eq_zero
  · next beyond =>
    refine ⟨fun same => absurd same infinite_ne_zero, fun both => absurd ?_ beyond⟩
    rw [both.2]
    decide

/-- A quotient by at most one is rounded to zero only if it is zero. -/
theorem Double.nearestRank_eq_zero (pos : 0 < den) (most : den ≤ one) :
    nearestRank num den = 0 ↔ num = 0 := by
  constructor
  · intro none
    refine Nat.eq_zero_of_not_pos fun some => ?_
    have first : quantaOf 1 * den ≤ num * one := by
      rw [show quantaOf 1 = 1 by decide, Nat.one_mul]
      exact Nat.le_trans most (Nat.le_mul_of_pos_left _ some)
    have := le_nearestRank pos first
    omega
  · rintro rfl
    exact Nat.le_zero.1 (nearestRank_le pos (by rw [Nat.zero_mul]; exact Nat.zero_le _))

theorem Double.ofRatio_eq_zero (pos : 0 < den) (most : den ≤ one) :
    ofRatio s num den = zero t ↔ s = t ∧ num = 0 := by
  rw [ofRatio, ofRank_eq_zero, nearestRank_eq_zero pos most]

theorem Double.ofInt_zero : ofInt 0 = zero false :=
  (ofRatio_eq_zero Nat.one_pos one_pos).2 ⟨rfl, rfl⟩

theorem Double.ofInt_ne_negativeZero (n : Int) : ofInt n ≠ negativeZero := by
  rw [ofInt, ne_eq, ofRatio_eq_zero Nat.one_pos one_pos, decide_eq_true_eq, Int.natAbs_eq_zero]
  omega

theorem Double.written_ne_negativeZero (x : Double) : x.written ≠ negativeZero := by
  unfold written
  split
  · exact nofun
  · rintro rfl
    contradiction

end Zeros

/-! ## Numbers without a fraction -/

section Fractionless

variable {x y : Double}

theorem Double.fractionless_of_toInt? {n : Int} (whole : x.toInt? = some n) : x.Fractionless := by
  obtain ⟨neg, rank, rfl, quanta, -⟩ := of_toInt? whole
  exact ⟨n.natAbs, quanta.trans (Nat.mul_comm _ _)⟩

/-- Rounding a natural number leaves it without a fraction. -/
theorem Double.one_dvd_nearestRank (m : Nat) : one ∣ quantaOf (nearestRank m 1) := by
  rw [quantaOf_nearestRank m Nat.one_pos, one_eq]
  rcases Nat.le_total places (binade m 1) with high | low
  · exact Nat.dvd_mul_left_of_dvd (Nat.pow_dvd_pow 2 high) _
  · have split : m * one = m * 2 ^ (places - binade m 1) * 2 ^ binade m 1 := by
      rw [Nat.mul_assoc, ← Nat.pow_add, Nat.sub_add_cancel low, one_eq]
    rw [significand, Nat.one_mul, split, roundQuotient_mul _ (Nat.two_pow_pos _), ← split, one_eq]
    exact Nat.dvd_mul_left _ _

/-- A whole quotient of natural numbers, as a natural number. -/
theorem Double.ofRatio_mul_den (neg : Bool) (m : Nat) {den : Nat} (pos : 0 < den) :
    ofRatio neg (m * den) den = ofRatio neg m 1 := by
  have scaled := ofRatio_mul_right neg m 1 pos
  rwa [Nat.one_mul] at scaled

theorem Double.fractionless_ofRatio (neg : Bool) (m : Nat) : (ofRatio neg m 1).Fractionless := by
  unfold ofRatio ofRank
  split
  · exact one_dvd_nearestRank m
  · trivial

theorem Double.fractionless_ofQuotient (neg : Bool) {k : Int} {den : Nat} (pos : 0 < den) :
    (ofQuotient neg (k * den) den).Fractionless := by
  unfold ofQuotient
  split
  · exact fractionless_of_toInt? (toInt?_zero neg)
  · rw [Int.natAbs_mul, Int.natAbs_natCast, ofRatio_mul_den _ _ pos]
    exact fractionless_ofRatio _ _

/-- A number without a fraction keeps its value if the fraction is dropped. -/
theorem Double.Fractionless.trunc_eq (whole : x.Fractionless) : x.trunc = x := by
  cases x with
  | nan => rfl
  | infinite neg => rfl
  | finite neg rank =>
    have exact : quantaOf rank / one * one = quantaOf rank * 1 := by
      rw [Nat.div_mul_cancel whole, Nat.mul_one]
    rw [trunc, ofRatio, nearestRank_eq_of_exact Nat.one_pos exact, ofRank, dif_pos rank.isLt]

theorem Double.fractionless_trunc (x : Double) : x.trunc.Fractionless := by
  cases x with
  | nan => trivial
  | infinite neg => trivial
  | finite neg rank => exact fractionless_ofRatio _ _

theorem Double.Fractionless.neg (whole : x.Fractionless) : x.neg.Fractionless := by
  cases x <;> exact whole

theorem Double.Fractionless.abs (whole : x.Fractionless) : x.abs.Fractionless := by
  cases x <;> exact whole

theorem Double.Fractionless.quanta {neg : Bool} {rank : Fin rankBound}
    (whole : (finite neg rank).Fractionless) : quantaOf rank = quantaOf rank / one * one :=
  (Nat.div_mul_cancel whole).symm

theorem Double.Fractionless.quotient_eq_zero {neg : Bool} {rank : Fin rankBound}
    (whole : (finite neg rank).Fractionless) :
    quantaOf rank / one = 0 ↔ (finite neg rank).isZero = true := by
  have zero : (finite neg rank).isZero = true ↔ quantaOf rank = 0 := by
    rw [isZero, beq_iff_eq, quantaOf_eq_zero]
  rw [zero]
  refine ⟨fun none => ?_, fun none => ?_⟩
  · rw [whole.quanta, none, Nat.zero_mul]
  · rw [none, Nat.zero_div]

theorem Double.Fractionless.add (left : x.Fractionless) (right : y.Fractionless) :
    (x.add y).Fractionless := by
  cases x with
  | nan => trivial
  | infinite s =>
    cases y with
    | nan => trivial
    | infinite t =>
      rw [Double.add]
      split <;> trivial
    | finite t q => trivial
  | finite s r =>
    cases y with
    | nan => trivial
    | infinite t => trivial
    | finite t q =>
      rw [Double.add, left.quanta, right.quanta, Int.natCast_mul, Int.natCast_mul,
        signed_mul, signed_mul, ← Int.add_mul]
      exact fractionless_ofQuotient _ one_pos

theorem Double.Fractionless.sub (left : x.Fractionless) (right : y.Fractionless) :
    (x.sub y).Fractionless :=
  left.add right.neg

theorem Double.Fractionless.mul (left : x.Fractionless) (right : y.Fractionless) :
    (x.mul y).Fractionless := by
  cases x with
  | nan => trivial
  | infinite s =>
    cases y with
    | nan => trivial
    | infinite t => trivial
    | finite t q =>
      rw [Double.mul]
      split <;> trivial
  | finite s r =>
    cases y with
    | nan => trivial
    | infinite t =>
      rw [Double.mul]
      split <;> trivial
    | finite t q =>
      rw [Double.mul, left.quanta, right.quanta, Nat.mul_mul_mul_comm,
        ofRatio_mul_den _ _ (Nat.mul_pos one_pos one_pos)]
      exact fractionless_ofRatio _ _

theorem Double.Fractionless.rem (left : x.Fractionless) (right : y.Fractionless) :
    (x.rem y).Fractionless := by
  cases x with
  | nan => trivial
  | infinite s => cases y <;> trivial
  | finite s r =>
    cases y with
    | nan => trivial
    | infinite t => exact left
    | finite t q =>
      rw [Double.rem]
      split
      · trivial
      · rw [left.quanta, right.quanta, Nat.mul_mod_mul_right, ofRatio_mul_den _ _ one_pos]
        exact fractionless_ofRatio _ _

end Fractionless

/-! ## Operations that give the negative zero -/

section Operations

variable {x y : Double}

theorem Double.neg_eq_negativeZero : x.neg = negativeZero ↔ x = zero false := by
  cases x with
  | nan => exact iff_of_false nan_ne_zero nan_ne_zero
  | infinite s => exact iff_of_false infinite_ne_zero infinite_ne_zero
  | finite s r => rw [Double.neg, finite_eq_zero, finite_eq_zero, Bool.not_eq_true']

theorem Double.abs_ne_negativeZero : x.abs ≠ negativeZero := by
  cases x with
  | nan => exact nan_ne_zero
  | infinite s => exact infinite_ne_zero
  | finite s r =>
    intro same
    cases (finite_eq_zero.1 same).1

/-- A sum is the negative zero only if both summands are. -/
theorem Double.add_eq_negativeZero :
    x.add y = negativeZero ↔ x = negativeZero ∧ y = negativeZero := by
  cases x with
  | nan => exact iff_of_false nan_ne_zero fun both => nan_ne_zero both.1
  | infinite s =>
    refine ⟨fun sum => ?_, fun both => absurd both.1 infinite_ne_zero⟩
    cases y with
    | nan => cases sum
    | infinite t =>
      rw [Double.add] at sum
      split at sum <;> cases sum
    | finite t q => cases sum
  | finite s r =>
    cases y with
    | nan => exact iff_of_false nan_ne_zero fun both => nan_ne_zero both.2
    | infinite t => exact iff_of_false infinite_ne_zero fun both => infinite_ne_zero both.2
    | finite t q =>
      have zeros : (s && t) = true ∧ (if s then -(quantaOf r : Int) else quantaOf r) +
          (if t then -(quantaOf q : Int) else quantaOf q) = 0 ↔ (s = true ∧ r.val = 0) ∧
          t = true ∧ q.val = 0 := by
        rw [Bool.and_eq_true, ← @quantaOf_eq_zero r, ← @quantaOf_eq_zero q]
        constructor
        · rintro ⟨⟨rfl, rfl⟩, none⟩
          rw [if_pos rfl, if_pos rfl] at none
          exact ⟨⟨rfl, by omega⟩, rfl, by omega⟩
        · rintro ⟨⟨rfl, none⟩, rfl, none'⟩
          rw [none, none']
          exact ⟨⟨rfl, rfl⟩, rfl⟩
      rw [finite_eq_zero, finite_eq_zero, ← zeros, Double.add, ofQuotient]
      generalize (if s then -(quantaOf r : Int) else quantaOf r) +
        (if t then -(quantaOf q : Int) else quantaOf q) = sum
      by_cases none : sum = 0
      · rw [if_pos none, zero, finite_eq_zero]
        simp [none]
      · rw [if_neg none, ofRatio_eq_zero one_pos (Nat.le_refl _), Int.natAbs_eq_zero]
        simp [none]

theorem Double.sub_eq_negativeZero :
    x.sub y = negativeZero ↔ x = negativeZero ∧ y = zero false := by
  rw [Double.sub, add_eq_negativeZero, neg_eq_negativeZero]

theorem Double.xor_eq_true {s t : Bool} : (s ^^ t) = true ↔ s ≠ t := by
  cases s <;> cases t <;> decide

/-- A product of numbers without a fraction is zero only if a factor is. -/
theorem Double.mul_eq_negativeZero (left : x.Fractionless) (right : y.Fractionless) :
    x.mul y = negativeZero ↔
      x.isFinite = true ∧ y.isFinite = true ∧ (x.isZero = true ∨ y.isZero = true) ∧
      x.isNegative ≠ y.isNegative := by
  cases x with
  | nan => exact iff_of_false nan_ne_zero fun all => Bool.false_ne_true all.1
  | infinite s =>
    refine ⟨fun product => ?_, fun all => absurd all.1 Bool.false_ne_true⟩
    cases y with
    | nan => cases product
    | infinite t => cases product
    | finite t q =>
      rw [Double.mul] at product
      split at product <;> cases product
  | finite s r =>
    cases y with
    | nan => exact iff_of_false nan_ne_zero fun all => Bool.false_ne_true all.2.1
    | infinite t =>
      refine ⟨fun product => ?_, fun all => absurd all.2.1 Bool.false_ne_true⟩
      rw [Double.mul] at product
      split at product <;> cases product
    | finite t q =>
      rw [Double.mul, left.quanta, right.quanta, Nat.mul_mul_mul_comm,
        ofRatio_mul_den _ _ (Nat.mul_pos one_pos one_pos), ofRatio_eq_zero Nat.one_pos one_pos,
        Nat.mul_eq_zero, left.quotient_eq_zero, right.quotient_eq_zero, xor_eq_true, and_comm]
      exact ⟨fun same => ⟨rfl, rfl, same⟩, fun all => all.2.2⟩

theorem Double.finite_isMultipleOf {s t : Bool} {r q : Fin rankBound}
    (left : (finite s r).Fractionless) (right : (finite t q).Fractionless) (some : q.val ≠ 0) :
    (finite s r).IsMultipleOf (finite t q) ↔ quantaOf r % quantaOf q = 0 := by
  have dividend := @toInt?_finite s r _ left.quanta
  have divisor := @toInt?_finite t q _ right.quanta
  have signed (u : Bool) (k : Nat) : (if u then -(k : Int) else k).natAbs = k := by
    cases u <;> simp
  have nonzero : quantaOf q / one ≠ 0 := fun none =>
    some (by simpa [isZero] using right.quotient_eq_zero.1 none)
  have whole : quantaOf r % quantaOf q = 0 ↔ quantaOf q / one ∣ quantaOf r / one := by
    rw [← Nat.dvd_iff_mod_eq_zero, Nat.dvd_div_iff_mul_dvd left, Nat.mul_div_cancel' right]
  rw [whole]
  constructor
  · rintro ⟨m, n, same, same', -, divides⟩
    cases dividend.symm.trans same
    cases divisor.symm.trans same'
    have sizes := Int.natAbs_dvd_natAbs.2 divides
    rwa [signed, signed] at sizes
  · intro divides
    refine ⟨_, _, dividend, divisor, fun none => nonzero ?_, Int.natAbs_dvd_natAbs.1 ?_⟩
    · rw [← signed t (quantaOf q / one), none, Int.natAbs_zero]
    · rwa [signed, signed]

/-- A remainder is zero if the dividend is a multiple of the divisor, and has the sign of the
dividend. -/
theorem Double.rem_eq_negativeZero (left : x.Fractionless) (right : y.Fractionless) :
    x.rem y = negativeZero ↔
      x.isNegative = true ∧ (x.IsMultipleOf y ∨ x.isZero = true ∧ y.isInfinite = true) := by
  cases x with
  | nan => exact iff_of_false nan_ne_zero fun all => Bool.false_ne_true all.1
  | infinite s =>
    refine ⟨fun rest => ?_, ?_⟩
    · cases y <;> cases rest
    · rintro ⟨-, ⟨m, n, whole, -⟩ | ⟨zero, -⟩⟩
      · cases whole
      · cases zero
  | finite s r =>
    cases y with
    | nan =>
      refine ⟨fun rest => absurd rest nan_ne_zero, ?_⟩
      rintro ⟨-, ⟨m, n, -, whole, -⟩ | ⟨-, infinite⟩⟩
      · cases whole
      · cases infinite
    | infinite t =>
      rw [Double.rem, finite_eq_zero]
      refine ⟨fun rest => ⟨rest.1, .inr ⟨beq_iff_eq.2 rest.2, rfl⟩⟩, ?_⟩
      rintro ⟨sign, ⟨m, n, -, whole, -⟩ | ⟨zero, -⟩⟩
      · cases whole
      · exact ⟨sign, beq_iff_eq.1 zero⟩
    | finite t q =>
      by_cases first : q.val = 0
      · rw [Double.rem, if_pos first]
        refine ⟨fun rest => absurd rest nan_ne_zero, ?_⟩
        rintro ⟨-, ⟨m, n, -, whole, nonzero, -⟩ | ⟨-, infinite⟩⟩
        · have zero := isZero_of_toInt? whole
          rw [isZero, first, decide_eq_false nonzero] at zero
          cases zero
        · cases infinite
      · rw [Double.rem, if_neg first, ofRatio_eq_zero one_pos (Nat.le_refl _),
          finite_isMultipleOf left right first]
        refine and_congr_right fun _ =>
          ⟨Or.inl, fun either => either.resolve_right fun never => ?_⟩
        exact Bool.false_ne_true never.2

/-! ### Quotients -/

/-- The rank of one. -/
def Double.unitRank : Nat := (places - 51) * 2 ^ 52

theorem Double.quantaOf_unitRank : quantaOf unitRank = one := by
  have start : unitRank = (places - 52) * 2 ^ 52 + 2 ^ 52 := by decide
  rw [start, quantaOf_shift (.inr (Nat.le_refl _)) (by decide), ← Nat.pow_add, one_eq]
  congr 1

/-- The step below one. -/
theorem Double.step_below_unitRank : one = 2 ^ 53 * step (unitRank - 1) := by
  have binade : (unitRank - 1) / 2 ^ 52 - 1 = places - 53 := by decide
  rw [step, binade, ← Nat.pow_add, one_eq]
  congr 1

/-- The quotient of two magnitudes is rounded to less than one exactly if the dividend is the
smaller of them. -/
theorem Double.nearestRank_lt_unitRank {r q : Nat} (some : q ≠ 0) :
    nearestRank (quantaOf r) (quantaOf q) < unitRank ↔ r < q := by
  have pos : 0 < quantaOf q := Nat.pos_of_ne_zero (mt quantaOf_eq_zero.1 some)
  constructor
  · intro less
    refine Nat.lt_of_not_le fun le => Nat.not_le.2 less (le_nearestRank pos ?_)
    rw [quantaOf_unitRank, Nat.mul_comm]
    exact Nat.mul_le_mul_right one (quantaOf_mono le)
  · intro less
    obtain ⟨p, rfl⟩ := Nat.exists_eq_add_one.2 (Nat.zero_lt_of_lt less)
    have below : quantaOf (unitRank - 1) + step (unitRank - 1) = one := by
      rw [← quantaOf_succ, Nat.sub_add_cancel (by decide), quantaOf_unitRank]
    have near : step (unitRank - 1) * quantaOf (p + 1) ≤ step p * one := calc
      step (unitRank - 1) * quantaOf (p + 1) ≤ step (unitRank - 1) * (2 ^ 53 * step p) :=
        Nat.mul_le_mul_left _ (quantaOf_succ_le p)
      _ = step p * one := by
        rw [step_below_unitRank, Nat.mul_comm, Nat.mul_comm (2 ^ 53) (step p), Nat.mul_assoc]
    have split : quantaOf (unitRank - 1) * quantaOf (p + 1) + step
      (unitRank - 1) * quantaOf (p + 1) =
        quantaOf p * one + step p * one := by
      rw [← Nat.add_mul, below, ← Nat.add_mul, ← quantaOf_succ, Nat.mul_comm]
    have least : quantaOf r * one ≤ quantaOf p * one :=
      Nat.mul_le_mul_right one (quantaOf_mono (Nat.le_of_lt_succ less))
    refine Nat.lt_of_le_of_lt (nearestRank_le pos ?_) (show unitRank - 1 < unitRank by decide)
    omega

theorem Double.trunc_ofRank_eq_zero {s t : Bool} {rank : Nat} :
    (ofRank s rank).trunc = zero t ↔ s = t ∧ rank < unitRank := by
  rw [← quantaOf_lt_iff, quantaOf_unitRank]
  unfold ofRank
  split
  · rw [trunc, ofRatio_eq_zero Nat.one_pos one_pos, Nat.div_eq_zero_iff_lt one_pos]
  · next beyond =>
    refine ⟨fun none => absurd none infinite_ne_zero, fun both => ?_⟩
    have small := both.2
    have large : quantaOf unitRank ≤ quantaOf rank :=
      quantaOf_mono (Nat.le_trans (show unitRank ≤ rankBound by decide) (Nat.le_of_not_lt beyond))
    rw [quantaOf_unitRank] at large
    omega

/-- A quotient whose fraction is dropped is zero exactly if the dividend is the smaller in
magnitude. -/
theorem Double.trunc_div_eq_negativeZero :
    (x.div y).trunc = negativeZero ↔ x.isNegative ≠ y.isNegative ∧ x.abs.lt y.abs = true := by
  cases x with
  | nan => exact iff_of_false nan_ne_zero fun both => Bool.false_ne_true both.2
  | infinite s =>
    cases y with
    | nan => exact iff_of_false nan_ne_zero fun both => Bool.false_ne_true both.2
    | infinite t => exact iff_of_false nan_ne_zero fun both => Bool.false_ne_true both.2
    | finite t q => exact iff_of_false infinite_ne_zero fun both => Bool.false_ne_true both.2
  | finite s r =>
    cases y with
    | nan => exact iff_of_false nan_ne_zero fun both => Bool.false_ne_true both.2
    | infinite t =>
      rw [Double.div, (fractionless_of_toInt? (toInt?_zero _)).trunc_eq, zero,
        finite_eq_zero, xor_eq_true]
      exact ⟨fun both => ⟨both.1, rfl⟩, fun both => ⟨both.1, rfl⟩⟩
    | finite t q =>
      have order : (finite s r).abs.lt (finite t q).abs = true ↔ r.val < q.val := by
        rw [Double.abs, Double.abs, Double.lt, decide_eq_true_eq, ← quantaOf_lt_iff]
        exact Int.ofNat_lt
      rw [order, Double.div]
      split
      · next first =>
        refine ⟨fun quotient => ?_, fun both => ?_⟩
        · split at quotient <;> cases quotient
        · have less := both.2
          omega
      · next some =>
        rw [ofRatio, trunc_ofRank_eq_zero, nearestRank_lt_unitRank some, xor_eq_true]
        exact Iff.rfl

end Operations

end RowExpr
