import RowExpr.Number.Arithmetic
import RowExpr.Proofs.Number.Integer

/-!
Exact arithmetic on whole numbers.

A floating-point operation computes with exact quanta and rounds once. If both operands
are integers, the exact result is a whole number of ones, and one of fewer than 54 bits
is not rounded: sums, differences and products of integers are then those of the
integers (`Double.toInt?_add`, `Double.toInt?_sub`, `Double.toInt?_mul`). Nothing is
said of the sign of a zero, which is the integer zero whatever its sign.
-/

namespace RowExpr

/-! ## Rounding -/

/-- A common factor of a quotient does not change what it rounds to. -/
theorem Double.roundQuotient_mul_right (num den : Nat) {c : Nat} (pos : 0 < c) :
    roundQuotient (num * c) (den * c) = roundQuotient num den := by
  have below : 2 * (num % den * c) < den * c ↔ 2 * (num % den) < den := by
    rw [← Nat.mul_assoc, Nat.mul_lt_mul_right pos]
  have above : den * c < 2 * (num % den * c) ↔ den < 2 * (num % den) := by
    rw [← Nat.mul_assoc, Nat.mul_lt_mul_right pos]
  unfold roundQuotient
  simp only [Nat.mul_div_mul_right _ _ pos, Nat.mul_mod_mul_right, below, above]

theorem Double.nearestRank_mul_right (num den : Nat) {c : Nat} (pos : 0 < c) :
    nearestRank (num * c) (den * c) = nearestRank num den := by
  rw [nearestRank_eq, nearestRank_eq, Nat.mul_right_comm num c one, Nat.mul_div_mul_right _ _ pos,
    Nat.mul_right_comm den c, roundQuotient_mul_right _ _ pos]

theorem Double.ofRatio_mul_right (neg : Bool) (num den : Nat) {c : Nat} (pos : 0 < c) :
    ofRatio neg (num * c) (den * c) = ofRatio neg num den := by
  rw [ofRatio, ofRatio, nearestRank_mul_right num den pos]

/-- A natural number below `2 ^ 53` is not rounded. -/
theorem Double.ofRatio_of_small {k : Nat} (small : k < 2 ^ 53) (neg : Bool) :
    ∃ rank : Fin rankBound, ofRatio neg k 1 = .finite neg rank ∧ quantaOf rank = k * one := by
  obtain ⟨rank, number, quanta⟩ := ofInt_of_small (show (k : Int).natAbs < 2 ^ 53 from small)
  refine ⟨rank, ?_, quanta⟩
  rw [ofInt, ofRatio, ofRank, Int.natAbs_natCast] at number
  rw [ofRatio, ofRank]
  split at number
  · next bound =>
    cases number
    rw [dif_pos bound]
  · cases number

/-! ## Integers and their quanta -/

theorem Double.signed_mul (neg : Bool) (a b : Int) :
    (if neg then -(a * b) else a * b) = (if neg then -a else a) * b := by
  cases neg with
  | false => rfl
  | true => exact (Int.neg_mul a b).symm

theorem Double.signed_mul_signed (s t : Bool) (a b : Int) :
    (if s ^^ t then -(a * b) else a * b) = (if s then -a else a) * (if t then -b else b) := by
  cases s <;> cases t
  · rfl
  · exact (Int.mul_neg a b).symm
  · exact (Int.neg_mul a b).symm
  · exact (Int.neg_mul_neg a b).symm

theorem Double.toInt?_eq_some {x : Double} {n : Int} :
    x.toInt? = some n ↔ x.quanta? = some (n * one) := by
  unfold toInt?
  cases x.quanta? with
  | none => constructor <;> intro whole <;> cases whole
  | some q =>
    simp only [Option.some.injEq]
    constructor
    · intro whole
      split at whole
      · next divides =>
        cases whole
        exact (Int.ediv_mul_cancel_of_emod_eq_zero divides).symm
      · cases whole
    · rintro rfl
      rw [if_pos (Int.mul_emod_left _ _), Int.mul_ediv_cancel _ one_ne_zero]

/-- A number that is an integer: its magnitude is that of the integer, and so is its sign
unless it is zero. -/
theorem Double.of_toInt? {x : Double} {n : Int} (whole : x.toInt? = some n) :
    ∃ neg rank, x = .finite neg rank ∧ quantaOf rank = n.natAbs * one ∧
      n = if neg then -(n.natAbs : Int) else n.natAbs := by
  rw [toInt?_eq_some] at whole
  cases x with
  | nan => cases whole
  | infinite neg => cases whole
  | finite neg rank =>
    have signed : (if neg then -(quantaOf rank : Int) else quantaOf rank) = n * one :=
      Option.some.inj whole
    have magnitude : quantaOf rank = n.natAbs * one := by
      have := congrArg Int.natAbs signed
      rw [Int.natAbs_mul, Int.natAbs_natCast] at this
      rw [← this]
      split <;> simp
    refine ⟨neg, rank, rfl, magnitude, ?_⟩
    rw [magnitude, Int.natCast_mul, signed_mul] at signed
    exact Int.eq_of_mul_eq_mul_right one_ne_zero signed.symm

theorem Double.toInt?_finite {neg : Bool} {rank : Fin rankBound} {k : Nat}
    (quanta : quantaOf rank = k * one) :
    (Double.finite neg rank).toInt? = some (if neg then -(k : Int) else k) := by
  rw [toInt?_eq_some, quanta?, quanta, Int.natCast_mul, signed_mul]

/-- A whole quotient of natural numbers. -/
theorem Double.toInt?_ofRatio {k den : Nat} (small : k < 2 ^ 53) (pos : 0 < den) (neg : Bool) :
    (ofRatio neg (k * den) den).toInt? = some (if neg then -(k : Int) else k) := by
  have scaled := ofRatio_mul_right neg k 1 pos
  obtain ⟨rank, number, quanta⟩ := ofRatio_of_small small neg
  rw [Nat.one_mul, number] at scaled
  rw [scaled, toInt?_finite quanta]

theorem Double.toInt?_ofInt {n : Int} (small : n.natAbs < 2 ^ 53) : (ofInt n).toInt? = some n :=
  toInt?_eq_some.2 (quanta?_ofInt small)

theorem Double.toInt?_zero (neg : Bool) : (zero neg).toInt? = some 0 := by
  have none : quantaOf 0 = 0 * one := by
    rw [Nat.zero_mul]
    decide
  rw [zero, toInt?_finite none]
  cases neg <;> rfl

/-- A whole quotient of integers. -/
theorem Double.toInt?_ofQuotient {k : Int} {den : Nat} (small : k.natAbs < 2 ^ 53)
    (pos : 0 < den) (neg : Bool) : (ofQuotient neg (k * den) den).toInt? = some k := by
  have unit : (0 : Int) < den := Int.natCast_pos.2 pos
  rw [ofQuotient]
  rcases Int.lt_trichotomy k 0 with below | rfl | above
  · have sign : k * den < 0 := Int.mul_neg_of_neg_of_pos below unit
    rw [if_neg (Int.ne_of_lt sign), decide_eq_true sign, Int.natAbs_mul, Int.natAbs_natCast,
      toInt?_ofRatio small pos, if_pos rfl]
    congr 1
    omega
  · rw [if_pos (Int.zero_mul _), toInt?_zero]
  · have sign : 0 < k * den := Int.mul_pos above unit
    rw [if_neg (Int.ne_of_gt sign), decide_eq_false (Int.lt_asymm sign), Int.natAbs_mul,
      Int.natAbs_natCast, toInt?_ofRatio small pos, if_neg Bool.false_ne_true]
    congr 1
    omega

/-- An integer has no fraction to lose. -/
theorem Double.truncated?_of_toInt? {x : Double} {n : Int} (whole : x.toInt? = some n) :
    x.truncated? = some n := by
  rw [truncated?, toInt?_eq_some.1 whole, Option.map_some, Int.mul_tdiv_cancel _ one_ne_zero]

theorem Double.toWord_of_toInt? {x : Double} {n : Int} (whole : x.toInt? = some n) :
    x.toWord = BitVec.ofInt 32 n := by
  rw [toWord, truncated?_of_toInt? whole]

/-- Writing an integer out loses the sign of a zero at most. -/
theorem Double.toInt?_written {x : Double} {n : Int} (whole : x.toInt? = some n) :
    x.written.toInt? = some n := by
  obtain ⟨neg, rank, rfl, quanta, -⟩ := of_toInt? whole
  rw [written]
  split
  · next zero =>
    have first : rank.val = 0 := by simpa [isZero] using zero
    have none : n.natAbs * one = 0 := by
      rw [← quanta, first]
      decide
    have := (Nat.mul_eq_zero.1 none).resolve_right (Nat.ne_of_gt one_pos)
    rw [toInt?_zero, Int.natAbs_eq_zero.1 this]
  · exact whole

/-! ## Operations -/

section Operations

variable {x y : Double} {m n : Int}

theorem Double.toInt?_neg (whole : x.toInt? = some n) : x.neg.toInt? = some (-n) := by
  obtain ⟨neg, rank, rfl, quanta, sign⟩ := of_toInt? whole
  rw [Double.neg, toInt?_finite quanta]
  cases neg with
  | false =>
    rw [if_neg Bool.false_ne_true] at sign
    rw [Bool.not_false, if_pos rfl, ← sign]
  | true =>
    rw [if_pos rfl] at sign
    rw [Bool.not_true, if_neg Bool.false_ne_true, sign, Int.neg_neg, Int.natAbs_neg,
      Int.natAbs_natCast]

theorem Double.toInt?_abs (whole : x.toInt? = some n) : x.abs.toInt? = some n.natAbs := by
  obtain ⟨neg, rank, rfl, quanta, -⟩ := of_toInt? whole
  rw [Double.abs, toInt?_finite quanta]
  rfl

theorem Double.toInt?_add (left : x.toInt? = some m) (right : y.toInt? = some n)
    (small : (m + n).natAbs < 2 ^ 53) : (x.add y).toInt? = some (m + n) := by
  have leftQuanta := toInt?_eq_some.1 left
  have rightQuanta := toInt?_eq_some.1 right
  obtain ⟨s, r, rfl, -, -⟩ := of_toInt? left
  obtain ⟨t, q, rfl, -, -⟩ := of_toInt? right
  simp only [quanta?, Option.some.injEq] at leftQuanta rightQuanta
  rw [Double.add, leftQuanta, rightQuanta, ← Int.add_mul, toInt?_ofQuotient small one_pos]

theorem Double.toInt?_sub (left : x.toInt? = some m) (right : y.toInt? = some n)
    (small : (m - n).natAbs < 2 ^ 53) : (x.sub y).toInt? = some (m - n) :=
  toInt?_add left (toInt?_neg right) small

theorem Double.toInt?_mul (left : x.toInt? = some m) (right : y.toInt? = some n)
    (small : (m * n).natAbs < 2 ^ 53) : (x.mul y).toInt? = some (m * n) := by
  obtain ⟨s, r, rfl, leftQuanta, leftSign⟩ := of_toInt? left
  obtain ⟨t, q, rfl, rightQuanta, rightSign⟩ := of_toInt? right
  have product : quantaOf r * quantaOf q = (m * n).natAbs * (one * one) := by
    rw [leftQuanta, rightQuanta, Int.natAbs_mul, Nat.mul_mul_mul_comm]
  rw [Double.mul, product, toInt?_ofRatio small (Nat.mul_pos one_pos one_pos), Int.natAbs_mul,
    Int.natCast_mul]
  rw [signed_mul_signed, ← leftSign, ← rightSign]

end Operations

end RowExpr
