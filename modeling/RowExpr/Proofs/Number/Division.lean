import RowExpr.Proofs.Number.Rounding

/-!
Division of integers among the floating-point numbers.

The quotient of two integers of fewer than 54 bits is rounded, but never as far as the next
integer: a quotient that is not whole misses the next integer by at least the inverse of the
divisor, and that is more than half of the step to which it is rounded. So its whole part is
that of the exact quotient (`Double.toInt?_trunc_div`). A remainder is not rounded at all
(`Double.toInt?_rem`).
-/

namespace RowExpr

/-! ## Quotients of integers -/

section Quotient

variable {a b : Nat}

/-- A quotient of numbers below `2 ^ 53` is rounded to a part of one, and to less than half of
what it can miss the next integer by. -/
theorem Double.binade_of_small (pos : 0 < b) (smallLeft : a < 2 ^ 53) (smallRight : b < 2 ^ 53) :
    binade a b ≤ places ∧ b * 2 ^ binade a b < 2 * one := by
  rcases Nat.eq_zero_or_pos (binade a b) with first | above
  · rw [first, one_eq, places]
    refine ⟨Nat.zero_le _, ?_⟩
    have := Nat.pow_le_pow_right Nat.two_pos (show 53 ≤ 1074 by decide)
    omega
  · have reached := (Nat.le_div_iff_mul_le pos).1 (binade_le_quanta above)
    have bound : 2 ^ 52 * (b * 2 ^ binade a b) < 2 ^ 52 * (2 * one) := calc
      2 ^ 52 * (b * 2 ^ binade a b) = 2 ^ (binade a b + 52) * b := by
        rw [Nat.add_comm, Nat.pow_add, Nat.mul_assoc, Nat.mul_comm (2 ^ binade a b)]
      _ ≤ a * one := reached
      _ < 2 ^ 53 * one := Nat.mul_lt_mul_of_pos_right smallLeft one_pos
      _ = 2 ^ 52 * (2 * one) := by rw [← Nat.mul_assoc, ← Nat.pow_succ]
    have less := Nat.lt_of_mul_lt_mul_left bound
    refine ⟨?_, less⟩
    have power : 2 ^ binade a b < 2 ^ (places + 1) := calc
      2 ^ binade a b ≤ b * 2 ^ binade a b := Nat.le_mul_of_pos_left _ pos
      _ < 2 * one := less
      _ = 2 ^ (places + 1) := by rw [one_eq, Nat.pow_succ']
    have := (Nat.pow_lt_pow_iff_right (by decide)).1 power
    omega

/-- Rounding a quotient of numbers below `2 ^ 53` does not change its whole part. -/
theorem Double.quantaOf_nearestRank_div (pos : 0 < b) (smallLeft : a < 2 ^ 53)
    (smallRight : b < 2 ^ 53) : quantaOf (nearestRank a b) / one = a / b := by
  obtain ⟨high, margin⟩ := binade_of_small pos smallLeft smallRight
  obtain ⟨part, whole⟩ : ∃ part, one = part * 2 ^ binade a b :=
    ⟨2 ^ (places - binade a b), by rw [← Nat.pow_add, Nat.sub_add_cancel high, one_eq]⟩
  have scaled (m : Nat) : m * part * (b * 2 ^ binade a b) = m * b * one := by
    rw [Nat.mul_mul_mul_comm, ← whole]
  have lower : a / b * part ≤ significand a b := by
    refine le_roundQuotient (Nat.mul_pos pos (Nat.two_pow_pos _)) ?_
    rw [scaled]
    exact Nat.mul_le_mul_right _ (Nat.div_mul_le_self a b)
  have upper : significand a b < (a / b + 1) * part := by
    refine roundQuotient_lt ?_
    have next : (a + 1) * one ≤ (a / b + 1) * b * one :=
      Nat.mul_le_mul_right one (Nat.lt_mul_of_div_lt (Nat.lt_succ_self _) pos)
    rw [scaled]
    rw [Nat.add_mul] at next
    omega
  rw [quantaOf_nearestRank a pos]
  refine Nat.div_eq_of_lt_le ?_ ?_
  · rw [whole, ← Nat.mul_assoc]
    exact Nat.mul_le_mul_right _ lower
  · rw [whole, ← Nat.mul_assoc]
    exact Nat.mul_lt_mul_of_pos_right upper (Nat.two_pow_pos _)

theorem Double.nearestRank_lt (pos : 0 < b) (smallLeft : a < 2 ^ 53) (smallRight : b < 2 ^ 53) :
    nearestRank a b < rankBound := by
  obtain ⟨high, -⟩ := binade_of_small pos smallLeft smallRight
  have significand := @significand_le a b pos
  rw [nearestRank_eq_significand, rankBound_eq]
  rw [places] at high
  omega

/-- The quotient of numbers below `2 ^ 53`, rounded and cut to its whole part, is the whole part
of the exact quotient. -/
theorem Double.trunc_ofRatio (pos : 0 < b) (smallLeft : a < 2 ^ 53) (smallRight : b < 2 ^ 53)
    (neg : Bool) : (ofRatio neg a b).trunc = ofRatio neg (a / b) 1 := by
  rw [ofRatio, ofRank, dif_pos (nearestRank_lt pos smallLeft smallRight), trunc]
  show ofRatio neg (quantaOf (nearestRank a b) / one) 1 = _
  rw [quantaOf_nearestRank_div pos smallLeft smallRight]

end Quotient

/-! ## Operations -/

section Operations

variable {x y : Double} {m n : Int}

theorem Double.quantaOf_eq_zero {rank : Nat} : quantaOf rank = 0 ↔ rank = 0 := by
  rw [quantaOf_eq, Nat.mul_eq_zero]
  have := Nat.two_pow_pos (rank / 2 ^ 52 - 1)
  omega

/-- An integer is zero as a number exactly if it is the integer zero. -/
theorem Double.isZero_of_toInt? (whole : x.toInt? = some n) : x.isZero = decide (n = 0) := by
  obtain ⟨neg, rank, rfl, quanta, -⟩ := of_toInt? whole
  rw [isZero, Bool.beq_eq_decide_eq, decide_eq_decide, ← quantaOf_eq_zero, quanta,
    Nat.mul_eq_zero, Int.natAbs_eq_zero]
  exact or_iff_left (Nat.ne_of_gt one_pos)

theorem Double.signed_tdiv (s t : Bool) (a b : Nat) :
    (if s ^^ t then -((a / b : Nat) : Int) else (a / b : Nat)) =
      (if s then -(a : Int) else a).tdiv (if t then -(b : Int) else b) := by
  cases s <;> cases t
  · exact Int.ofNat_tdiv a b
  · exact (congrArg Neg.neg (Int.ofNat_tdiv a b)).trans (Int.tdiv_neg _ _).symm
  · exact (congrArg Neg.neg (Int.ofNat_tdiv a b)).trans (Int.neg_tdiv _ _).symm
  · rw [if_pos rfl, if_pos rfl, Int.neg_tdiv, Int.tdiv_neg, Int.neg_neg]
    exact Int.ofNat_tdiv a b

theorem Double.signed_tmod (s t : Bool) (a b : Nat) :
    (if s then -((a % b : Nat) : Int) else (a % b : Nat)) =
      (if s then -(a : Int) else a).tmod (if t then -(b : Int) else b) := by
  have positive : (if s then -((a % b : Nat) : Int) else (a % b : Nat)) =
      (if s then -(a : Int) else a).tmod b := by
    cases s
    · exact Int.ofNat_tmod a b
    · exact (congrArg Neg.neg (Int.ofNat_tmod a b)).trans (Int.neg_tmod _ _).symm
  cases t
  · exact positive
  · exact positive.trans (Int.tmod_neg _ _).symm

/-- The quotient of two integers, cut to its whole part. -/
theorem Double.toInt?_trunc_div (left : x.toInt? = some m) (right : y.toInt? = some n)
    (nonzero : n ≠ 0) (smallLeft : m.natAbs < 2 ^ 53) (smallRight : n.natAbs < 2 ^ 53) :
    (x.div y).trunc.toInt? = some (m.tdiv n) := by
  have divisor := isZero_of_toInt? right
  obtain ⟨s, r, rfl, leftQuanta, leftSign⟩ := of_toInt? left
  obtain ⟨t, q, rfl, rightQuanta, rightSign⟩ := of_toInt? right
  have pos : 0 < n.natAbs := Int.natAbs_pos.2 nonzero
  have some : q.val ≠ 0 := by simpa [isZero, nonzero] using divisor
  have whole : m.natAbs / n.natAbs < 2 ^ 53 := Nat.lt_of_le_of_lt (Nat.div_le_self _ _) smallLeft
  rw [Double.div, if_neg some, leftQuanta, rightQuanta, ofRatio_mul_right _ _ _ one_pos,
    trunc_ofRatio pos smallLeft smallRight, ← Nat.mul_one (m.natAbs / n.natAbs),
    toInt?_ofRatio whole Nat.one_pos, signed_tdiv, ← leftSign, ← rightSign]

/-- The remainder of two integers. -/
theorem Double.toInt?_rem (left : x.toInt? = some m) (right : y.toInt? = some n) (nonzero : n ≠ 0)
    (small : m.natAbs < 2 ^ 53) : (x.rem y).toInt? = some (m.tmod n) := by
  have divisor := isZero_of_toInt? right
  obtain ⟨s, r, rfl, leftQuanta, leftSign⟩ := of_toInt? left
  obtain ⟨t, q, rfl, rightQuanta, rightSign⟩ := of_toInt? right
  have some : q.val ≠ 0 := by simpa [isZero, nonzero] using divisor
  have rest : m.natAbs % n.natAbs < 2 ^ 53 := Nat.lt_of_le_of_lt (Nat.mod_le _ _) small
  rw [Double.rem, if_neg some, leftQuanta, rightQuanta, Nat.mul_mod_mul_right,
    toInt?_ofRatio rest one_pos, signed_tmod s t, ← leftSign, ← rightSign]

end Operations

end RowExpr
