import RowExpr.Proofs.Number.Exact

/-!
Rounding of quotients.

`Double.roundQuotient` gives the nearest integer, so it passes no integer that the quotient
does not pass. The number nearest to a quotient is found in a binade, by rounding to a
significand of at most 53 bits; its quanta are that significand, shifted by the binade
(`Double.quantaOf_nearestRank`).
-/

namespace RowExpr

/-! ## Nearest integers -/

section Nearest

variable {num den m : Nat}

theorem Double.div_le_roundQuotient (num den : Nat) : num / den ≤ roundQuotient num den := by
  unfold roundQuotient
  dsimp only
  split
  · exact Nat.le_refl _
  · split <;> omega

/-- An integer that the quotient reaches is reached by the nearest integer. -/
theorem Double.le_roundQuotient (pos : 0 < den) (reached : m * den ≤ num) :
    m ≤ roundQuotient num den :=
  Nat.le_trans ((Nat.le_div_iff_mul_le pos).2 reached) (div_le_roundQuotient num den)

/-- The nearest integer is at most half above the quotient. -/
theorem Double.roundQuotient_mul_le (num den : Nat) :
    2 * (roundQuotient num den * den) ≤ 2 * num + den := by
  have split : num / den * den + num % den = num := Nat.div_add_mod' num den
  unfold roundQuotient
  dsimp only
  split
  · omega
  · split
    · rw [Nat.add_mul]
      omega
    · -- A tie: what is added to the quotient is one or nothing.
      have extra : num / den % 2 * den ≤ 1 * den := Nat.mul_le_mul_right den (by omega)
      rw [Nat.add_mul]
      omega

/-- An integer that is more than half above the quotient is not reached by the nearest integer. -/
theorem Double.roundQuotient_lt (above : 2 * num + den < 2 * (m * den)) :
    roundQuotient num den < m := by
  have near := roundQuotient_mul_le num den
  exact Nat.lt_of_mul_lt_mul_right (show roundQuotient num den * den < m * den by omega)

/-- An integer that the quotient does not exceed is not exceeded by the nearest integer. -/
theorem Double.roundQuotient_le (pos : 0 < den) (below : num ≤ m * den) :
    roundQuotient num den ≤ m := by
  have next : (m + 1) * den = m * den + den := Nat.succ_mul m den
  exact Nat.le_of_lt_succ (roundQuotient_lt (show 2 * num + den < 2 * ((m + 1) * den) by omega))

end Nearest

/-! ## Nearest numbers -/

section Rank

variable {num den : Nat}

/-- The binade in which a quotient is rounded: the number of bits that its whole quanta
have beyond 53. -/
def Double.binade (num den : Nat) : Nat := (num * one / den).log2 - 52

/-- The significand of a quotient: its quanta, rounded in its binade. -/
def Double.significand (num den : Nat) : Nat :=
  roundQuotient (num * one) (den * 2 ^ binade num den)

theorem Double.nearestRank_eq_significand (num den : Nat) :
    nearestRank num den = binade num den * 2 ^ 52 + significand num den :=
  nearestRank_eq num den

/-- Ranks from the start of a binade to its end, both included. -/
theorem Double.quantaOf_shift {k m : Nat} (low : k = 0 ∨ 2 ^ 52 ≤ m) (high : m ≤ 2 ^ 53) :
    quantaOf (k * 2 ^ 52 + m) = m * 2 ^ k := by
  rcases Nat.lt_or_ge m (2 ^ 53) with below | full
  · rcases Nat.lt_or_ge m (2 ^ 52) with small | normal
    · obtain rfl := low.resolve_right (Nat.not_le.2 small)
      have first : (0 * 2 ^ 52 + m) / 2 ^ 52 - 1 = 0 := by omega
      rw [quantaOf_eq, first, Nat.zero_mul, Nat.zero_add, Nat.sub_zero]
    · exact quantaOf_normal normal below
  · -- The end of a binade is the start of the next one.
    obtain rfl : m = 2 ^ 53 := by omega
    have next : k * 2 ^ 52 + 2 ^ 53 = (k + 1) * 2 ^ 52 + 2 ^ 52 := by omega
    rw [next, quantaOf_normal (Nat.le_refl _) (by decide), Nat.pow_succ 2 k,
      Nat.mul_comm (2 ^ k) 2, ← Nat.mul_assoc, ← Nat.pow_succ]

theorem Double.quanta_lt_binade (num den : Nat) :
    num * one / den < 2 ^ (binade num den + 53) := by
  refine Nat.lt_of_lt_of_le Nat.lt_log2_self (Nat.pow_le_pow_right Nat.two_pos ?_)
  unfold binade
  omega

theorem Double.binade_le_quanta (above : 0 < binade num den) :
    2 ^ (binade num den + 52) ≤ num * one / den := by
  have top : binade num den + 52 = (num * one / den).log2 := by
    unfold binade at above ⊢
    omega
  rw [top]
  refine Nat.log2_self_le fun none => ?_
  rw [binade, none] at above
  exact absurd above (by decide)

theorem Double.significand_le (pos : 0 < den) : significand num den ≤ 2 ^ 53 := by
  refine roundQuotient_le (Nat.mul_pos pos (Nat.two_pow_pos _)) (Nat.le_of_lt ?_)
  have below := (Nat.div_lt_iff_lt_mul pos).1 (quanta_lt_binade num den)
  calc num * one < 2 ^ (binade num den + 53) * den := below
    _ = 2 ^ 53 * (den * 2 ^ binade num den) := by
      rw [Nat.add_comm, Nat.pow_add, Nat.mul_assoc, Nat.mul_comm (2 ^ binade num den)]

theorem Double.le_significand (pos : 0 < den) :
    binade num den = 0 ∨ 2 ^ 52 ≤ significand num den := by
  rcases Nat.eq_zero_or_pos (binade num den) with first | above
  · exact .inl first
  · refine .inr (le_roundQuotient (Nat.mul_pos pos (Nat.two_pow_pos _)) ?_)
    have reached := (Nat.le_div_iff_mul_le pos).1 (binade_le_quanta above)
    calc 2 ^ 52 * (den * 2 ^ binade num den) = 2 ^ (binade num den + 52) * den := by
          rw [Nat.add_comm, Nat.pow_add, Nat.mul_assoc, Nat.mul_comm (2 ^ binade num den)]
      _ ≤ num * one := reached

/-- The quanta of the number nearest to a quotient. -/
theorem Double.quantaOf_nearestRank (num : Nat) (pos : 0 < den) :
    quantaOf (nearestRank num den) = significand num den * 2 ^ binade num den := by
  rw [nearestRank_eq_significand, quantaOf_shift (le_significand pos) (significand_le pos)]

end Rank

end RowExpr
