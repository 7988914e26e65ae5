import RowExpr.Proofs.Number.Rounding

/-!
Neighbouring magnitudes and the quotients that are nearest to them.

Between neighbours lies a step, a power of two that is at least `2 ^ -53` of the upper one
(`Double.quantaOf_succ`, `Double.quantaOf_succ_le`). The rank nearest to a quotient changes
where the quotient passes the middle between neighbours
(`Double.nearestRank_le_of_below`, `Double.lt_nearestRank_of_above`), so rounding keeps the
order of quotients and changes no magnitude.
-/

namespace RowExpr

/-! ## Steps -/

/-- The quanta between the magnitude of a rank and the next one. -/
def Double.step (rank : Nat) : Nat := 2 ^ (rank / 2 ^ 52 - 1)

section Step

variable {r s : Nat}

theorem Double.step_pos (rank : Nat) : 0 < step rank := Nat.two_pow_pos _

/-- A rank in its binade. -/
theorem Double.rank_split (rank : Nat) :
    ∃ k m, rank = k * 2 ^ 52 + m ∧ (k = 0 ∨ 2 ^ 52 ≤ m) ∧ m < 2 ^ 53 ∧ step rank = 2 ^ k ∧
      quantaOf rank = m * 2 ^ k := by
  refine ⟨rank / 2 ^ 52 - 1,
    rank - (rank / 2 ^ 52 - 1) * 2 ^ 52, by omega, by omega, by omega, rfl, ?_⟩
  exact quantaOf_eq rank

theorem Double.quantaOf_succ (rank : Nat) : quantaOf (rank + 1) = quantaOf rank + step rank := by
  obtain ⟨k, m, split, low, high, step, quanta⟩ := rank_split rank
  have next : rank + 1 = k * 2 ^ 52 + (m + 1) := by omega
  rw [next, quantaOf_shift (by omega) (by omega), quanta, step, Nat.succ_mul]

/-- A step is not small beside the magnitude that it leads to. -/
theorem Double.quantaOf_succ_le (rank : Nat) : quantaOf (rank + 1) ≤ 2 ^ 53 * step rank := by
  obtain ⟨k, m, -, -, high, step, quanta⟩ := rank_split rank
  rw [quantaOf_succ, quanta, step, ← Nat.succ_mul]
  exact Nat.mul_le_mul_right _ high

theorem Double.quantaOf_lt_succ (rank : Nat) : quantaOf rank < quantaOf (rank + 1) := by
  rw [quantaOf_succ]
  exact Nat.lt_add_of_pos_right (step_pos rank)

theorem Double.quantaOf_mono (le : r ≤ s) : quantaOf r ≤ quantaOf s := by
  induction le with
  | refl => exact Nat.le_refl _
  | step _ ih => exact Nat.le_trans ih (Nat.le_of_lt (quantaOf_lt_succ _))

theorem Double.quantaOf_lt (lt : r < s) : quantaOf r < quantaOf s :=
  Nat.lt_of_lt_of_le (quantaOf_lt_succ r) (quantaOf_mono lt)

theorem Double.quantaOf_lt_iff : quantaOf r < quantaOf s ↔ r < s := by
  refine ⟨fun less => ?_, quantaOf_lt⟩
  rcases Nat.lt_or_ge r s with lt | ge
  · exact lt
  · exact absurd less (Nat.not_lt.2 (quantaOf_mono ge))

end Step

/-! ## Thresholds -/

section Thresholds

variable {num den r : Nat}

/-- The nearest integer is at most half below the quotient. -/
theorem Double.le_roundQuotient_mul (num : Nat) (pos : 0 < den) :
    2 * num ≤ 2 * (roundQuotient num den * den) + den := by
  have split : num / den * den + num % den = num := Nat.div_add_mod' num den
  have rest := Nat.mod_lt num pos
  unfold roundQuotient
  dsimp only
  split
  · omega
  · split <;>
    · rw [Nat.add_mul]
      omega

/-- A quotient whose nearest rank is above a rank is not below the middle between that rank
and the next. -/
theorem Double.le_of_lt_nearestRank (pos : 0 < den) (above : r < nearestRank num den) :
    (quantaOf r + quantaOf (r + 1)) * den ≤ 2 * (num * one) := by
  have quanta := quantaOf_nearestRank num pos
  have upper : quantaOf (r + 1) ≤ significand num den * 2 ^ binade num den :=
    quanta ▸ quantaOf_mono above
  rw [nearestRank_eq_significand] at above
  by_cases least : 0 < binade num den ∧ significand num den ≤ 2 ^ 52
  · -- At the start of a binade the quotient has not been rounded up.
    obtain ⟨later, small⟩ := least
    have reached := (Nat.le_div_iff_mul_le pos).1 (binade_le_quanta later)
    have start : significand num den * 2 ^ binade num den ≤ 2 ^ (binade num den + 52) := by
      rw [Nat.add_comm, Nat.pow_add]
      exact Nat.mul_le_mul_right _ small
    have below := quantaOf_lt_succ r
    have double : (quantaOf r + quantaOf (r + 1)) * den ≤ 2 * 2 ^ (binade num den + 52) * den :=
      Nat.mul_le_mul_right den (by omega)
    rw [Nat.mul_assoc] at double
    omega
  · have bounds := @le_significand num den pos
    have most := @significand_le num den pos
    have near := roundQuotient_mul_le (num * one) (den * 2 ^ binade num den)
    rw [← significand] at near
    obtain ⟨m, next⟩ : ∃ m, significand num den = m + 1 := Nat.exists_eq_add_one.2 (by omega)
    rw [next] at above upper bounds most near
    have lower : quantaOf r ≤ m * 2 ^ binade num den := by
      rw [← quantaOf_shift (by omega) (by omega)]
      exact quantaOf_mono (by omega)
    calc (quantaOf r + quantaOf (r + 1)) * den
        ≤ (m * 2 ^ binade num den + (m + 1) * 2 ^ binade num den) * den :=
          Nat.mul_le_mul_right den (Nat.add_le_add lower upper)
      _ ≤ 2 * (num * one) := by
        rw [Nat.succ_mul m] at near
        rw [Nat.succ_mul m, Nat.add_mul, Nat.add_mul, Nat.mul_assoc,
          Nat.mul_comm (2 ^ binade num den)]
        omega

/-- A quotient whose nearest rank is not above a rank is not above the middle between that rank
and the next. -/
theorem Double.le_of_nearestRank_le (pos : 0 < den) (notAbove : nearestRank num den ≤ r) :
    2 * (num * one) ≤ (quantaOf r + quantaOf (r + 1)) * den := by
  have quanta := quantaOf_nearestRank num pos
  have bounds := @le_significand num den pos
  have step : 2 ^ binade num den ≤ step (nearestRank num den) := by
    rw [nearestRank_eq_significand]
    exact Nat.pow_le_pow_right Nat.two_pos (by omega)
  have near :=
    le_roundQuotient_mul (num * one) (Nat.mul_pos pos (Nat.two_pow_pos (binade num den)))
  rw [← significand] at near
  calc 2 * (num * one)
      ≤ 2 * (significand num den * (den * 2 ^ binade num den)) + den * 2 ^ binade num den := near
    _ = (significand num den * 2 ^ binade num den + (significand num den * 2 ^ binade num den +
          2 ^ binade num den)) * den := by
        rw [Nat.add_mul, Nat.add_mul, Nat.mul_assoc, Nat.mul_comm (2 ^ binade num den)]
        omega
    _ ≤ (quantaOf r + quantaOf (r + 1)) * den := by
        rw [← quanta]
        refine Nat.mul_le_mul_right den (Nat.add_le_add (quantaOf_mono notAbove) ?_)
        refine Nat.le_trans ?_ (quantaOf_mono (Nat.succ_le_succ notAbove))
        rw [quantaOf_succ]
        exact Nat.add_le_add_left step _

/-- A quotient below the middle between a rank and the next is not rounded beyond the rank. -/
theorem Double.nearestRank_le_of_below (pos : 0 < den)
    (below : 2 * (num * one) < (quantaOf r + quantaOf (r + 1)) * den) : nearestRank num den ≤ r :=
  Nat.le_of_not_lt fun above => Nat.not_le.2 below (le_of_lt_nearestRank pos above)

/-- A quotient above the middle between a rank and the next is rounded beyond the rank. -/
theorem Double.lt_nearestRank_of_above (pos : 0 < den)
    (above : (quantaOf r + quantaOf (r + 1)) * den < 2 * (num * one)) : r < nearestRank num den :=
  Nat.lt_of_not_le fun notAbove => Nat.not_le.2 above (le_of_nearestRank_le pos notAbove)

/-- A magnitude that a quotient does not exceed is not exceeded by rounding. -/
theorem Double.nearestRank_le (pos : 0 < den) (le : num * one ≤ quantaOf r * den) :
    nearestRank num den ≤ r := by
  refine nearestRank_le_of_below pos ?_
  have less := Nat.mul_lt_mul_of_pos_right (quantaOf_lt_succ r) pos
  rw [Nat.add_mul]
  omega

/-- A magnitude that a quotient reaches is reached by rounding. -/
theorem Double.le_nearestRank (pos : 0 < den) (ge : quantaOf r * den ≤ num * one) :
    r ≤ nearestRank num den := by
  rcases r with _ | r
  · exact Nat.zero_le _
  · refine lt_nearestRank_of_above pos ?_
    have less := Nat.mul_lt_mul_of_pos_right (quantaOf_lt_succ r) pos
    rw [Nat.add_mul]
    omega

/-- A magnitude is not changed by rounding. -/
theorem Double.nearestRank_eq_of_exact (pos : 0 < den) (exact : num * one = quantaOf r * den) :
    nearestRank num den = r :=
  Nat.le_antisymm (nearestRank_le pos (Nat.le_of_eq exact))
    (le_nearestRank pos (Nat.le_of_eq exact.symm))

end Thresholds

end RowExpr
