import RowExpr.Proofs.Number.Nearest

/-!
Numbers nearest to integers.

An integer of fewer than 54 bits is a floating-point number, a larger one may be rounded or
become infinite. Rounding never crosses `2 ^ 53`, so the number nearest to an integer compares
with every integer of fewer than 54 bits as the integer itself does (`Double.Rounds.lt_ofInt`,
`Double.Rounds.ofInt_lt`), and it is safe exactly if the integer is
(`Double.Rounds.toSafeInt?_eq`).
-/

namespace RowExpr

theorem Double.lt_of_toInt? {x y : Double} {m n : Int} (left : x.toInt? = some m)
    (right : y.toInt? = some n) : x.lt y = decide (m < n) := by
  have leftQuanta := toInt?_eq_some.1 left
  have rightQuanta := toInt?_eq_some.1 right
  obtain ⟨s, r, rfl, -, -⟩ := of_toInt? left
  obtain ⟨t, q, rfl, -, -⟩ := of_toInt? right
  simp only [quanta?, Option.some.injEq] at leftQuanta rightQuanta
  rw [Double.lt, leftQuanta, rightQuanta]
  exact decide_eq_decide.2 (Int.mul_lt_mul_right (Int.natCast_pos.2 one_pos))

/-! ## Large numbers -/

/-- The number has this sign, and a magnitude of `2 ^ 53` or more. -/
inductive Double.Large (neg : Bool) : Double → Prop
  | infinite : Double.Large neg (.infinite neg)
  | finite {rank : Fin rankBound} : 2 ^ 53 * one ≤ quantaOf rank →
    Double.Large neg (.finite neg rank)

section Large

variable {x y : Double} {neg : Bool} {m : Int}

theorem Double.natAbs_mul_one_lt (small : m.natAbs < 2 ^ 53) :
    (m * one).natAbs < 2 ^ 53 * one := by
  rw [Int.natAbs_mul, Int.natAbs_natCast]
  exact Nat.mul_lt_mul_of_pos_right small one_pos

theorem Double.Large.lt (large : Double.Large neg x) (whole : y.toInt? = some m)
    (small : m.natAbs < 2 ^ 53) : x.lt y = neg := by
  have bound := natAbs_mul_one_lt small
  have quanta := toInt?_eq_some.1 whole
  obtain ⟨t, q, rfl, -, -⟩ := of_toInt? whole
  simp only [quanta?, Option.some.injEq] at quanta
  cases large with
  | infinite => rfl
  | finite above =>
    rw [Double.lt, quanta]
    cases neg <;> simp only [Bool.false_eq_true, if_false, if_true, decide_eq_false_iff_not,
      decide_eq_true_iff] <;> omega

theorem Double.Large.gt (large : Double.Large neg x) (whole : y.toInt? = some m)
    (small : m.natAbs < 2 ^ 53) : y.lt x = !neg := by
  have bound := natAbs_mul_one_lt small
  have quanta := toInt?_eq_some.1 whole
  obtain ⟨t, q, rfl, -, -⟩ := of_toInt? whole
  simp only [quanta?, Option.some.injEq] at quanta
  cases large with
  | infinite => rfl
  | finite above =>
    rw [Double.lt, quanta]
    cases neg <;> simp only [Bool.false_eq_true, if_false, if_true, Bool.not_true, Bool.not_false,
      decide_eq_false_iff_not, decide_eq_true_iff] <;> omega

/-- A large number is no integer of fewer than 54 bits. -/
theorem Double.Large.not_small (large : Double.Large neg x) (whole : x.toInt? = some m) :
    2 ^ 53 ≤ m.natAbs := by
  cases large with
  | infinite => cases whole
  | finite above =>
    obtain ⟨_, _, ⟨⟩, magnitude, -⟩ := of_toInt? whole
    rw [magnitude] at above
    exact Nat.le_of_mul_le_mul_right above one_pos

end Large

/-! ## Nearest numbers -/

/-- The number is the one nearest to an integer, with its sign. Zero may have either sign. -/
def Double.Rounds (x : Double) (n : Int) : Prop :=
  ∃ neg, x = ofRatio neg n.natAbs 1 ∧ n = if neg then -(n.natAbs : Int) else n.natAbs

/-- The rank of `2 ^ 53`. -/
def Double.largeRank : Nat := 1075 * 2 ^ 52 + 2 ^ 52

theorem Double.quantaOf_largeRank : quantaOf largeRank = 2 ^ 53 * one := by
  have exponents : 52 + 1075 = 53 + places := rfl
  rw [largeRank, quantaOf_normal (Nat.le_refl _) (by decide), one_eq, ← Nat.pow_add,
    exponents, Nat.pow_add]

section Rounds

variable {x : Double} {m n : Int} (rounds : x.Rounds n)

include rounds

theorem Double.Rounds.toInt? (small : n.natAbs < 2 ^ 53) : x.toInt? = some n := by
  obtain ⟨neg, rfl, sign⟩ := rounds
  rw [← Nat.mul_one n.natAbs, toInt?_ofRatio small Nat.one_pos, ← sign]

theorem Double.Rounds.large (large : 2 ^ 53 ≤ n.natAbs) : Double.Large (decide (n < 0)) x := by
  obtain ⟨neg, rfl, sign⟩ := rounds
  have same : decide (n < 0) = neg := by
    cases neg with
    | true =>
      rw [if_pos rfl] at sign
      exact decide_eq_true (by omega)
    | false =>
      rw [if_neg Bool.false_ne_true] at sign
      exact decide_eq_false (by omega)
  have above : largeRank ≤ nearestRank n.natAbs 1 := by
    refine le_nearestRank Nat.one_pos ?_
    rw [quantaOf_largeRank, Nat.mul_one]
    exact Nat.mul_le_mul_right one large
  rw [same, ofRatio, ofRank]
  split
  · next bound => exact .finite (quantaOf_largeRank ▸ quantaOf_mono above)
  · exact .infinite

/-- Only one integer rounds to one of fewer than 54 bits. -/
theorem Double.Rounds.eq_of_toInt? (whole : x.toInt? = some m) (small : m.natAbs < 2 ^ 53) :
    n = m := by
  rcases Nat.lt_or_ge n.natAbs (2 ^ 53) with exact | large
  · rw [rounds.toInt? exact] at whole
    exact Option.some.inj whole
  · exact absurd ((rounds.large large).not_small whole) (Nat.not_le.2 small)

theorem Double.Rounds.lt_ofInt (small : m.natAbs < 2 ^ 53) : x.lt (ofInt m) = decide (n < m) := by
  rcases Nat.lt_or_ge n.natAbs (2 ^ 53) with exact | large
  · exact lt_of_toInt? (rounds.toInt? exact) (toInt?_ofInt small)
  · rw [(rounds.large large).lt (toInt?_ofInt small) small]
    exact decide_eq_decide.2 (by omega)

theorem Double.Rounds.ofInt_lt (small : m.natAbs < 2 ^ 53) : (ofInt m).lt x = decide (m < n) := by
  rcases Nat.lt_or_ge n.natAbs (2 ^ 53) with exact | large
  · exact lt_of_toInt? (toInt?_ofInt small) (rounds.toInt? exact)
  · rw [(rounds.large large).gt (toInt?_ofInt small) small, ← decide_not]
    exact decide_eq_decide.2 (by omega)

theorem Double.Rounds.toSafeInt?_eq :
    x.toSafeInt? = if n.natAbs < 2 ^ 53 then some n else none := by
  have most : maxSafe = 2 ^ 53 - 1 := rfl
  unfold toSafeInt?
  rcases Nat.lt_or_ge n.natAbs (2 ^ 53) with small | large
  · have safe : (-maxSafe ≤ n && n ≤ maxSafe) = true := by
      rw [Bool.and_eq_true, decide_eq_true_iff, decide_eq_true_iff]
      omega
    rw [rounds.toInt? small, if_pos small]
    exact if_pos safe
  · rw [if_neg (Nat.not_lt.2 large)]
    split
    · next k whole =>
      have beyond := (rounds.large large).not_small whole
      refine if_neg fun safe => ?_
      rw [Bool.and_eq_true, decide_eq_true_iff, decide_eq_true_iff] at safe
      omega
    · rfl

end Rounds

end RowExpr
