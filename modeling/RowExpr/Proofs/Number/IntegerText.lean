import RowExpr.Proofs.Number.Layout
import RowExpr.Proofs.Text.Integer

/-!
Texts of integers.

An integer of fewer than 54 bits is written as its numeral (`Double.text_of_toInt?`). The
search for its shortest decimal ends at the number of its digits at the latest, so the decimal
found has no places after the point (`Double.exponent_shortest`). It is an integer as well that
reads back as the number, and only the integer itself does.
-/

namespace RowExpr

/-! ## Numerals with zeros at the end -/

section Zeros

variable {m : Nat}

theorem Text.ofNat_mul_ten (pos : 0 < m) : ofNat (m * 10) = ofNat m ++ [zeroDigit] := by
  rw [ofNat, if_neg (by omega), Nat.mul_div_cancel m (by decide), Nat.mul_mod_left]
  rfl

theorem Text.ofNat_mul_pow (pos : 0 < m) (k : Nat) :
    ofNat (m * 10 ^ k) = ofNat m ++ List.replicate k zeroDigit := by
  induction k with
  | zero => rw [Nat.pow_zero, Nat.mul_one, List.replicate_zero, List.append_nil]
  | succ k ih =>
    rw [Nat.pow_succ, ← Nat.mul_assoc,
      ofNat_mul_ten (Nat.mul_pos pos (Decimal.pow_ten_pos k)), ih, List.append_assoc,
      List.replicate_succ']

theorem Decimal.width_mul_pow (pos : 0 < m) (k : Nat) : width (m * 10 ^ k) = width m + k := by
  rw [width, Text.ofNat_mul_pow pos, List.length_append, List.length_replicate, width]

end Zeros

/-- A decimal without places after the point is written as its numeral, if it is below
`10 ^ 21`. -/
theorem Decimal.layout_of_nonneg {d : Decimal} (whole : 0 ≤ d.exponent) (pos : 0 < d.digits)
    (small : d.num < 10 ^ 21) : d.layout = Text.ofNat d.num := by
  have wide := width_le (by decide) small
  have digits : (Text.ofNat d.digits).length = width d.digits := rfl
  have some := width_pos d.digits
  rw [d.num_eq, width_mul_pow pos] at wide
  have positional : ¬ (21 ≤ d.exponent + ((Text.ofNat d.digits).length - 1 : Nat) ∨
      d.exponent + ((Text.ofNat d.digits).length - 1 : Nat) ≤ -7) := by omega
  unfold layout
  dsimp only
  rw [if_neg positional, if_pos whole, d.num_eq, Text.ofNat_mul_pow pos]

/-! ## The search -/

section Search

variable {rank count limit k : Nat} {d : Decimal}

theorem Decimal.exponent_of_withDigits? (found : withDigits? rank count = some d) :
    d.exponent = (below rank count).exponent := by
  obtain ⟨nearest, neighbour, search⟩ := withDigits?_eq rank count
  rw [search] at found
  have among : d = below rank count ∨ d = above rank count := by
    split at found
    · exact Option.some.inj found ▸ neighbour
    · split at found
      · exact .inl (Option.some.inj found).symm
      · split at found
        · exact .inr (Option.some.inj found).symm
        · cases found
  rcases among with rfl | rfl
  · rfl
  · exact above_exponent rank count

/-- The search ends at the latest where there is a decimal. -/
theorem Decimal.exists_found (offered : limit ≤ 17) (begun : 0 < limit)
    (stops : ∃ d, withDigits? rank limit = some d) :
    ∃ count d, count ≤ limit ∧ withDigits? rank count = some d ∧
      counts.findSome? (withDigits? rank) = some d := by
  have split : counts = List.range' 1 limit ++ List.range' (1 + 1 * limit) (17 - limit) := by
    rw [List.range'_append, Nat.add_sub_cancel' offered, counts]
  rw [split, List.findSome?_append]
  cases front : (List.range' 1 limit).findSome? (withDigits? rank) with
  | some d =>
    obtain ⟨count, listed, found⟩ := List.exists_of_findSome?_eq_some front
    have := List.mem_range'_1.1 listed
    exact ⟨count, d, by omega, found, rfl⟩
  | none =>
    obtain ⟨d, found⟩ := stops
    have listed : limit ∈ List.range' 1 limit := List.mem_range'_1.2 (by omega)
    rw [List.findSome?_eq_none_iff.1 front limit listed] at found
    cases found

theorem Decimal.exponent_le_normalize (fuel : Nat) (d : Decimal) :
    d.exponent ≤ (normalize fuel d).exponent := by
  induction fuel generalizing d with
  | zero => exact Int.le_refl _
  | succ fuel ih =>
    rw [normalize]
    split
    · exact Int.le_trans (Int.le_add_of_nonneg_right (by decide)) (ih _)
    · exact Int.le_refl _

section Whole

variable (whole : Double.quantaOf rank = k * Double.one) (pos : 0 < k)

include whole pos

theorem Decimal.below_exponent_of_whole (count : Nat) :
    (below rank count).exponent = width k - 1 - ((count - 1 : Nat) : Int) := by
  have places : reach = 324 := rfl
  rw [below_exponent, whole, Nat.mul_right_comm, Nat.mul_div_cancel _ Double.one_pos,
    width_mul_pow pos]
  omega

/-- An integer is the decimal of as many digits as it has. -/
theorem Decimal.below_width : below rank (width k) = ⟨k, 0⟩ := by
  have exponent := below_exponent_of_whole whole pos (width k)
  have some := width_pos k
  have zero : leading (Double.quantaOf rank) - ((width k - 1 : Nat) : Int) = 0 := by
    rw [below] at exponent
    dsimp only at exponent
    omega
  rw [below, zero, Int.neg_zero, Int.toNat_zero, Nat.pow_eq, Nat.pow_zero, Nat.mul_one,
    Nat.mul_one, whole, Nat.mul_div_cancel k Double.one_pos]

theorem Decimal.below_width_readsAs : (below rank (width k)).ReadsAs rank := by
  rw [below_width whole pos]
  refine Double.nearestRank_eq_of_exact (den_pos _) ?_
  rw [num_eq, den_eq, whole, Int.neg_zero, Int.toNat_zero, Nat.pow_zero, Nat.mul_one, Nat.mul_one]

/-- The shortest decimal of an integer has no places after the point. -/
theorem Double.exponent_shortest (small : k < 2 ^ 53) : 0 ≤ (shortest rank).exponent := by
  have wide : Decimal.width k ≤ 17 :=
    Decimal.width_le (by decide) (Nat.lt_trans small (by decide))
  have read := Decimal.exists_withDigits? (.inl (Decimal.below_width_readsAs whole pos))
  obtain ⟨count, d, early, found, search⟩ := Decimal.exists_found wide (Decimal.width_pos k) read
  have exponent := Decimal.exponent_of_withDigits? found
  rw [Decimal.below_exponent_of_whole whole pos] at exponent
  have some := Decimal.width_pos k
  rw [shortest, search, Option.getD_some]
  exact Int.le_trans (by omega) (Decimal.exponent_le_normalize 17 d)

end Whole

end Search

/-! ## Texts -/

section Texts

variable {x : Double} {n : Int}

theorem Double.num_shortest {rank : Fin rankBound} {k : Nat} (whole : quantaOf rank = k * one)
    (pos : 0 < k) (small : k < 2 ^ 53) : (shortest rank).num = k := by
  have some : rank.val ≠ 0 := by
    intro none
    rw [none, quantaOf_zero] at whole
    exact Nat.ne_of_lt (Nat.mul_pos pos one_pos) whole
  have rounds := rounds_ofDecimal false (exponent_shortest whole pos small)
  rw [ofDecimal_shortest some, if_neg Bool.false_ne_true] at rounds
  have integer := @toInt?_finite false rank k whole
  rw [if_neg Bool.false_ne_true] at integer
  exact Int.natCast_inj.1 (rounds.eq_of_toInt? integer (by rwa [Int.natAbs_natCast]))

/-- An integer of fewer than 54 bits is written as its numeral. -/
theorem Double.text_of_toInt? (whole : x.toInt? = some n) (small : n.natAbs < 2 ^ 53) :
    x.text = Text.ofInt n := by
  obtain ⟨neg, rank, rfl, magnitude, sign⟩ := of_toInt? whole
  by_cases none : rank.val = 0
  · rw [none, quantaOf_zero] at magnitude
    have zero : n = 0 := by
      rcases Nat.mul_eq_zero.1 magnitude.symm with none | none
      · exact Int.natAbs_eq_zero.1 none
      · exact absurd none (Nat.ne_of_gt one_pos)
    rw [Double.text, if_pos none, zero, Text.ofInt, if_neg (by decide), Int.natAbs_zero,
      Text.ofNat, if_pos (by decide)]
    rfl
  · have pos : 0 < n.natAbs := by
      refine Nat.pos_of_ne_zero fun zero => ?_
      rw [zero, Nat.zero_mul, ← quantaOf_zero] at magnitude
      exact Nat.not_lt.2 (Nat.le_of_eq magnitude) (quantaOf_lt (Nat.pos_of_ne_zero none))
    have num := num_shortest magnitude pos small
    have digits : 0 < (shortest rank).digits := by
      refine Nat.pos_of_ne_zero fun zero => ?_
      rw [Decimal.num_eq, zero, Nat.zero_mul] at num
      exact Nat.ne_of_lt pos num
    have layout := Decimal.layout_of_nonneg (exponent_shortest magnitude pos small) digits
      (num ▸ Nat.lt_trans small (by decide))
    rw [text_finite none, layout, num, Text.ofInt]
    cases neg with
    | true =>
      rw [if_pos rfl] at sign
      rw [if_pos rfl, if_pos (by omega)]
    | false =>
      rw [if_neg Bool.false_ne_true] at sign
      rw [if_neg Bool.false_ne_true, if_neg (by omega)]

end Texts

end RowExpr
