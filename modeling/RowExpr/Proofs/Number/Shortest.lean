import RowExpr.Number.Decimal
import RowExpr.Proofs.Number.Nearest

/-!
Decimals and the numbers that they denote.

Reading a decimal rounds its exact value; the bounds on its size only save work
(`Double.ofDecimal_eq`), so two decimals of the same value read alike. Among the decimals of
seventeen digits there is always one that reads back as a given magnitude, since their steps
are smaller than those of the magnitudes (`Decimal.exists_withDigits?`). So the shortest
decimal of a number, which is searched among those of at most seventeen digits, reads back as
the number (`Double.ofDecimal_shortest`).
-/

namespace RowExpr

/-! ## Digits -/

section Width

variable {n : Nat}

theorem Decimal.width_of_lt (small : n < 10) : width n = 1 := by
  rw [width, Text.ofNat, if_pos small, List.length_singleton]

theorem Decimal.width_of_ge (large : ¬ n < 10) : width n = width (n / 10) + 1 := by
  rw [width, Text.ofNat, if_neg large, List.length_append, List.length_singleton, width]

theorem Decimal.width_pos (n : Nat) : 0 < width n := by
  by_cases small : n < 10
  · rw [width_of_lt small]
    exact Nat.one_pos
  · rw [width_of_ge small]
    exact Nat.succ_pos _

theorem Decimal.lt_pow_width (n : Nat) : n < 10 ^ width n := by
  induction n using Nat.strongRecOn with
  | ind n ih =>
    by_cases small : n < 10
    · rw [width_of_lt small]
      exact small
    · have below := ih (n / 10) (Nat.div_lt_self (by omega) (by decide))
      rw [width_of_ge small, Nat.pow_succ]
      omega

theorem Decimal.pow_width_le (pos : 0 < n) : 10 ^ (width n - 1) ≤ n := by
  induction n using Nat.strongRecOn with
  | ind n ih =>
    by_cases small : n < 10
    · rw [width_of_lt small]
      exact pos
    · have above := ih (n / 10) (Nat.div_lt_self pos (by decide)) (by omega)
      obtain ⟨w, digits⟩ := Nat.exists_eq_add_one.2 (width_pos (n / 10))
      rw [digits, Nat.add_sub_cancel] at above
      rw [width_of_ge small, Nat.add_sub_cancel, digits, Nat.pow_succ]
      omega

theorem Decimal.width_le {k : Nat} (some : 0 < k) (small : n < 10 ^ k) : width n ≤ k := by
  rcases Nat.eq_zero_or_pos n with rfl | pos
  · rw [width_of_lt (by decide)]
    exact some
  · have powers : 10 ^ (width n - 1) < 10 ^ k := Nat.lt_of_le_of_lt (pow_width_le pos) small
    have := (Nat.pow_lt_pow_iff_right (by decide)).1 powers
    omega

end Width

/-! ## Values -/

/-- Two decimals have the same value. -/
def Decimal.Same (d d' : Decimal) : Prop := d.num * d'.den = d'.num * d.den

section Value

variable {d d' : Decimal} {num den num' den' : Nat}

theorem Decimal.num_eq (d : Decimal) : d.num = d.digits * 10 ^ d.exponent.toNat := rfl

theorem Decimal.den_eq (d : Decimal) : d.den = 10 ^ (-d.exponent).toNat := rfl

theorem Decimal.pow_ten_pos (k : Nat) : 0 < 10 ^ k := Nat.pow_pos (by decide)

theorem Decimal.den_pos (d : Decimal) : 0 < d.den := pow_ten_pos _

theorem Decimal.Same.refl (d : Decimal) : d.Same d := rfl

theorem Decimal.Same.trans {d'' : Decimal} (first : d.Same d') (second : d'.Same d'') :
    d.Same d'' := by
  unfold Decimal.Same at first second ⊢
  refine Nat.eq_of_mul_eq_mul_right d'.den_pos ?_
  rw [Nat.mul_right_comm, first, Nat.mul_right_comm, second, Nat.mul_right_comm]

/-- Zeros at the end of the digits may be counted in the exponent. -/
theorem Decimal.same_shift (m k : Nat) (e : Int) : Decimal.Same ⟨m, e + k⟩ ⟨m * 10 ^ k, e⟩ := by
  unfold Decimal.Same
  rw [num_eq, num_eq, den_eq, den_eq]
  dsimp only
  rw [Nat.mul_assoc, Nat.mul_assoc, Nat.mul_assoc, ← Nat.pow_add, ← Nat.pow_add, ← Nat.pow_add]
  congr 2
  omega

/-- Equal quotients are rounded alike. -/
theorem Double.nearestRank_congr (pos : 0 < den) (pos' : 0 < den')
    (same : num * den' = num' * den) : nearestRank num den = nearestRank num' den' := by
  rw [← nearestRank_mul_right num den pos', same, ← nearestRank_mul_right num' den' pos,
    Nat.mul_comm den]

theorem Decimal.Same.nearestRank_eq (same : d.Same d') :
    Double.nearestRank d.num d.den = Double.nearestRank d'.num d'.den :=
  Double.nearestRank_congr d.den_pos d'.den_pos same

theorem Double.quantaOf_zero : quantaOf 0 = 0 := Nat.zero_mul _

theorem Double.nearestRank_zero (pos : 0 < den) : nearestRank 0 den = 0 :=
  nearestRank_eq_of_exact pos (by rw [quantaOf_zero, Nat.zero_mul, Nat.zero_mul])

/-- A decimal of `10 ^ 309` or more is beyond the finite numbers. -/
theorem Double.rankBound_le_of_large (some : 0 < d.digits)
    (large : 309 < Decimal.width d.digits + d.exponent) :
    rankBound ≤ nearestRank d.num d.den := by
  have top : quantaOf rankBound ≤ 10 ^ 309 * one := by decide +kernel
  refine le_nearestRank d.den_pos ?_
  calc quantaOf rankBound * d.den
      ≤ 10 ^ 309 * one * d.den := Nat.mul_le_mul_right _ top
    _ = 10 ^ (309 + (-d.exponent).toNat) * one := by
        rw [d.den_eq, Nat.mul_right_comm, ← Nat.pow_add]
    _ ≤ 10 ^ (Decimal.width d.digits - 1 + d.exponent.toNat) * one :=
        Nat.mul_le_mul_right _ (Nat.pow_le_pow_right (by decide) (by omega))
    _ ≤ d.num * one := by
        rw [d.num_eq, Nat.pow_add]
        exact Nat.mul_le_mul_right _ (Nat.mul_le_mul_right _ (Decimal.pow_width_le some))

/-- A decimal below `10 ^ -324` is less than half a quantum. -/
theorem Double.nearestRank_of_tiny (small : Decimal.width d.digits + d.exponent < -323) :
    nearestRank d.num d.den = 0 := by
  have quantum : 2 * one ≤ 10 ^ 324 := by decide +kernel
  have first : quantaOf 0 + quantaOf (0 + 1) = 1 := by decide +kernel
  refine Nat.le_zero.1 (nearestRank_le_of_below d.den_pos ?_)
  rw [first, Nat.one_mul, d.num_eq, d.den_eq, Int.toNat_of_nonpos (by omega),
    Nat.pow_zero, Nat.mul_one]
  calc 2 * (d.digits * one)
      = d.digits * (2 * one) := Nat.mul_left_comm _ _ _
    _ ≤ d.digits * 10 ^ 324 := Nat.mul_le_mul_left _ quantum
    _ < 10 ^ Decimal.width d.digits * 10 ^ 324 :=
        Nat.mul_lt_mul_of_pos_right (Decimal.lt_pow_width _) (Decimal.pow_ten_pos 324)
    _ ≤ 10 ^ (-d.exponent).toNat := by
        rw [← Nat.pow_add]
        exact Nat.pow_le_pow_right (by decide) (by omega)

/-- Reading a decimal rounds its exact value, however large or small it is. -/
theorem Double.ofDecimal_eq (neg : Bool) (d : Decimal) :
    ofDecimal neg d = ofRatio neg d.num d.den := by
  unfold ofDecimal
  split
  · next none =>
    rw [ofRatio, d.num_eq, none, Nat.zero_mul, nearestRank_zero d.den_pos]
    rfl
  · next some =>
    split
    · next large =>
      have beyond := rankBound_le_of_large (Nat.pos_of_ne_zero some) large
      rw [ofRatio, ofRank, dif_neg (Nat.not_lt.2 beyond)]
    · split
      · next small =>
        rw [ofRatio, nearestRank_of_tiny small]
        rfl
      · rfl

theorem Decimal.Same.ofDecimal_eq (same : d.Same d') (neg : Bool) :
    Double.ofDecimal neg d = Double.ofDecimal neg d' := by
  rw [Double.ofDecimal_eq, Double.ofDecimal_eq, Double.ofRatio, same.nearestRank_eq,
    Double.ofRatio]

end Value

/-! ## The shortest decimal -/

section Search

variable {rank count : Nat} {d : Decimal}

theorem Double.roundQuotient_eq (num den : Nat) :
    roundQuotient num den = num / den ∨ roundQuotient num den = num / den + 1 := by
  unfold roundQuotient
  dsimp only
  split
  · exact .inl rfl
  · split
    · exact .inr rfl
    · omega

/-- The decimal of `count` digits next to the magnitude of a rank, on its lower side. -/
def Decimal.below (rank count : Nat) : Decimal :=
  let e := leading (Double.quantaOf rank) - (count - 1 : Nat)
  ⟨Double.quantaOf rank * Nat.pow 10 (-e).toNat / (Double.one * Nat.pow 10 e.toNat), e⟩

/-- The one after it. -/
def Decimal.above (rank count : Nat) : Decimal :=
  ⟨(below rank count).digits + 1, (below rank count).exponent⟩

/-- The decimal reads back as the magnitude of a rank. -/
def Decimal.ReadsAs (rank : Nat) (d : Decimal) : Prop := Double.nearestRank d.num d.den = rank

/-- The search takes one of the two neighbours if one reads back. -/
theorem Decimal.withDigits?_eq (rank count : Nat) :
    ∃ nearest, (nearest = below rank count ∨ nearest = above rank count) ∧
      withDigits? rank count =
        if Double.nearestRank (below rank count).num (below rank count).den == rank &&
          Double.nearestRank (above rank count).num (above rank count).den ==
            rank then some nearest
        else if Double.nearestRank (below rank count).num (below rank count).den == rank then
          some (below rank count)
        else if Double.nearestRank (above rank count).num (above rank count).den == rank then
          some (above rank count)
        else none := by
  refine ⟨⟨Double.roundQuotient _ _, _⟩, ?_, rfl⟩
  unfold above below
  dsimp only
  generalize leading (Double.quantaOf rank) - ((count - 1 : Nat) : Int) = e
  generalize Double.quantaOf rank * Nat.pow 10 (-e).toNat = num
  generalize Double.one * Nat.pow 10 e.toNat = den
  rcases Double.roundQuotient_eq num den with down | up
  · rw [down]
    exact .inl rfl
  · rw [up]
    exact .inr rfl

theorem Decimal.readsAs_of_withDigits? (found : withDigits? rank count = some d) :
    d.ReadsAs rank := by
  obtain ⟨nearest, neighbour, search⟩ := withDigits?_eq rank count
  rw [search] at found
  split at found
  · next both =>
    obtain ⟨low, high⟩ := Bool.and_eq_true_iff.1 both
    cases found
    rcases neighbour with rfl | rfl
    · exact eq_of_beq low
    · exact eq_of_beq high
  · split at found
    · next low =>
      cases found
      exact eq_of_beq low
    · split at found
      · next high =>
        cases found
        exact eq_of_beq high
      · cases found

theorem Decimal.exists_withDigits?
    (reads : (below rank count).ReadsAs rank ∨ (above rank count).ReadsAs rank) :
    ∃ d, withDigits? rank count = some d := by
  obtain ⟨nearest, -, search⟩ := withDigits?_eq rank count
  rw [search]
  split
  · exact ⟨_, rfl⟩
  · split
    · exact ⟨_, rfl⟩
    · next low =>
      rcases reads with read | read
      · exact absurd (beq_of_eq read) low
      · rw [if_pos (beq_of_eq read)]
        exact ⟨_, rfl⟩

theorem Double.step_mono {r s : Nat} (le : r ≤ s) : step r ≤ step s :=
  Nat.pow_le_pow_right Nat.two_pos (Nat.sub_le_sub_right (Nat.div_le_div_right le) 1)

/-- The decimal places within which every positive number has a digit. -/
def Decimal.reach : Nat := 324

theorem Decimal.below_exponent (rank count : Nat) :
    (below rank count).exponent =
      width
        (Double.quantaOf rank * 10 ^ reach / Double.one) - 325 - ((count - 1 : Nat) : Int) := by
  have places : reach = 324 := rfl
  rw [below]
  dsimp only
  rw [leading, ← places, Nat.pow_eq]

/-- The magnitude of a rank in units of the last of `count` digits has `count` digits. -/
theorem Decimal.le_quantaOf (some : 0 < rank) :
    10 ^ (count - 1) * (Double.one * 10 ^ (below rank count).exponent.toNat) ≤
      Double.quantaOf rank * (below rank count).den := by
  have places : reach = 324 := rfl
  have least : Double.one ≤ 10 ^ reach := by decide +kernel
  have positive : 0 < Double.quantaOf rank := Double.quantaOf_zero ▸ Double.quantaOf_lt some
  have exponent := below_exponent rank count
  have wide := width_pos (Double.quantaOf rank * 10 ^ reach / Double.one)
  have leading : 10 ^ (width (Double.quantaOf rank * 10 ^ reach / Double.one) - 1) * Double.one ≤
      Double.quantaOf rank * 10 ^ reach := by
    rw [← Nat.le_div_iff_mul_le Double.one_pos]
    refine pow_width_le ((Nat.le_div_iff_mul_le Double.one_pos).2 ?_)
    exact Nat.mul_le_mul positive least
  rw [den_eq]
  generalize width (Double.quantaOf rank * 10 ^ reach / Double.one) = w at exponent wide leading
  generalize (below rank count).exponent = e at exponent ⊢
  have powers : count - 1 + (e.toNat + reach) = w - 1 + (-e).toNat := by omega
  refine Nat.le_of_mul_le_mul_right ?_ (pow_ten_pos reach)
  calc 10 ^ (count - 1) * (Double.one * 10 ^ e.toNat) * 10 ^ reach
      = Double.one * 10 ^ (count - 1 + (e.toNat + reach)) := by
        rw [Nat.mul_left_comm, Nat.mul_assoc, Nat.mul_assoc, ← Nat.pow_add, ← Nat.pow_add]
    _ = Double.one * 10 ^ (w - 1 + (-e).toNat) := by rw [powers]
    _ = 10 ^ (w - 1) * Double.one * 10 ^ (-e).toNat := by
        rw [Nat.pow_add, ← Nat.mul_assoc, Nat.mul_comm Double.one]
    _ ≤ Double.quantaOf rank * 10 ^ reach * 10 ^ (-e).toNat := Nat.mul_le_mul_right _ leading
    _ = Double.quantaOf rank * 10 ^ (-e).toNat * 10 ^ reach := Nat.mul_right_comm _ _ _

theorem Decimal.num_mul_one (d : Decimal) :
    d.num * Double.one = d.digits * (Double.one * 10 ^ d.exponent.toNat) := by
  rw [d.num_eq, Nat.mul_assoc, Nat.mul_comm _ Double.one]

theorem Decimal.below_le (rank count : Nat) :
    (below rank count).num * Double.one ≤ Double.quantaOf rank * (below rank count).den := by
  rw [num_mul_one]
  exact Nat.div_mul_le_self _ _

theorem Decimal.le_above (rank count : Nat) :
    Double.quantaOf rank * (above rank count).den ≤ (above rank count).num * Double.one := by
  rw [num_mul_one]
  exact Nat.le_of_lt
    (Nat.lt_mul_of_div_lt (Nat.lt_succ_self _) (Nat.mul_pos Double.one_pos (pow_ten_pos _)))

theorem Decimal.above_exponent (rank count : Nat) :
    (above rank count).exponent = (below rank count).exponent := rfl

theorem Decimal.above_den (rank count : Nat) :
    (above rank count).den = (below rank count).den := by
  rw [den_eq, den_eq, above_exponent]

theorem Decimal.above_num (rank count : Nat) :
    (above rank count).num * Double.one =
      (below rank count).num * Double.one + Double.one * 10 ^
        (below rank count).exponent.toNat := by
  have digits : (above rank count).digits = (below rank count).digits + 1 := rfl
  rw [num_mul_one, num_mul_one, digits, above_exponent, Nat.add_one_mul (below rank count).digits]

/-- Of the two neighbours with seventeen digits one reads back. Otherwise both would be
at least half a step away, so that a step was at most a unit of the last digit, but the magnitude
holds at most `2 ^ 53` of its steps and at least `10 ^ 16` of those units. -/
theorem Decimal.neighbour_readsAs (some : 0 < rank) :
    (below rank 17).ReadsAs rank ∨ (above rank 17).ReadsAs rank := by
  obtain ⟨prior, rfl⟩ := Nat.exists_eq_add_one.2 some
  by_cases low : (below (prior + 1) 17).ReadsAs (prior + 1)
  · exact .inl low
  · by_cases high : (above (prior + 1) 17).ReadsAs (prior + 1)
    · exact .inr high
    · exfalso
      have many := @le_quantaOf (prior + 1) 17 some
      have notAbove :=
        Nat.lt_of_le_of_ne (Double.nearestRank_le (den_pos _) (below_le (prior + 1) 17)) low
      have notBelow :=
        Nat.lt_of_le_of_ne (Double.le_nearestRank (den_pos _) (le_above (prior + 1) 17))
          (Ne.symm high)
      have fromBelow := Double.le_of_nearestRank_le (den_pos _) (Nat.le_of_lt_succ notAbove)
      have fromAbove := Double.le_of_lt_nearestRank (den_pos _) notBelow
      have few := Nat.mul_le_mul_right (below (prior + 1) 17).den (Double.quantaOf_succ_le prior)
      have steps :=
        Nat.mul_le_mul_right (below (prior + 1) 17).den
          (Double.step_mono (Nat.le_add_right prior 1))
      have unit := Nat.mul_pos Double.one_pos (pow_ten_pos (below (prior + 1) 17).exponent.toNat)
      rw [above_num, above_den, Double.quantaOf_succ (prior + 1),
        Double.quantaOf_succ prior] at fromAbove
      rw [Double.quantaOf_succ prior] at fromBelow many few
      generalize (below (prior + 1) 17).den = den at *
      generalize Double.one * 10 ^ (below (prior + 1) 17).exponent.toNat = unit at *
      generalize (below (prior + 1) 17).num * Double.one = num at *
      simp only [Nat.add_mul, Nat.mul_assoc] at fromBelow fromAbove many few
      omega

theorem Decimal.readsAs_of_findSome? {counts : List Nat} (offered : count ∈ counts)
    (stops : ∃ d, withDigits? rank count = some d) (otherwise : Decimal) :
    ((counts.findSome? (withDigits? rank)).getD otherwise).ReadsAs rank := by
  cases search : counts.findSome? (withDigits? rank) with
  | some d =>
    obtain ⟨digits, -, found⟩ := List.exists_of_findSome?_eq_some search
    exact readsAs_of_withDigits? found
  | none =>
    obtain ⟨d, found⟩ := stops
    rw [List.findSome?_eq_none_iff.1 search count offered] at found
    cases found

/-- Taking zeros off the end of the digits keeps the value. -/
theorem Decimal.normalize_same (fuel : Nat) (d : Decimal) : (normalize fuel d).Same d := by
  induction fuel generalizing d with
  | zero => exact .refl d
  | succ fuel ih =>
    rw [normalize]
    split
    · next zero =>
      have digits : d.digits / 10 * 10 ^ 1 = d.digits :=
        Nat.div_mul_cancel (Nat.dvd_of_mod_eq_zero zero.2)
      have shift := same_shift (d.digits / 10) 1 d.exponent
      rw [digits] at shift
      exact (ih _).trans shift
    · exact .refl d

theorem Double.shortest_readsAs (some : 0 < rank) : (shortest rank).ReadsAs rank := by
  have found := Decimal.exists_withDigits? (Decimal.neighbour_readsAs some)
  have read := Decimal.readsAs_of_findSome? (show 17 ∈ Decimal.counts by decide) found
    ⟨quantaOf rank, -1074⟩
  exact (Decimal.normalize_same 17 _).nearestRank_eq.trans read

/-- The shortest decimal of a number reads back as the number. -/
theorem Double.ofDecimal_shortest {rank : Fin rankBound} (some : rank.val ≠ 0) (neg : Bool) :
    ofDecimal neg (shortest rank) = .finite neg rank := by
  have read : nearestRank _ _ = rank.val := shortest_readsAs (Nat.pos_of_ne_zero some)
  rw [ofDecimal_eq, ofRatio, read, ofRank, dif_pos rank.isLt]

end Search

end RowExpr
