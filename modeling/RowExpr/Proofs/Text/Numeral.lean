import Mathlib.Algebra.Group.Nat.Defs
import RowExpr.Text.Basic

/-!
Decimal numerals. `Text.ofNat` writes a number with digits only, and
`Text.digitsValue` reads it back, so different numbers have different numerals.
-/

namespace RowExpr.Text

theorem toNat_digit {d : Nat} (small : d < 10) : (UInt16.ofNat (48 + d)).toNat = 48 + d := by
  rw [UInt16.toNat_ofNat']
  omega

/-- The ten digits are recognised. -/
theorem isDigit_digit {d : Nat} (small : d < 10) : isDigit (UInt16.ofNat (48 + d)) = true := by
  have value := toNat_digit small
  rw [isDigit, Bool.and_eq_true, decide_eq_true_iff, decide_eq_true_iff, UInt16.le_iff_toNat_le,
    UInt16.le_iff_toNat_le, value]
  constructor
  · exact Nat.le_add_right 48 d
  · show 48 + d ≤ 57
    omega

theorem toNat_of_isDigit {u : UInt16} (digit : isDigit u = true) :
    48 ≤ u.toNat ∧ u.toNat ≤ 57 := by
  rw [isDigit, Bool.and_eq_true, decide_eq_true_iff, decide_eq_true_iff, UInt16.le_iff_toNat_le,
    UInt16.le_iff_toNat_le] at digit
  exact digit

/-- A numeral holds digits only. -/
theorem isDigit_of_mem_ofNat {n : Nat} {u : UInt16} (written : u ∈ ofNat n) :
    isDigit u = true := by
  fun_induction ofNat n with
  | case1 n small =>
    rw [List.mem_singleton.1 written]
    exact isDigit_digit small
  | case2 n large ih =>
    rcases List.mem_append.1 written with front | last
    · exact ih front
    · rw [List.mem_singleton.1 last]
      exact isDigit_digit (Nat.mod_lt n (by decide))

/-- A digit at the end takes the others one place up. -/
theorem digitsValue_append_singleton (t : Text) (u : UInt16) :
    digitsValue (t ++ [u]) = digitsValue t * 10 + (u.toNat - 48) := by
  rw [digitsValue, List.foldl_append]
  rfl

/-- The value of digits that others have been read before. -/
theorem foldl_digits (t : Text) (a : Nat) :
    t.foldl (fun n u => n * 10 + (u.toNat - 48)) a = a * 10 ^ t.length + digitsValue t := by
  induction t generalizing a with
  | nil => exact (Nat.mul_one a).symm
  | cons u t ih =>
    rw [digitsValue, List.foldl_cons, List.foldl_cons, ih, ih, Nat.zero_mul, Nat.zero_add,
      List.length_cons, Nat.pow_succ', Nat.add_mul, Nat.mul_assoc, Nat.add_assoc]

/-- Digits in front count by the number of those behind them. -/
theorem digitsValue_append (s t : Text) :
    digitsValue (s ++ t) = digitsValue s * 10 ^ t.length + digitsValue t := by
  rw [digitsValue, List.foldl_append, foldl_digits]
  rfl

theorem digitsValue_replicate (k : Nat) : digitsValue (List.replicate k zeroDigit) = 0 := by
  induction k with
  | zero => rfl
  | succ k ih =>
    rw [List.replicate_succ', digitsValue_append_singleton, ih]
    rfl

theorem digitsValue_cons (u : UInt16) (t : Text) :
    digitsValue (u :: t) = (u.toNat - 48) * 10 ^ t.length + digitsValue t := by
  rw [digitsValue, List.foldl_cons, foldl_digits, Nat.zero_mul, Nat.zero_add]

/-- Digits denote less than the power of ten of their number. -/
theorem digitsValue_lt {t : Text} (digits : ∀ u ∈ t, isDigit u = true) :
    digitsValue t < 10 ^ t.length := by
  induction t with
  | nil => exact Nat.one_pos
  | cons u t ih =>
    obtain ⟨first, rest⟩ := List.forall_mem_cons.1 digits
    have below := ih rest
    have digit := toNat_of_isDigit first
    have leading : (u.toNat - 48) * 10 ^ t.length ≤ 9 * 10 ^ t.length :=
      Nat.mul_le_mul_right _ (by omega)
    rw [digitsValue_cons, List.length_cons, Nat.pow_succ]
    omega

/-- Reading a numeral gives the number it was written for. -/
@[simp] theorem digitsValue_ofNat (n : Nat) : digitsValue (ofNat n) = n := by
  fun_induction ofNat n with
  | case1 n small =>
    show 0 * 10 + ((UInt16.ofNat (48 + n)).toNat - 48) = n
    rw [toNat_digit small]
    omega
  | case2 n large ih =>
    rw [digitsValue_append_singleton, ih, toNat_digit (Nat.mod_lt n (by decide))]
    omega

theorem ofNat_ne_nil (n : Nat) : ofNat n ≠ [] := by
  rw [ofNat]
  split
  · exact List.cons_ne_nil _ _
  · exact List.append_ne_nil_of_right_ne_nil _ (List.cons_ne_nil _ _)

/-- Numbers are told apart by their numerals. -/
theorem ofNat_injective {n m : Nat} (same : ofNat n = ofNat m) : n = m := by
  rw [← digitsValue_ofNat n, same, digitsValue_ofNat m]

end RowExpr.Text
