import RowExpr.Number.Numeral
import RowExpr.Proofs.Number.Rounded
import RowExpr.Proofs.Number.Shortest
import RowExpr.Proofs.Text.Numeral
import RowExpr.Proofs.Text.Runs

/-!
Integers in texts.

An integer is written as an optional sign and digits, with white space around them
(`Text.WritesInt`). Reading takes exactly these texts and gives the number nearest to the
integer (`Text.WritesInt.read`, `Text.exists_writesInt`).
-/

namespace RowExpr

/-- An integer as it is written: an optional sign and at least one digit. -/
inductive Numeral.Denotes : Text → Int → Prop
  | unsigned {ds : Text} : ds ≠ [] → (∀ u ∈ ds, Text.isDigit u = true) →
    Numeral.Denotes ds (Text.digitsValue ds)
  | plus {ds : Text} : ds ≠ [] → (∀ u ∈ ds, Text.isDigit u = true) →
    Numeral.Denotes (43 :: ds) (Text.digitsValue ds)
  | minus {ds : Text} :
    ds ≠ [] → (∀ u ∈ ds, Text.isDigit u = true) →
    Numeral.Denotes (45 :: ds) (-(Text.digitsValue ds : Int))

/-- The text is an integer with nothing around it but white space. -/
def Text.WritesInt (t : Text) (n : Int) : Prop :=
  ∃ front body back : Text, t = front ++ body ++ back ∧ front.AllBlank ∧ back.AllBlank ∧
    Numeral.Denotes body n

/-! ## Numerals -/

section Numerals

variable {t ds : Text} {n : Int} {x : Double}

theorem Text.visible_of_isDigit {u : UInt16} (digit : isDigit u = true) : isBlank u = false := by
  obtain ⟨low, high⟩ := toNat_of_isDigit digit
  exact isBlank_of_visible (by omega) (by omega)

theorem Numeral.sign_digits (digits : ∀ u ∈ ds, Text.isDigit u = true) :
    sign ds = (false, ds) := by
  unfold sign
  split
  · cases digits 43 List.mem_cons_self
  · cases digits 45 List.mem_cons_self
  · rfl

/-- A sign, or its absence, and what follows. -/
theorem Numeral.sign_cases (t : Text) :
    (∃ rest, t = 43 :: rest ∧ sign t = (false, rest)) ∨
      (∃ rest, t = 45 :: rest ∧ sign t = (true, rest)) ∨
      sign t = (false, t) := by
  unfold sign
  split
  · exact .inl ⟨_, rfl, rfl⟩
  · exact .inr (.inl ⟨_, rfl, rfl⟩)
  · exact .inr (.inr rfl)

/-- A decimal without places after the point is read as the number nearest to it. -/
theorem Double.rounds_ofDecimal (neg : Bool) {d : Decimal} (whole : 0 ≤ d.exponent) :
    (ofDecimal neg d).Rounds (if neg then -(d.num : Int) else d.num) := by
  have magnitude : (if neg then -(d.num : Int) else d.num).natAbs = d.num := by
    cases neg
    · rfl
    · exact Int.natAbs_neg d.num
  refine ⟨neg, ?_, ?_⟩
  · have den : d.den = 1 := by rw [d.den_eq, Int.toNat_of_nonpos (by omega), Nat.pow_zero]
    rw [ofDecimal_eq, den, magnitude]
  · rw [magnitude]

/-- A numeral is read as the number nearest to the integer that it denotes. -/
theorem Double.rounds_digits (neg : Bool) (n : Nat) :
    (ofDecimal neg ⟨n, 0⟩).Rounds (if neg then -(n : Int) else n) := by
  have rounds := @rounds_ofDecimal neg ⟨n, 0⟩ (Int.le_refl 0)
  rwa [Decimal.num_eq, Int.toNat_zero, Nat.pow_zero, Nat.mul_one] at rounds

/-- Digits after a sign are read, and nothing else. -/
theorem Numeral.integer?_eq_some {neg : Bool} (signed : sign t = (neg, ds)) :
    integer? t = some x ↔ ds ≠ [] ∧ (∀ u ∈ ds, Text.isDigit u = true) ∧
      Double.ofDecimal neg ⟨Text.digitsValue ds, 0⟩ = x := by
  unfold integer?
  rw [signed]
  dsimp only
  rw [Option.ite_none_right_eq_some, Option.some.injEq, List.all_eq_true, and_assoc]

/-- What denotes an integer is read, as the nearest number. -/
theorem Numeral.Denotes.integer? (denotes : Numeral.Denotes t n) :
    ∃ x, Numeral.integer? t = some x ∧ x.Rounds n := by
  cases denotes with
  | unsigned some digits =>
    exact ⟨_, (Numeral.integer?_eq_some (Numeral.sign_digits digits)).2 ⟨some, digits, rfl⟩,
      Double.rounds_digits false _⟩
  | plus some digits =>
    exact ⟨_, (Numeral.integer?_eq_some rfl).2 ⟨some, digits, rfl⟩, Double.rounds_digits false _⟩
  | minus some digits =>
    exact ⟨_, (Numeral.integer?_eq_some rfl).2 ⟨some, digits, rfl⟩, Double.rounds_digits true _⟩

/-- What is read denotes an integer: the reader accepts nothing else. -/
theorem Numeral.exists_denotes (read : Numeral.integer? t = some x) :
    ∃ n, Numeral.Denotes t n ∧ x.Rounds n := by
  rcases Numeral.sign_cases t with ⟨ds, rfl, signed⟩ | ⟨ds, rfl, signed⟩ | signed
  · obtain ⟨some, digits, rfl⟩ := (Numeral.integer?_eq_some signed).1 read
    exact ⟨_, .plus some digits, Double.rounds_digits false _⟩
  · obtain ⟨some, digits, rfl⟩ := (Numeral.integer?_eq_some signed).1 read
    exact ⟨_, .minus some digits, Double.rounds_digits true _⟩
  · obtain ⟨some, digits, rfl⟩ := (Numeral.integer?_eq_some signed).1 read
    exact ⟨_, .unsigned some digits, Double.rounds_digits false _⟩

end Numerals

/-! ## Texts -/

section Texts

variable {t : Text} {n : Int}

/-- An integer has no white space in it. -/
theorem Numeral.Denotes.visible (denotes : Numeral.Denotes t n) :
    t ≠ [] ∧ ∀ u ∈ t, Text.isBlank u = false := by
  cases denotes with
  | unsigned some digits =>
    exact ⟨some, fun u listed => Text.visible_of_isDigit (digits u listed)⟩
  | plus some digits =>
    refine ⟨List.cons_ne_nil _ _, List.forall_mem_cons.2 ⟨by decide, fun u listed => ?_⟩⟩
    exact Text.visible_of_isDigit (digits u listed)
  | minus some digits =>
    refine ⟨List.cons_ne_nil _ _, List.forall_mem_cons.2 ⟨by decide, fun u listed => ?_⟩⟩
    exact Text.visible_of_isDigit (digits u listed)

/-- White space around an integer is what trimming takes off. -/
theorem Text.writesInt_iff : t.WritesInt n ↔ Numeral.Denotes t.trim n := by
  constructor
  · rintro ⟨front, body, back, rfl, blankFront, blankBack, denotes⟩
    obtain ⟨some, visible⟩ := denotes.visible
    rwa [trim_frame blankFront blankBack some
      (fun u first => visible u (List.mem_of_mem_head? first))]
    exact fun u last => visible u (List.mem_reverse.1 (List.mem_of_mem_head? last))
  · intro denotes
    obtain ⟨front, back, same, blankFront, blankBack⟩ := t.exists_frame
    exact ⟨front, t.trim, back, same, blankFront, blankBack, denotes⟩

/-- A text that is an integer is read as the number nearest to it. -/
theorem Text.WritesInt.read (writes : t.WritesInt n) :
    ∃ x, Numeral.integer? t.trim = some x ∧ x.Rounds n :=
  (Text.writesInt_iff.1 writes).integer?

/-- A text that is read is an integer. -/
theorem Text.exists_writesInt {x : Double} (read : Numeral.integer? t.trim = some x) :
    ∃ n, t.WritesInt n ∧ x.Rounds n := by
  obtain ⟨n, denotes, rounds⟩ := Numeral.exists_denotes read
  exact ⟨n, Text.writesInt_iff.2 denotes, rounds⟩

end Texts

end RowExpr
