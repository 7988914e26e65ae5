import RowExpr.Calendar.Offsets
import RowExpr.Proofs.Expr.Integral
import RowExpr.Proofs.Number.Division
import RowExpr.Proofs.Projection

/-!
Division of integral expressions.

A quotient of an integral type is computed as a floating-point quotient whose fraction is
dropped, a remainder as a floating-point remainder. Both are exact, for all integers of the
type: they are the quotient toward zero and the remainder with the sign of the dividend, and
the quotient times the divisor plus the remainder is the dividend again, although the least
integer of a type of fixed width has a quotient by -1 that wraps around. A divisor that is
zero stops both (`Query.division_exact`).
-/

namespace RowExpr

/-! ## Integral types -/

/-- The integral types: those of fixed width, and the one of the safe integers. -/
inductive Whole where
  | width (w : Width)
  | long
deriving DecidableEq

def Whole.type : Whole → Ty
  | .width w => w.type
  | .long => .basic .long

def Whole.InRange : Whole → Int → Prop
  | .width w, n => w.InRange n
  | .long, n => -9007199254740991 ≤ n ∧ n ≤ 9007199254740991

instance (T : Whole) (n : Int) : Decidable (T.InRange n) :=
  match T with
  | .width w => inferInstanceAs (Decidable (w.InRange n))
  | .long => inferInstanceAs (Decidable (_ ∧ _))

/-- What is kept of an integer: the low bits in a type of fixed width. Nothing wraps around in the
other one. -/
def Whole.wrap : Whole → Int → Int
  | .width w, n => (BitVec.ofInt w.bits n).toInt
  | .long, n => n

section Range

variable {T : Whole} {l r n : Int}

theorem Whole.isIntegral_type (T : Whole) : T.type.isIntegral = true := by
  rcases T with w | _
  · cases w <;> rfl
  · rfl

/-- Integers of every integral type are exact as numbers. -/
theorem Whole.InRange.natAbs_lt (inRange : T.InRange n) : n.natAbs < 2 ^ 53 := by
  rcases T with w | _
  · have := Width.InRange.natAbs_le_int inRange
    omega
  · obtain ⟨low, high⟩ := inRange
    omega

/-- Wrapping leaves alone what is in range. -/
theorem Whole.wrap_of_inRange (inRange : T.InRange n) : T.wrap n = n := by
  rcases T with w | _
  · exact Width.toInt_ofInt inRange
  · rfl

/-- The range reaches from zero to each of its integers. -/
theorem Whole.InRange.between (inRange : T.InRange n) {m : Int}
    (inside : 0 ≤ m ∧ m ≤ n ∨ n ≤ m ∧ m ≤ 0) : T.InRange m := by
  rcases T with w | _
  · obtain ⟨low, high⟩ := inRange
    have power : (0 : Int) < 2 ^ (w.bits - 1) := Int.pow_pos (by decide)
    exact ⟨by omega, by omega⟩
  · obtain ⟨low, high⟩ := inRange
    exact ⟨by omega, by omega⟩

/-- A remainder is no larger than the dividend, so it stays in range. -/
theorem Whole.InRange.tmod (inRange : T.InRange l) (r : Int) : T.InRange (l.tmod r) := by
  have size : (l.tmod r).natAbs ≤ l.natAbs := by
    rw [Int.natAbs_tmod]
    exact Nat.mod_le _ _
  refine inRange.between ?_
  rcases Int.le_total 0 l with nonneg | nonpos
  · have := Int.tmod_nonneg r nonneg
    omega
  · have := Int.tmod_nonneg r (Int.neg_nonneg_of_nonpos nonpos)
    rw [Int.neg_tmod] at this
    omega

end Range

/-! ## Operators -/

section Operators

variable {T : Whole} {a b : Value} {l r : Int}

theorem Value.IsInt.narrow_whole {v : Value} {n : Int} (whole : v.IsInt n) (T : Whole) :
    (v.narrow T.type).IsInt (T.wrap n) := by
  rcases T with w | _
  · exact whole.narrow w
  · exact whole

/-- A divisor is refused if and only if it is zero. -/
theorem Value.IsInt.divisor (whole : b.IsInt r) :
    Conversion.divisor b = if r = 0 then .error (.arithmetic "/ by zero") else .ok b := by
  obtain ⟨y, rfl, integer⟩ := whole
  rw [Conversion.divisor, Double.isZero_of_toInt? integer]
  simp only [decide_eq_true_eq]
  rfl

/-- An integral quotient or remainder asks for its divisor first. -/
theorem Whole.eval_division (T : Whole) (leftType rightType : Ty) (right : b.IsInt r)
    (nonzero : r ≠ 0) :
    BinaryOp.div.eval T.type leftType rightType a b =
        .ok ((Value.number (a.toNumber.div b.toNumber).trunc).narrow T.type) ∧
      BinaryOp.rem.eval T.type leftType rightType a b =
        .ok ((Value.number (a.toNumber.rem b.toNumber)).narrow T.type) := by
  have divisor := right.divisor
  rw [if_neg nonzero] at divisor
  simp only [BinaryOp.eval, T.isIntegral_type, if_true, divisor]
  exact ⟨rfl, rfl⟩

/-- Division and remainder by zero stop with the same fault. -/
theorem Whole.eval_division_by_zero (T : Whole) (leftType rightType : Ty) (right : b.IsInt 0) :
    BinaryOp.div.eval T.type leftType rightType a b = .error (.arithmetic "/ by zero") ∧
      BinaryOp.rem.eval T.type leftType rightType a b = .error (.arithmetic "/ by zero") := by
  have divisor := right.divisor
  rw [if_pos rfl] at divisor
  simp only [BinaryOp.eval, T.isIntegral_type, if_true, divisor]
  exact ⟨rfl, rfl⟩

/-- A quotient is cut off towards zero, then wrapped. -/
theorem Whole.eval_div (leftType rightType : Ty) (left : a.IsInt l) (right : b.IsInt r)
    (inLeft : T.InRange l) (inRight : T.InRange r) (nonzero : r ≠ 0) :
    ∃ v, BinaryOp.div.eval T.type leftType rightType a b = .ok v ∧
      v.IsInt (T.wrap (l.tdiv r)) := by
  refine ⟨_, (T.eval_division leftType rightType right nonzero).1, ?_⟩
  have quotient :=
    Double.toInt?_trunc_div left.toNumber right.toNumber nonzero inLeft.natAbs_lt
      inRight.natAbs_lt
  exact (Value.isInt_number quotient).narrow_whole T

/-- A remainder has the sign of the dividend, and is not wrapped. -/
theorem Whole.eval_rem (leftType rightType : Ty) (left : a.IsInt l) (right : b.IsInt r)
    (inLeft : T.InRange l) (nonzero : r ≠ 0) :
    ∃ v, BinaryOp.rem.eval T.type leftType rightType a b = .ok v ∧ v.IsInt (l.tmod r) := by
  refine ⟨_, (T.eval_division leftType rightType right nonzero).2, ?_⟩
  have remainder := Double.toInt?_rem left.toNumber right.toNumber nonzero inLeft.natAbs_lt
  have kept := (Value.isInt_number remainder).narrow_whole T
  rwa [Whole.wrap_of_inRange (inLeft.tmod r)] at kept

/-- Multiplied by the divisor and increased by the remainder, the quotient gives the dividend,
also where it has wrapped around. -/
theorem Whole.eval_recomposition {v w : Value} (leftType rightType : Ty)
    (quotient : v.IsInt (T.wrap (l.tdiv r))) (right : b.IsInt r)
    (remainder : w.IsInt (l.tmod r)) (inLeft : T.InRange l) (inRight : T.InRange r) :
    ∃ product sum, BinaryOp.mul.eval T.type T.type rightType v b = .ok product ∧
      BinaryOp.add.eval T.type leftType T.type product w = .ok sum ∧ sum.IsInt l := by
  have whole : l.tdiv r * r + l.tmod r = l := Int.tdiv_mul_add_tmod l r
  rcases T with width | _
  · rw [← Width.toInt_ofInt inRight] at right
    rw [← Width.toInt_ofInt (Whole.InRange.tmod inLeft r)] at remainder
    obtain ⟨product, computed, times⟩ :=
      WordBinary.eval_isInt .mul width.type rightType quotient right
    obtain ⟨sum, computed', plus⟩ :=
      WordBinary.eval_isInt .add leftType width.type times remainder
    refine ⟨product, sum, computed, computed', ?_⟩
    rwa [WordBinary.apply, WordBinary.apply, ← BitVec.ofInt_mul, ← BitVec.ofInt_add, whole,
      Width.toInt_ofInt inLeft] at plus
  · have small : (l.tdiv r * r).natAbs < 2 ^ 53 := by
      have := Whole.InRange.natAbs_lt inLeft
      rw [Int.natAbs_mul, Int.natAbs_tdiv]
      exact Nat.lt_of_le_of_lt (Nat.div_mul_le_self _ _) this
    have times := Value.isInt_number (Double.toInt?_mul quotient.toNumber right.toNumber small)
    have plus :=
      Double.toInt?_add times.toNumber remainder.toNumber
        (whole.symm ▸ Whole.InRange.natAbs_lt inLeft)
    refine ⟨_, _, rfl, rfl, ?_⟩
    show ((Value.number (v.toNumber.mul b.toNumber)).add w).IsInt l
    rw [times.add_eq remainder]
    exact Value.isInt_number (plus.trans (congrArg some whole))

end Operators

/-! ## Expressions -/

/-- The quotient of two expressions, in an integral type. -/
def Expr.quotient (T : Whole) (left right : Expr) : Expr := .binary .div left right T.type

/-- The remainder of two expressions, in an integral type. -/
def Expr.remainder (T : Whole) (left right : Expr) : Expr := .binary .rem left right T.type

/-- The quotient, multiplied by the divisor and increased by the remainder. -/
def Expr.recomposed (T : Whole) (left right : Expr) : Expr :=
  .binary .add (.binary .mul (.quotient T left right) right T.type)
    (.remainder T left right) T.type

/-- The expression is present, and this integer. -/
def Expr.Counts [TimeZones] (env : Environment) (e : Expr) (n : Int) : Prop :=
  ∃ v, e.eval env = .ok ⟨v, false⟩ ∧ v.IsInt n

section Trees

variable {env : Environment} {T : Whole} {left right : Expr} {l r : Int}

theorem Expr.division_by_zero [TimeZones] (T : Whole) (countsLeft : left.Counts env l)
    (countsRight : right.Counts env 0) :
    (Expr.quotient T left right).eval env = .error (.arithmetic "/ by zero") ∧
      (Expr.remainder T left right).eval env = .error (.arithmetic "/ by zero") := by
  obtain ⟨a, evaluatedLeft, -⟩ := countsLeft
  obtain ⟨b, evaluatedRight, zero⟩ := countsRight
  obtain ⟨quotient, remainder⟩ := @Whole.eval_division_by_zero a b T left.type right.type zero
  rw [Expr.quotient, Expr.remainder, Expr.eval_binary_present evaluatedLeft evaluatedRight,
    Expr.eval_binary_present evaluatedLeft evaluatedRight, quotient, remainder]
  exact ⟨rfl, rfl⟩

theorem Expr.division_counts [TimeZones] (countsLeft : left.Counts env l)
    (countsRight : right.Counts env r) (inLeft : T.InRange l) (inRight : T.InRange r)
    (nonzero : r ≠ 0) :
    (Expr.quotient T left right).Counts env (T.wrap (l.tdiv r)) ∧
      (Expr.remainder T left right).Counts env (l.tmod r) ∧
      (Expr.recomposed T left right).Counts env l := by
  obtain ⟨a, evaluatedLeft, whole⟩ := countsLeft
  obtain ⟨b, evaluatedRight, whole'⟩ := countsRight
  obtain ⟨v, divided, quotient⟩ :=
    Whole.eval_div left.type right.type whole whole' inLeft inRight nonzero
  obtain ⟨w, left_over, remainder⟩ :=
    Whole.eval_rem left.type right.type whole whole' inLeft nonzero
  obtain ⟨product, sum, multiplied, added, restored⟩ :=
    Whole.eval_recomposition T.type right.type quotient whole' remainder inLeft inRight
  have first : (Expr.quotient T left right).eval env = .ok ⟨v, false⟩ := by
    rw [Expr.quotient, Expr.eval_binary_present evaluatedLeft evaluatedRight, divided]
    rfl
  have second : (Expr.remainder T left right).eval env = .ok ⟨w, false⟩ := by
    rw [Expr.remainder, Expr.eval_binary_present evaluatedLeft evaluatedRight, left_over]
    rfl
  have third : (Expr.binary .mul (.quotient T left right) right T.type).eval env =
      .ok ⟨product, false⟩ := by
    rw [Expr.eval_binary_present first evaluatedRight]
    exact congrArg (· >>= _) multiplied
  refine ⟨⟨v, first, quotient⟩, ⟨w, second, remainder⟩, sum, ?_, restored⟩
  rw [Expr.recomposed, Expr.eval_binary_present third second]
  exact congrArg (· >>= _) added

end Trees

/-! ## Projections -/

/-- On the records, the projection of one expression gives a number that is this integer. -/
def Query.Gives [TimeZones] (q : Query) (records : List Value) (n : Int) : Prop :=
  ∃ v, q.run records = .ok (.array .made [v]) ∧ v.IsInt n

section Projections

variable [TimeZones] {inputs : List Input} {given : GivenOptions} {new : Session}
    {e : Expr} {q : Query}
  (created : Session.create inputs given = .ok new)
  (built : (Query.projection inputs [e] given).outcome = .ok q) {records : List Value}

include created built

/-- A projection gives an integer exactly if its expression is present and that integer. -/
theorem Query.gives_iff {n : Int} :
    q.Gives records n ↔ e.Counts (new.environment Ty.defaultValue records) n := by
  constructor
  · rintro ⟨v, ran, whole⟩
    exact ⟨v, (Query.returns_iff created built whole.isAbsent).1 ran, whole⟩
  · rintro ⟨v, evaluated, whole⟩
    exact ⟨v, (Query.returns_iff created built whole.isAbsent).2 evaluated, whole⟩

end Projections

/-- Division in an integral type is exact, for all inputs and options and all operands that can be
compiled. The quotient, the remainder and the product of quotient and divisor plus the remainder
can then be compiled too. On records on which the operands are integers of the type, a divisor
that is zero stops quotient and remainder; by any other the quotient is the one toward zero,
wrapped around in a type of fixed width, the remainder has the sign of the dividend, and the two
give the dividend again. -/
theorem Query.division_exact [TimeZones] {inputs : List Input} {given : GivenOptions}
    (T : Whole) {left right : Expr} {p p' : Query}
    (builtLeft : (Query.projection inputs [left] given).outcome = .ok p)
    (builtRight : (Query.projection inputs [right] given).outcome = .ok p') :
    ∃ quotient remainder recomposed : Query,
      (Query.projection inputs [.quotient T left right] given).outcome = .ok quotient ∧
      (Query.projection inputs [.remainder T left right] given).outcome = .ok remainder ∧
      (Query.projection inputs [.recomposed T left right] given).outcome = .ok recomposed ∧
      ∀ records l r, T.InRange l → T.InRange r → p.Gives records l → p'.Gives records r →
        (r = 0 → quotient.run records = .error (.arithmetic "/ by zero") ∧
          remainder.run records = .error (.arithmetic "/ by zero")) ∧
        (r ≠ 0 → quotient.Gives records (T.wrap (l.tdiv r)) ∧ remainder.Gives records (l.tmod r) ∧
          recomposed.Gives records l) := by
  obtain ⟨possible, legalLeft⟩ := Query.projection_built_iff.1 ⟨p, builtLeft⟩
  obtain ⟨-, legalRight⟩ := Query.projection_built_iff.1 ⟨p', builtRight⟩
  rw [List.forall_mem_singleton] at legalLeft legalRight
  have legal (op : BinaryOp) : (Expr.binary op left right T.type).AllLegal inputs :=
    Expr.allLegal_binary.2 ⟨legalLeft, legalRight⟩
  have buildable {e : Expr} (legal : e.AllLegal inputs) :
      ∃ q, (Query.projection inputs [e] given).outcome = .ok q :=
    Query.projection_built_iff.2 ⟨possible, List.forall_mem_singleton.2 legal⟩
  obtain ⟨quotient, builtQuotient⟩ := buildable (legal .div)
  obtain ⟨remainder, builtRemainder⟩ := buildable (legal .rem)
  obtain ⟨recomposed, builtRecomposed⟩ := buildable (e := .recomposed T left right)
    (Expr.allLegal_binary.2 ⟨Expr.allLegal_binary.2 ⟨legal .div, legalRight⟩, legal .rem⟩)
  refine ⟨quotient, remainder, recomposed, builtQuotient, builtRemainder, builtRecomposed, ?_⟩
  obtain ⟨new, created, -⟩ := possible
  intro records l r inLeft inRight givesLeft givesRight
  rw [Query.gives_iff created builtLeft] at givesLeft
  rw [Query.gives_iff created builtRight] at givesRight
  constructor
  · rintro rfl
    obtain ⟨stopped, stopped'⟩ := Expr.division_by_zero T givesLeft givesRight
    exact ⟨Query.run_of_eval_error created builtQuotient stopped,
      Query.run_of_eval_error created builtRemainder stopped'⟩
  · intro nonzero
    rw [Query.gives_iff created builtQuotient, Query.gives_iff created builtRemainder,
      Query.gives_iff created builtRecomposed]
    exact Expr.division_counts givesLeft givesRight inLeft inRight nonzero

def Input.fraction : List Input :=
  [⟨"row", .plain .pojo [.mk "l" Width.byte.type, .mk "r" Width.byte.type]⟩]

def Value.fraction (l r : Int) : List Value :=
  [.record (.given 0) [("l", .number (Double.ofInt l)), ("r", .number (Double.ofInt r))]]

section Host

open scoped Offsets

/-- In a byte, the quotient of -128 by -1 is -128 again; by zero there is none. -/
theorem Query.division_exact_least :
    ∃ p p' quotient remainder recomposed : Query,
      (Query.projection Input.fraction [.field "l" Width.byte.type] (.members [])).outcome =
        .ok p ∧
      (Query.projection Input.fraction [.field "r" Width.byte.type] (.members [])).outcome =
        .ok p' ∧
      (∀ r : Int, r = -1 ∨ r = 0 → (Whole.width .byte).InRange (-128) ∧
        (Whole.width .byte).InRange r ∧
        p.Gives (Value.fraction (-128) r) (-128) ∧ p'.Gives (Value.fraction (-128) r) r) ∧
      quotient.Gives (Value.fraction (-128) (-1)) (-128) ∧
      remainder.Gives (Value.fraction (-128) (-1)) 0 ∧
      recomposed.Gives (Value.fraction (-128) (-1)) (-128) ∧
      quotient.run (Value.fraction (-128) 0) = .error (.arithmetic "/ by zero") ∧
      remainder.run (Value.fraction (-128) 0) = .error (.arithmetic "/ by zero") := by
  obtain ⟨p, builtLeft, givesLeft⟩ : ∃ p : Query,
      (Query.projection Input.fraction [.field "l" Width.byte.type] (.members [])).outcome =
        .ok p ∧
      ∀ r, p.Gives (Value.fraction (-128) r) (-128) :=
    ⟨_, rfl, fun r => ⟨_, rfl, _, rfl, Double.toInt?_ofInt (by decide)⟩⟩
  obtain ⟨p', builtRight, givesRight⟩ : ∃ p : Query,
      (Query.projection Input.fraction [.field "r" Width.byte.type] (.members [])).outcome =
        .ok p ∧
      ∀ r : Int, r.natAbs < 2 ^ 53 → p.Gives (Value.fraction (-128) r) r :=
    ⟨_, rfl, fun r small => ⟨_, rfl, _, rfl, Double.toInt?_ofInt small⟩⟩
  obtain ⟨quotient, remainder, recomposed, -, -, -, exact⟩ :=
    Query.division_exact (.width .byte) builtLeft builtRight
  obtain ⟨-, divides⟩ :=
    exact _ (-128) (-1) (by decide) (by decide) (givesLeft _) (givesRight _ (by decide))
  obtain ⟨stops, -⟩ :=
    exact _ (-128) 0 (by decide) (by decide) (givesLeft _) (givesRight _ (by decide))
  obtain ⟨divided, rest, restored⟩ := divides (by decide)
  refine ⟨p, p', quotient, remainder, recomposed, builtLeft, builtRight, ?_, divided, rest,
    restored, stops rfl⟩
  rintro r (rfl | rfl)
  · exact ⟨by decide, by decide, givesLeft _, givesRight _ (by decide)⟩
  · exact ⟨by decide, by decide, givesLeft _, givesRight _ (by decide)⟩

end Host

end RowExpr
