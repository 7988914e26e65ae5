import RowExpr.Code.Execution
import RowExpr.Expr.Evaluation
import RowExpr.Generation.Compile
import RowExpr.Proofs.Number.Integer

/-!
What the terms of operators, casts and placeholders evaluate to.

Generated terms work with shifts, masks and calls where direct evaluation names
the result. The statements here say that both give the same value or the same
fault: `BinaryOp.eval_term`, `UnaryOp.eval_term`, `Term.eval_coerce?` and
`Ty.eval_defaultTerm`. A scope only matters through the values of the operands.
-/

namespace RowExpr

/-! ## Single operations -/

variable {σ : Scope} {l r t : Term} {a b v : Value} {f : Fault}

theorem Term.eval_name [TimeZones] (σ : Scope) (x : Name) : (Term.name x).eval σ = σ.get x := rfl

/-- The value of a number in code is what its text reads as. -/
theorem Term.eval_number [TimeZones] (σ : Scope) (x : Double) :
    (Term.number x).eval σ = .ok (.number x.written) := rfl

theorem Term.eval_paren [TimeZones] (σ : Scope) (t : Term) : (Term.paren t).eval σ = t.eval σ :=
  rfl

/-- A fault of the operand is the fault of the operation. -/
theorem Term.eval_unary_eq [TimeZones] (σ : Scope) (op : UnaryOperator) (t : Term) :
    (Term.unary op t).eval σ = (do let v ← t.eval σ; return op.apply v) := rfl

theorem Term.eval_call_eq [TimeZones] (σ : Scope) (g : Function) (t : Term) :
    (Term.call g t).eval σ = (do let v ← t.eval σ; g.apply v) := rfl

/-- The left argument is evaluated first, so its fault comes first. -/
theorem Term.eval_call₂_eq [TimeZones] (σ : Scope) (g : Function₂) (l r : Term) :
    (Term.call₂ g l r).eval σ = (do let a ← l.eval σ; let b ← r.eval σ; return g.apply a b) := rfl

theorem Term.eval_invoke_eq [TimeZones] (σ : Scope) (t : Term) (method : Text) :
    (Term.invoke t method).eval σ = (do let v ← t.eval σ; v.invoke method) := rfl

theorem Term.eval_charCode_eq [TimeZones] (σ : Scope) (t : Term) :
    t.charCode.eval σ = (do let v ← t.eval σ; v.charCode) := rfl

theorem Term.eval_unary [TimeZones] (op : UnaryOperator) (value : t.eval σ = .ok v) :
    (Term.unary op t).eval σ = .ok (op.apply v) := by
  rw [eval_unary_eq, value]
  rfl

/-- The operators that stop at their left operand give the same as if they had
looked at both. -/
theorem Term.eval_binary [TimeZones] (op : InfixOperator) (left : l.eval σ = .ok a)
    (right : r.eval σ = .ok b) : (Term.binary op l r).eval σ = .ok (op.apply a b) := by
  rw [eval, left, right]
  cases op
  case or =>
    cases truth :
      a.truthy <;> simp [InfixOperator.apply, truth, bind, Except.bind, pure, Except.pure]
  case and =>
    cases truth :
      a.truthy <;> simp [InfixOperator.apply, truth, bind, Except.bind, pure, Except.pure]
  all_goals rfl

/-- A fault of the left operand is that of the operation. -/
theorem Term.eval_binary_fault [TimeZones] (op : InfixOperator) (r : Term)
    (left : l.eval σ = .error f) : (Term.binary op l r).eval σ = .error f := by
  rw [eval, left]
  rfl

theorem Term.eval_call [TimeZones] (g : Function) (value : t.eval σ = .ok v) :
    (Term.call g t).eval σ = g.apply v := by
  rw [eval_call_eq, value]
  rfl

theorem Term.eval_call₂ [TimeZones] (g : Function₂) (left : l.eval σ = .ok a)
    (right : r.eval σ = .ok b) : (Term.call₂ g l r).eval σ = .ok (g.apply a b) := by
  rw [eval_call₂_eq, left, right]
  rfl

theorem Term.eval_invoke [TimeZones] (method : Text) (value : t.eval σ = .ok v) :
    (Term.invoke t method).eval σ = v.invoke method := by
  rw [eval_invoke_eq, value]
  rfl

/-! ## Words -/

/-- An integer below `2 ^ 53` in magnitude is written by its own numeral. -/
theorem Term.eval_int [TimeZones] (σ : Scope) {n : Int} (small : n.natAbs < 2 ^ 53) :
    (Term.int n).eval σ = .ok (.number (Double.ofInt n)) := by
  rw [int, eval_number, Double.written_ofInt small]

/-- A word is exact as a number. -/
@[simp] theorem Value.toWord_ofWord (w : BitVec 32) : (Value.ofWord w).toWord = w :=
  Double.toWord_ofWord w

/-- The word of a small integer. -/
theorem Value.toWord_number_ofInt {n : Int} (small : n.natAbs < 2 ^ 53) :
    (Value.number (Double.ofInt n)).toWord = BitVec.ofInt 32 n := by
  rw [toWord, toNumber, Double.toWord, Double.truncated?_ofInt small]

/-- Combining a number with zero by bits wraps it to a word. -/
theorem Term.eval_toWord [TimeZones] (value : t.eval σ = .ok v) :
    t.toWord.eval σ = .ok (.ofWord v.toWord) := by
  rw [toWord, eval_paren, eval_binary .bitOr value (eval_int σ (by decide)), InfixOperator.apply,
    Value.toWord_number_ofInt (by decide)]
  congr 2
  exact BitVec.or_zero

/-- Dividing out a factor of a number and of an even modulus leaves the balanced
remainder of the rest. -/
theorem bmod_mul_ediv {x : Int} {k m : Nat} (pos : 0 < k) :
    Int.bmod (x * k) (2 * m * k) / k = Int.bmod x (2 * m) := by
  have factor : (0 : Int) < k := by omega
  have modulus : ((2 * m * k : Nat) : Int) = (2 * m : Nat) * (k : Int) := by
    push_cast
    rfl
  have rest : x * k % ((2 * m * k : Nat) : Int) = x % (2 * m : Nat) * k := by
    rw [modulus, Int.mul_comm x, Int.mul_comm _ (k : Int),
      Int.mul_emod_mul_of_pos _ _ factor, Int.mul_comm]
  have half : (((2 * m * k : Nat) : Int) + 1) / 2 = m * k := by
    rw [modulus]
    push_cast
    rw [Int.mul_assoc]
    omega
  have half' : (((2 * m : Nat) : Int) + 1) / 2 = m := by omega
  unfold Int.bmod
  simp only [rest, half, half']
  by_cases low : x % (2 * m : Nat) < m
  · rw [if_pos low, if_pos (Int.mul_lt_mul_of_pos_right low factor),
      Int.mul_ediv_cancel _ (by omega)]
  · have high : ¬ x % (2 * m : Nat) * k < m * k :=
      fun h => low (Int.lt_of_mul_lt_mul_right h (Int.le_of_lt factor))
    rw [if_neg low, if_neg high, modulus, ← Int.sub_mul, Int.mul_ediv_cancel _ (by omega)]

/-- Shifting a word up and down again by `k` bits keeps its low bits, with their
leading bit as the sign. -/
theorem Value.toInt_shift_back (w : BitVec 32) {k width : Nat} (split : k + width = 31) :
    ((w <<< k).sshiftRight k).toInt = (w.setWidth (width + 1)).toInt := by
  have modulus : (2 ^ 32 : Nat) = 2 * 2 ^ width * 2 ^ k := by
    rw [← Nat.pow_succ', ← Nat.pow_add]
    congr 1
    omega
  have reduced := bmod_mul_ediv (x := w.toNat) (m := 2 ^ width) (Nat.two_pow_pos k)
  rw [BitVec.toInt_sshiftRight, BitVec.toInt_shiftLeft, BitVec.toInt_setWidth,
    Int.shiftRight_eq_div_pow, Nat.shiftLeft_eq, modulus, Nat.pow_succ']
  push_cast at reduced ⊢
  exact reduced

/-- Shifting a word left and back extends the sign of its low bits. -/
theorem Term.eval_signExtend [TimeZones] {k width : Nat} (split : k + width = 31)
    (value : t.eval σ = .ok v) :
    (t.signExtend k).eval σ =
      .ok (.number (Double.ofInt (v.toWord.setWidth (width + 1)).toInt)) := by
  have small : (k : Int).natAbs < 2 ^ 53 := by omega
  have amount : (BitVec.ofInt 32 (k : Int)).toNat % 32 = k := by
    rw [BitVec.ofInt_natCast, BitVec.toNat_ofNat]
    omega
  have up : (Term.paren (.binary .shiftLeft t (int k))).eval σ =
      .ok (.ofWord (v.toWord <<< k)) := by
    rw [eval_paren, eval_binary .shiftLeft value (eval_int σ small), InfixOperator.apply,
      Value.toWord_number_ofInt small, amount]
  rw [signExtend, eval_paren, eval_binary .shiftRight up (eval_int σ small), InfixOperator.apply,
    Value.toWord_number_ofInt small, amount, Value.toWord_ofWord, Value.ofWord, Double.ofWord,
    Value.toInt_shift_back _ split]

/-- Wrapping a term to the range of a type narrows its value, and a type without a range leaves
it. -/
theorem Term.eval_wrap [TimeZones] (σ : Scope) (t : Term) (p : Primitive) :
    ((t.wrap? p).getD t).eval σ = (t.eval σ).map fun v => v.narrow (.basic (.primitive p)) := by
  cases value : t.eval σ with
  | error f =>
    cases p with
    | int => exact eval_binary_fault .bitOr _ value
    | short => exact eval_binary_fault .shiftRight _ (eval_binary_fault .shiftLeft _ value)
    | byte => exact eval_binary_fault .shiftRight _ (eval_binary_fault .shiftLeft _ value)
    | long => exact value
    | float => exact value
    | double => exact value
    | boolean => exact value
    | char => exact value
  | ok v =>
    cases p with
    | int => exact eval_toWord value
    | short => exact eval_signExtend (show 16 + 15 = 31 from rfl) value
    | byte => exact eval_signExtend (show 24 + 7 = 31 from rfl) value
    | long => exact value
    | float => exact value
    | double => exact value
    | boolean => exact value
    | char => exact value

/-- Bringing a term into the range of a type brings its value there, and keeps
its fault. -/
theorem Term.eval_narrow [TimeZones] (σ : Scope) (t : Term) (type : Ty) :
    (t.narrow type).eval σ = (t.eval σ).map fun v => v.narrow type := by
  cases type with
  | array element => cases value : t.eval σ <;> exact value
  | composite c => cases value : t.eval σ <;> exact value
  | basic b =>
    cases b with
    | string => cases value : t.eval σ <;> exact value
    | date => cases value : t.eval σ <;> exact value
    | primitive p => exact eval_wrap σ t p

/-! ## Binary and unary operators -/

/-- Equality of two present values, by the form that their types decide. -/
theorem Term.eval_equality [TimeZones] (leftType rightType : Ty) (left : l.eval σ = .ok a)
    (right : r.eval σ = .ok b) :
    (Term.equality leftType rightType l r).eval σ =
      (Value.equality leftType rightType a b).map Value.bool := by
  unfold equality Value.equality
  split
  · rw [eval_binary .strictEq left right]
    rfl
  · split
    · rw [eval, eval_invoke "getTime" left, eval_invoke "getTime" right, Value.time, Value.time]
      cases a.invoke "getTime" with
      | error f => rfl
      | ok x =>
        cases b.invoke "getTime" with
        | error f => rfl
        | ok y => rfl
    · rw [eval_call₂ .equals left right]
      rfl

/-- A quotient or remainder whose divisor is checked. -/
theorem Term.eval_checked [TimeZones] {op : InfixOperator} (strict : op ≠ .or ∧ op ≠ .and)
    (left : l.eval σ = .ok a) (right : r.eval σ = .ok b) :
    (Term.binary op l (.call .divisor r)).eval σ = (Conversion.divisor b).map (op.apply a) := by
  have divisor : (Term.call .divisor r).eval σ = Conversion.divisor b := eval_call .divisor right
  cases checked : Conversion.divisor b with
  | ok d => exact eval_binary op left (divisor.trans checked)
  | error f =>
    rw [eval, left, divisor, checked]
    cases op
    case or => exact absurd rfl strict.1
    case and => exact absurd rfl strict.2
    all_goals rfl

/-- The term of a binary operator does what the operator does. -/
theorem BinaryOp.eval_term [TimeZones] (op : BinaryOp) (type leftType rightType : Ty)
    (left : l.eval σ = .ok a) (right : r.eval σ = .ok b) :
    (op.term type leftType rightType l r).eval σ = op.eval type leftType rightType a b := by
  cases op with
  | gt => exact Term.eval_binary .gt left right
  | ge => exact Term.eval_binary .ge left right
  | lt => exact Term.eval_binary .lt left right
  | le => exact Term.eval_binary .le left right
  | and => exact Term.eval_binary .and left right
  | or => exact Term.eval_binary .or left right
  | eq =>
    rw [term, Term.eval_equality leftType rightType left right, eval]
    cases Value.equality leftType rightType a b <;> rfl
  | ne =>
    rw [term, Term.eval_unary_eq, Term.eval_paren,
      Term.eval_equality leftType rightType left right, eval]
    cases Value.equality leftType rightType a b <;> rfl
  | add =>
    rw [term, Term.eval_narrow, Term.eval_binary .add left right]
    rfl
  | sub =>
    rw [term, Term.eval_narrow, Term.eval_binary .sub left right]
    rfl
  | mul =>
    rw [term, eval]
    split
    · exact Term.eval_call₂ .wordProduct left right
    · rw [Term.eval_narrow, Term.eval_binary .mul left right]
      rfl
  | div =>
    rw [term, eval]
    split
    · rw [Term.eval_narrow, Term.eval_call_eq, Term.eval_checked (by decide) left right]
      cases Conversion.divisor b <;> rfl
    · exact Term.eval_binary .div left right
  | rem =>
    rw [term, eval]
    split
    · rw [Term.eval_narrow, Term.eval_checked (by decide) left right]
      cases Conversion.divisor b <;> rfl
    · exact Term.eval_binary .rem left right
  | bitAnd =>
    rw [term, Term.eval_binary .bitAnd (Term.eval_toWord left) (Term.eval_toWord right),
      InfixOperator.apply, Value.toWord_ofWord, Value.toWord_ofWord]
    rfl
  | bitOr =>
    rw [term, Term.eval_binary .bitOr (Term.eval_toWord left) (Term.eval_toWord right),
      InfixOperator.apply, Value.toWord_ofWord, Value.toWord_ofWord]
    rfl
  | bitXor =>
    rw [term, Term.eval_binary .bitXor (Term.eval_toWord left) (Term.eval_toWord right),
      InfixOperator.apply, Value.toWord_ofWord, Value.toWord_ofWord]
    rfl

/-- The term of a unary operator does what the operator does. -/
theorem UnaryOp.eval_term [TimeZones] (op : UnaryOp) (type : Ty) (operand : t.eval σ = .ok v) :
    (op.term type t).eval σ = .ok (op.eval type v) := by
  cases op with
  | not => exact Term.eval_unary .not operand
  | negate =>
    rw [term, Term.eval_narrow, Term.eval_unary .negate ((Term.eval_paren σ t).trans operand)]
    rfl
  | complement =>
    rw [term, Term.eval_unary .complement (Term.eval_toWord operand), UnaryOperator.apply,
      Value.toWord_ofWord]
    rfl
  | abs =>
    rw [term, Term.eval_narrow, Term.eval_call .abs operand]
    rfl

/-! ## Casts between primitive types -/

/-- A cast from a character is one from its code, taken as a number. -/
theorem Value.coerce_char (v : Value) {target : Primitive} (other : target ≠ .char) :
    v.coerce .char target = (do let code ← v.charCode; code.coerce .double target) := by
  unfold coerce
  rw [if_neg fun same => other same.symm]
  cases v.charCode with
  | error f => rfl
  | ok code =>
    cases target
    case char => exact absurd rfl other
    all_goals rfl

/-- A character is coerced by its code. -/
theorem Term.coerce?_char (t : Term) {target : Primitive} (other : target ≠ .char) :
    t.coerce? .char target = t.charCode.coerce? .double target := by
  cases target
  case char => exact absurd rfl other
  all_goals rfl

/-- A cast from a type other than that of characters. -/
theorem Term.eval_coerce?_of_ne_char [TimeZones] (σ : Scope) {source target : Primitive}
    {converted : Term} (notChar : source ≠ .char)
    (legal : t.coerce? source target = some converted) :
    converted.eval σ = (do let v ← t.eval σ; v.coerce source target) := by
  by_cases same : source = target
  · subst same
    rw [coerce?, if_pos rfl] at legal
    cases legal
    simp only [Value.coerce, if_true]
    cases t.eval σ <;> rfl
  · rw [coerce?, if_neg same] at legal
    simp only [Value.coerce, if_neg same, if_neg notChar] at legal ⊢
    split at legal
    · cases legal
    · next numbers =>
      cases target with
      | boolean => exact absurd (.inr rfl) numbers
      | double =>
        cases legal
        cases t.eval σ <;> rfl
      | long =>
        cases legal
        rw [eval_call_eq]
        cases t.eval σ <;> rfl
      | float =>
        cases legal
        rw [eval_call_eq]
        cases t.eval σ <;> rfl
      | char =>
        cases legal
        rw [eval_call_eq]
        cases t.eval σ <;> rfl
      | int =>
        cases legal
        refine (eval_wrap σ t .int).trans ?_
        cases t.eval σ <;> rfl
      | short =>
        cases legal
        refine (eval_wrap σ t .short).trans ?_
        cases t.eval σ <;> rfl
      | byte =>
        cases legal
        refine (eval_wrap σ t .byte).trans ?_
        cases t.eval σ <;> rfl

/-- The term of a cast between primitive types does what the cast does. -/
theorem Term.eval_coerce? [TimeZones] {source target : Primitive} {converted : Term}
    (operand : t.eval σ = .ok v) (legal : t.coerce? source target = some converted) :
    converted.eval σ = v.coerce source target := by
  by_cases char : source = .char
  · subst char
    by_cases same : target = .char
    · subst same
      cases legal
      exact operand
    · rw [coerce?_char t same] at legal
      rw [eval_coerce?_of_ne_char σ (by decide) legal, Value.coerce_char v same,
        eval_charCode_eq, operand]
      rfl
  · rw [eval_coerce?_of_ne_char σ char legal, operand]
    rfl

/-! ## Placeholders -/

/-- The term that stands for an absent value of a type evaluates to the value that
an absent node of the type holds. -/
theorem Ty.eval_defaultTerm [TimeZones] (type : Ty) (σ : Scope) :
    type.defaultTerm.eval σ = .ok type.defaultValue := by
  cases type with
  | array element => rfl
  | composite c => rfl
  | basic b =>
    cases b with
    | string => rfl
    | date => rfl
    | primitive p =>
      have minusOne : Term.minusOne.written = Double.ofInt (-1) :=
        Double.written_ofInt (by decide)
      have single : (Double.ofInt (-1)).toSingle = Double.ofInt (-1) := by decide +kernel
      cases p with
      | boolean => rfl
      | char => rfl
      | float =>
        have written : (Term.fractional Term.minusOne).eval σ =
            .ok (.number (Double.ofInt (-1))) :=
          congrArg (fun x => Except.ok (Value.number x)) minusOne
        exact (Term.eval_call .single written).trans
          (congrArg (fun x => Except.ok (Value.number x)) single)
      | double => exact congrArg (fun x => Except.ok (Value.number x)) minusOne
      | int => exact congrArg (fun x => Except.ok (Value.number x)) minusOne
      | long => exact congrArg (fun x => Except.ok (Value.number x)) minusOne
      | short => exact congrArg (fun x => Except.ok (Value.number x)) minusOne
      | byte => exact congrArg (fun x => Except.ok (Value.number x)) minusOne

end RowExpr
