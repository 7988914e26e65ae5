import Mathlib.Algebra.Group.Int.Defs
import RowExpr.Expr.Evaluation
import RowExpr.Proofs.Number.Exact

/-!
Integral expressions and their meaning in two's complement.

A tree of type `Integral w` has fields, literals, operators and casts for its nodes,
each of 8, 16 or 32 bits; the operands of an operator have the width of its node.
`Integral.eval` computes it on words of these widths and knows nothing of
floating-point numbers, `Integral.expr` is the expression that it stands for. On
records whose fields hold integers in range, the expression evaluates to the integer
that the word denotes (`Integral.eval_expr`).
-/

namespace RowExpr

/-! ## Widths -/

/-- The integral types of fixed width. -/
inductive Width where
  | byte | short | int
deriving DecidableEq

def Width.bits : Width → Nat
  | .byte => 8
  | .short => 16
  | .int => 32

def Width.primitive : Width → Primitive
  | .byte => .byte
  | .short => .short
  | .int => .int

def Width.type (w : Width) : Ty := .basic (.primitive w.primitive)

/-- The integers that a width has in two's complement. -/
def Width.InRange (w : Width) (n : Int) : Prop := -(2 ^ (w.bits - 1)) ≤ n ∧ n < 2 ^ (w.bits - 1)

instance (w : Width) (n : Int) : Decidable (w.InRange n) :=
  inferInstanceAs (Decidable (-(2 ^ (w.bits - 1)) ≤ n ∧ n < 2 ^ (w.bits - 1)))

/-- A word taken to another width: the sign fills the new bits, or the high bits are cut off. -/
def Width.convert {v : Width} (a : BitVec v.bits) (w : Width) : BitVec w.bits :=
  if v.bits < w.bits then a.signExtend w.bits else a.setWidth w.bits

theorem Width.bits_pos (w : Width) : 0 < w.bits := by
  cases w <;> decide

theorem Width.bits_le (w : Width) : w.bits ≤ 32 := by
  cases w <;> decide

/-- A word of some width is in the range of its type. -/
theorem Width.inRange_toInt {w : Width} (a : BitVec w.bits) : w.InRange a.toInt :=
  ⟨BitVec.le_toInt a, BitVec.toInt_lt⟩

/-- An integer in range is exact as a word. -/
theorem Width.toInt_ofInt {w : Width} {n : Int} (inRange : w.InRange n) :
    (BitVec.ofInt w.bits n).toInt = n :=
  BitVec.toInt_ofInt_eq_self w.bits_pos inRange.1 inRange.2

theorem Width.InRange.natAbs_le {w : Width} {n : Int} (inRange : w.InRange n) :
    n.natAbs ≤ 2 ^ (w.bits - 1) := by
  obtain ⟨low, high⟩ := inRange
  have power : ((2 ^ (w.bits - 1) : Nat) : Int) = 2 ^ (w.bits - 1) := Int.natCast_pow 2 _
  rw [← power] at low high
  omega

/-- The widest of these types has 32 bits. -/
theorem Width.InRange.natAbs_le_int {w : Width} {n : Int} (inRange : w.InRange n) :
    n.natAbs ≤ 2 ^ 31 := by
  have bits := w.bits_le
  exact Nat.le_trans inRange.natAbs_le (Nat.pow_le_pow_right Nat.two_pos (by omega))

/-- Either conversion gives the word of the same integer. -/
theorem Width.convert_eq {v : Width} (a : BitVec v.bits) (w : Width) :
    Width.convert a w = BitVec.ofInt w.bits a.toInt := by
  unfold convert
  split
  · rfl
  · next narrower => exact (BitVec.signExtend_eq_setWidth_of_le a (Nat.not_lt.1 narrower)).symm

/-- The low bits of an integer do not depend on how many bits were kept before. -/
theorem Width.setWidth_ofInt (w : Width) (n : Int) :
    (BitVec.ofInt 32 n).setWidth w.bits = BitVec.ofInt w.bits n := by
  rw [← BitVec.signExtend_eq_setWidth_of_le _ w.bits_le]
  refine BitVec.eq_of_toInt_eq ?_
  rw [BitVec.toInt_signExtend, BitVec.toInt_ofInt, BitVec.toInt_ofInt, Nat.min_eq_left w.bits_le,
    Int.bmod_bmod_of_dvd (Nat.pow_dvd_pow 2 w.bits_le)]

/-- The absolute value of a word is the word of the absolute value, also where this is out of
range. -/
theorem Width.ofInt_natAbs {k : Nat} (p : BitVec k) : BitVec.ofInt k p.toInt.natAbs = p.abs := by
  rw [BitVec.abs_eq, BitVec.msb_eq_toInt]
  split
  · next neg =>
    have below : p.toInt ≤ 0 := Int.le_of_lt (of_decide_eq_true neg)
    rw [Int.ofNat_natAbs_of_nonpos below, BitVec.ofInt_neg, BitVec.ofInt_toInt]
  · next nonneg =>
    have above : 0 ≤ p.toInt := Int.not_lt.1 fun neg => nonneg (decide_eq_true neg)
    rw [Int.natAbs_of_nonneg above, BitVec.ofInt_toInt]

/-! ## Operators -/

/-- The binary operators on words. -/
inductive WordBinary where
  | add | sub | mul | and | or | xor
deriving DecidableEq

def WordBinary.op : WordBinary → BinaryOp
  | .add => .add
  | .sub => .sub
  | .mul => .mul
  | .and => .bitAnd
  | .or => .bitOr
  | .xor => .bitXor

def WordBinary.apply {k : Nat} (op : WordBinary) (a b : BitVec k) : BitVec k :=
  match op with
  | .add => a + b
  | .sub => a - b
  | .mul => a * b
  | .and => a &&& b
  | .or => a ||| b
  | .xor => a ^^^ b

/-- The unary operators on words. -/
inductive WordUnary where
  | negate | complement | abs
deriving DecidableEq

def WordUnary.op : WordUnary → UnaryOp
  | .negate => .negate
  | .complement => .complement
  | .abs => .abs

/-- The least word has no opposite in its width: it is its own negation and absolute value. -/
def WordUnary.apply {k : Nat} (op : WordUnary) (a : BitVec k) : BitVec k :=
  match op with
  | .negate => -a
  | .complement => ~~~a
  | .abs => a.abs

/-! ## Trees -/

/-- The integral expressions of a width. A literal is a number that is an integer of 32 bits. -/
inductive Integral : Width → Type where
  | field (w : Width) (name : Text) : Integral w
  | literal (x : Double) (n : Int) (whole : x.toInt? = some n)
    (inRange : Width.int.InRange n) : Integral .int
  | binary {w : Width} (op : WordBinary) (left right : Integral w) : Integral w
  | unary {w : Width} (op : WordUnary) (operand : Integral w) : Integral w
  | cast {v : Width} (operand : Integral v) (w : Width) : Integral w

/-- The expression of a tree; every node declares its width. -/
def Integral.expr {w : Width} : Integral w → Expr
  | .field w name => .field name w.type
  | .literal x _ _ _ => .literal (.number x) Width.int.type
  | .binary op left right => .binary op.op left.expr right.expr w.type
  | .unary op operand => .unary op.op operand.expr w.type
  | .cast operand w => .cast operand.expr w.type

/-- The word of a tree whose fields have these integers for their values. -/
def Integral.eval (values : Text → Int) {w : Width} : Integral w → BitVec w.bits
  | .field w name => BitVec.ofInt w.bits (values name)
  | .literal _ n _ _ => BitVec.ofInt Width.int.bits n
  | .binary op left right => op.apply (left.eval values) (right.eval values)
  | .unary op operand => op.apply (operand.eval values)
  | .cast operand w => Width.convert (operand.eval values) w

/-- The fields of a tree and the widths that they are read at. -/
def Integral.fields {w : Width} : Integral w → List (Text × Width)
  | .field w name => [(name, w)]
  | .literal _ _ _ _ => []
  | .binary _ left right => left.fields ++ right.fields
  | .unary _ operand => operand.fields
  | .cast operand _ => operand.fields

/-- A tree over some width is of the type of that width. -/
theorem Integral.type_expr {w : Width} (tree : Integral w) : tree.expr.type = w.type := by
  cases tree <;> rfl

/-! ## Integers as values -/

/-- A value is a number and an integer. A zero may have a sign. -/
def Value.IsInt (v : Value) (n : Int) : Prop := ∃ x, v = .number x ∧ x.toInt? = some n

section Integers

variable {v a b : Value} {m n : Int}

theorem Value.IsInt.isAbsent (whole : v.IsInt n) : v.isAbsent = false := by
  obtain ⟨x, rfl, -⟩ := whole
  rfl

theorem Value.IsInt.toNumber (whole : v.IsInt n) : v.toNumber.toInt? = some n := by
  obtain ⟨x, rfl, integer⟩ := whole
  exact integer

/-- An integer value is cut to a word as the integer is. -/
theorem Value.IsInt.toWord (whole : v.IsInt n) : v.toWord = BitVec.ofInt 32 n :=
  Double.toWord_of_toInt? whole.toNumber

theorem Value.isInt_number {x : Double} (whole : x.toInt? = some n) : (Value.number x).IsInt n :=
  ⟨x, rfl, whole⟩

/-- Numbers are added as numbers. -/
theorem Value.IsInt.add_eq (left : a.IsInt m) (right : b.IsInt n) :
    a.add b = .number (a.toNumber.add b.toNumber) := by
  obtain ⟨x, rfl, -⟩ := left
  obtain ⟨y, rfl, -⟩ := right
  rfl

/-- Narrowing to a width keeps the low bits, with the sign that they have. -/
theorem Value.narrow_type (v : Value) (w : Width) :
    v.narrow w.type = .number (Double.ofInt (v.toWord.setWidth w.bits).toInt) := by
  cases w with
  | byte => rfl
  | short => rfl
  | int =>
    rw [Width.bits, BitVec.setWidth_eq]
    rfl

/-- Narrowing keeps the low bits of an integer. -/
theorem Value.IsInt.narrow (whole : v.IsInt n) (w : Width) :
    (v.narrow w.type).IsInt (BitVec.ofInt w.bits n).toInt := by
  have small := (Width.inRange_toInt (BitVec.ofInt w.bits n)).natAbs_le_int
  rw [Value.narrow_type, whole.toWord, Width.setWidth_ofInt]
  exact Value.isInt_number (Double.toInt?_ofInt (by omega))

/-- The sign extension of a word is the same integer, so the bitwise operators work on 32 bits. -/
theorem Value.isInt_ofWord {w : Width} (p : BitVec w.bits) :
    (Value.ofWord (p.signExtend 32)).IsInt p.toInt := by
  have small := (Width.inRange_toInt p).natAbs_le_int
  refine Value.isInt_number ?_
  rw [Double.ofWord, BitVec.toInt_signExtend_of_le w.bits_le]
  exact Double.toInt?_ofInt (by omega)

end Integers

/-! ## Operators on integers -/

section Operators

variable {w : Width} {a b : Value} {p q : BitVec w.bits}

/-- The words of integers are sign extensions. -/
theorem Value.IsInt.toWord_eq (whole : a.IsInt p.toInt) : a.toWord = p.signExtend 32 :=
  whole.toWord

/-- Words of up to 16 bits have a product that is not rounded. -/
theorem Value.isInt_product (narrow : w.bits ≤ 16) (left : a.IsInt p.toInt)
    (right : b.IsInt q.toInt) :
    ((Value.number (a.toNumber.mul b.toNumber)).narrow w.type).IsInt (p * q).toInt := by
  have half : 2 ^ (w.bits - 1) ≤ 2 ^ 15 := Nat.pow_le_pow_right Nat.two_pos (by omega)
  have smallLeft := Nat.le_trans (Width.inRange_toInt p).natAbs_le half
  have smallRight := Nat.le_trans (Width.inRange_toInt q).natAbs_le half
  have small : (p.toInt * q.toInt).natAbs < 2 ^ 53 := by
    rw [Int.natAbs_mul]
    exact Nat.lt_of_le_of_lt (Nat.mul_le_mul smallLeft smallRight) (by decide)
  have word :=
    (Value.isInt_number (Double.toInt?_mul left.toNumber right.toNumber small)).narrow w
  rwa [BitVec.ofInt_mul, BitVec.ofInt_toInt, BitVec.ofInt_toInt] at word

/-- The product of words of 32 bits would be rounded as a number; it is taken on the words. -/
theorem Value.isInt_wordProduct {p q : BitVec 32} (left : a.IsInt p.toInt)
    (right : b.IsInt q.toInt) : (Value.ofWord (a.toWord * b.toWord)).IsInt (p * q).toInt := by
  rw [left.toWord, right.toWord, BitVec.ofInt_toInt, BitVec.ofInt_toInt]
  exact Value.isInt_number (Double.toInt?_ofInt (Double.natAbs_toInt_lt (p * q)))

/-- A binary operator of a width, on integers of this width, computes with their words. -/
theorem WordBinary.eval_isInt (op : WordBinary) (leftType rightType : Ty) (left : a.IsInt p.toInt)
    (right : b.IsInt q.toInt) :
    ∃ v, op.op.eval w.type leftType rightType a b = .ok v ∧ v.IsInt (op.apply p q).toInt := by
  have smallLeft := (Width.inRange_toInt p).natAbs_le_int
  have smallRight := (Width.inRange_toInt q).natAbs_le_int
  cases op with
  | add =>
    refine ⟨_, rfl, ?_⟩
    have sum := Value.isInt_number (Double.toInt?_add left.toNumber right.toNumber (by omega))
    have word := (left.add_eq right ▸ sum).narrow w
    rwa [BitVec.ofInt_add, BitVec.ofInt_toInt, BitVec.ofInt_toInt] at word
  | sub =>
    refine ⟨_, rfl, ?_⟩
    have difference :=
      Value.isInt_number (Double.toInt?_sub left.toNumber right.toNumber (by omega))
    have word := difference.narrow w
    rwa [Int.sub_eq_add_neg, BitVec.ofInt_add, BitVec.ofInt_neg, BitVec.ofInt_toInt,
      BitVec.ofInt_toInt, ← BitVec.sub_eq_add_neg] at word
  | mul =>
    cases w with
    | byte => exact ⟨_, rfl, Value.isInt_product (by decide) left right⟩
    | short => exact ⟨_, rfl, Value.isInt_product (by decide) left right⟩
    | int => exact ⟨_, rfl, Value.isInt_wordProduct left right⟩
  | and =>
    refine ⟨_, rfl, ?_⟩
    rw [left.toWord_eq, right.toWord_eq, ← BitVec.signExtend_and]
    exact Value.isInt_ofWord (p &&& q)
  | or =>
    refine ⟨_, rfl, ?_⟩
    rw [left.toWord_eq, right.toWord_eq, ← BitVec.signExtend_or]
    exact Value.isInt_ofWord (p ||| q)
  | xor =>
    refine ⟨_, rfl, ?_⟩
    rw [left.toWord_eq, right.toWord_eq, ← BitVec.signExtend_xor]
    exact Value.isInt_ofWord (p ^^^ q)

/-- A unary operator of a width, on an integer of this width, computes with its word. -/
theorem WordUnary.eval_isInt (op : WordUnary) (whole : a.IsInt p.toInt) :
    (op.op.eval w.type a).IsInt (op.apply p).toInt := by
  cases op with
  | negate =>
    have word := (Value.isInt_number (Double.toInt?_neg whole.toNumber)).narrow w
    rwa [BitVec.ofInt_neg, BitVec.ofInt_toInt] at word
  | complement =>
    rw [WordUnary.op, UnaryOp.eval, whole.toWord_eq, ← BitVec.signExtend_not w.bits_pos]
    exact Value.isInt_ofWord (~~~p)
  | abs =>
    have word := (Value.isInt_number (Double.toInt?_abs whole.toNumber)).narrow w
    rwa [Width.ofInt_natAbs] at word

/-- A cast between widths changes nothing or narrows. -/
theorem Value.cast_type [TimeZones] (zone : Text) (v w : Width) (a : Value) :
    a.cast zone v.type w.type = .ok (if v = w then a else a.narrow w.type) := by
  cases v <;> cases w <;> rfl

/-- A cast between widths extends the sign or keeps the low bits. -/
theorem Value.IsInt.cast [TimeZones] {v : Width} {p : BitVec v.bits} (whole : a.IsInt p.toInt)
    (zone : Text) (w : Width) :
    ∃ c, a.cast zone v.type w.type = .ok c ∧ c.IsInt (Width.convert p w).toInt := by
  refine ⟨_, Value.cast_type zone v w a, ?_⟩
  rw [Width.convert_eq]
  split
  · next same =>
    subst same
    rwa [BitVec.ofInt_toInt]
  · exact whole.narrow w

end Operators

/-! ## Evaluation -/

/-- The records have an integer in the range of its width for every field of a tree. -/
def Integral.Reads {w : Width} (tree : Integral w) (values : Text → Int) (inputs : List Input)
    (records : List Value) : Prop :=
  ∀ name width, (name, width) ∈ tree.fields →
    width.InRange (values name) ∧ ∃ v, Input.read name inputs records = .ok v ∧
    v.IsInt (values name)

theorem Environment.guarded_present (env : Environment) (type : Ty) {value : Except Fault Value}
    {v : Value} (computed : value = .ok v) : env.guarded false type value = .ok ⟨v, false⟩ := by
  rw [computed]
  rfl

/-- An integral expression is present on such records, and its value is the integer of its
word. -/
theorem Integral.eval_expr [TimeZones] {env : Environment} {values : Text → Int} {w : Width}
    (tree : Integral w) (reads : tree.Reads values env.inputs env.records) :
    ∃ v, tree.expr.eval env = .ok ⟨v, false⟩ ∧ v.IsInt (tree.eval values).toInt := by
  induction tree with
  | field w name =>
    obtain ⟨inRange, v, read, whole⟩ := reads name w (List.mem_singleton_self _)
    refine ⟨v, ?_, ?_⟩
    · rw [expr, Expr.eval, read]
      change Except.ok (Outcome.mk v (env.nullCheck && v.isAbsent)) = _
      rw [whole.isAbsent, Bool.and_false]
    · rwa [eval, Width.toInt_ofInt inRange]
  | literal x n whole inRange =>
    refine ⟨.number x.written, ?_, ?_⟩
    · rw [expr, Expr.eval]
      change Except.ok (Outcome.mk (.number x.written) (env.nullCheck && false)) = _
      rw [Bool.and_false]
    · rw [eval, Width.toInt_ofInt inRange]
      exact Value.isInt_number (Double.toInt?_written whole)
  | @binary w op left right ihl ihr =>
    obtain ⟨a, evaluatedLeft, wholeLeft⟩ := ihl fun name width inside =>
      reads name width (List.mem_append_left _ inside)
    obtain ⟨b, evaluatedRight, wholeRight⟩ := ihr fun name width inside =>
      reads name width (List.mem_append_right _ inside)
    obtain ⟨v, computed, whole⟩ :=
      op.eval_isInt left.expr.type right.expr.type wholeLeft wholeRight
    refine ⟨v, ?_, whole⟩
    rw [expr, Expr.eval, evaluatedLeft, evaluatedRight]
    exact env.guarded_present (if op.op.isTest then .boolean else w.type) computed
  | unary op operand ih =>
    obtain ⟨a, evaluated, whole⟩ := ih reads
    refine ⟨_, ?_, op.eval_isInt whole⟩
    rw [expr, Expr.eval, evaluated]
    exact env.guarded_present operand.expr.type rfl
  | cast operand w ih =>
    obtain ⟨a, evaluated, whole⟩ := ih reads
    obtain ⟨c, converted, converts⟩ := whole.cast env.zone w
    refine ⟨c, ?_, converts⟩
    rw [expr, Expr.eval, evaluated, operand.type_expr]
    exact env.guarded_present w.type converted

end RowExpr
