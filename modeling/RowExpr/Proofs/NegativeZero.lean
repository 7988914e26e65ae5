import RowExpr.Calendar.Offsets
import RowExpr.Proofs.Absence
import RowExpr.Proofs.Built
import RowExpr.Proofs.Number.SignedZero

/-!
Where integral expressions give the negative zero.

In a tree whose integral nodes are literals, fields, casts from texts and from integral types,
and arithmetic in one type, no node of a type of fixed width computes the negative zero, since
its low bits are kept as an integer. It comes in through texts that write it, and a cast to
the own type passes it on. In the type of the safe integers nothing is brought into range:
there products, quotients, remainders and negations give the negative zero, and sums,
differences and casts pass it on (`Query.negative_zero_iff`).
-/

namespace RowExpr

/-! ## Texts -/

/-- A minus sign and zeros, with nothing around them but white space. -/
def Text.WritesNegativeZero (t : Text) : Prop :=
  ∃ zeros, t.trim = minus :: zeros ∧ zeros ≠ [] ∧ ∀ u ∈ zeros, u = zeroDigit

section Texts

variable {t : Text} {neg : Bool}

/-- Digits denote zero if they are all zero. -/
theorem Text.digitsValue_eq_zero (digits : t.all isDigit = true) :
    digitsValue t = 0 ↔ ∀ u ∈ t, u = zeroDigit := by
  suffices ∀ n, t.foldl (fun n u => n * 10 + (u.toNat - 48)) n = 0 ↔
      n = 0 ∧ ∀ u ∈ t, u = zeroDigit by
    rw [digitsValue, this, and_iff_right rfl]
  induction t with
  | nil => exact fun n => ⟨fun zero => ⟨zero, List.forall_mem_nil _⟩, And.left⟩
  | cons u t ih =>
    intro n
    rw [List.all_cons, Bool.and_eq_true] at digits
    obtain ⟨low, -⟩ := toNat_of_isDigit digits.1
    have zero : u = zeroDigit ↔ u.toNat = 48 := UInt16.toNat_inj.symm
    rw [List.foldl_cons, ih digits.2, List.forall_mem_cons, zero, ← and_assoc]
    exact and_congr_left' (by omega)

/-- Digits without a point give a number without a fraction, which is the negative zero only for a
zero with a minus sign. -/
theorem Double.ofDecimal_natural (neg : Bool) (d : Nat) :
    (ofDecimal neg ⟨d, 0⟩).Fractionless ∧
      (ofDecimal neg ⟨d, 0⟩ = negativeZero ↔ neg = true ∧ d = 0) := by
  unfold ofDecimal
  dsimp only
  split
  · next none =>
    refine ⟨fractionless_of_toInt? (toInt?_zero neg), ?_⟩
    rw [zero, finite_eq_zero]
    exact and_congr_right' ⟨fun _ => none, fun _ => rfl⟩
  · next some =>
    split
    · exact ⟨trivial, fun same => absurd same infinite_ne_zero, fun both => absurd both.2 some⟩
    · split
      · omega
      · have whole : Decimal.num ⟨d, 0⟩ = d ∧ Decimal.den ⟨d, 0⟩ = 1 := ⟨Nat.mul_one d, rfl⟩
        rw [whole.1, whole.2]
        exact ⟨fractionless_ofRatio neg d, ofRatio_eq_zero Nat.one_pos one_pos⟩

/-- What an integer numeral denotes, and when that is the negative zero. -/
theorem Numeral.of_integer? {x : Double} (read : Numeral.integer? t = some x) :
    x.Fractionless ∧
      (x = .negativeZero ↔
        ∃ zeros, t = Text.minus :: zeros ∧ zeros ≠ [] ∧ ∀ u ∈ zeros, u = Text.zeroDigit) := by
  have sign : (∃ rest, t = Text.minus :: rest ∧ Numeral.sign t = (true, rest)) ∨
      (∀ rest, t ≠ Text.minus :: rest) ∧ ∃ rest, Numeral.sign t = (false, rest) := by
    unfold Numeral.sign
    split
    · exact .inr ⟨nofun, _, rfl⟩
    · exact .inl ⟨_, rfl, rfl⟩
    · next unsigned => exact .inr ⟨unsigned, _, rfl⟩
  unfold Numeral.integer? at read
  rcases sign with ⟨rest, rfl, signed⟩ | ⟨unsigned, rest, signed⟩
  · rw [signed] at read
    dsimp only at read
    split at read
    · next digits =>
      cases read
      obtain ⟨whole, zero⟩ := Double.ofDecimal_natural true (Text.digitsValue rest)
      refine ⟨whole, zero.trans ?_⟩
      rw [and_iff_right rfl, Text.digitsValue_eq_zero digits.2]
      constructor
      · exact fun zeros => ⟨rest, rfl, digits.1, zeros⟩
      · rintro ⟨zeros, same, -, all⟩
        cases same
        exact all
    · cases read
  · rw [signed] at read
    dsimp only at read
    split at read
    · cases read
      obtain ⟨whole, zero⟩ := Double.ofDecimal_natural false (Text.digitsValue rest)
      refine ⟨whole, fun negative => ?_, fun written => ?_⟩
      · cases (zero.1 negative).1
      · obtain ⟨zeros, same, -⟩ := written
        exact absurd same (unsigned zeros)
    · cases read

/-- An integral type takes what its text reads as. -/
theorem Conversion.of_integral {p : Primitive} {low high : Int} {v : Value}
    (converted : Conversion.integral p low high t = .ok v) :
    ∃ x, v = .number x ∧ Numeral.integer? t.trim = some x := by
  unfold Conversion.integral at converted
  split at converted
  · next x read =>
    split at converted
    · cases converted
    · cases converted
      exact ⟨x, rfl, read⟩
  · cases converted

/-- Only texts are converted, by the number that they read as without white space. -/
theorem Conversion.of_valueOf {p : Primitive} (integral : p.isIntegral = true) {v w : Value}
    (converted : Conversion.valueOf p v = .ok w) :
    ∃ t x, v = .text t ∧ w = .number x ∧ Numeral.integer? t.trim = some x := by
  have text : ∃ t, v = .text t ∧ Conversion.ofText p t = .ok w := by
    cases v with
    | text t => exact ⟨t, rfl, converted⟩
    | _ => cases p <;> first | cases converted | cases integral
  obtain ⟨t, rfl, converted⟩ := text
  have parsed : ∃ low high, Conversion.integral p low high t = .ok w := by
    cases p <;> first | exact ⟨_, _, converted⟩ | cases integral
  obtain ⟨low, high, converted⟩ := parsed
  obtain ⟨x, rfl, read⟩ := Conversion.of_integral converted
  exact ⟨t, x, rfl, rfl, read⟩

end Texts

/-! ## Values -/

/-- The value is absent, or a number without a fraction. -/
def Value.Fractionless (v : Value) : Prop :=
  v.isAbsent = true ∨ ∃ x, v = .number x ∧ x.Fractionless

section Values

variable {v : Value}

theorem Value.fractionless_number {x : Double} (whole : x.Fractionless) :
    (Value.number x).Fractionless :=
  .inr ⟨x, rfl, whole⟩

theorem Value.fractionless_ofInt (n : Int) : (Value.number (.ofInt n)).Fractionless :=
  fractionless_number (Double.fractionless_ofRatio _ _)

theorem Value.ofInt_ne_negativeZero (n : Int) : Value.number (.ofInt n) ≠ .number .negativeZero :=
  fun same => Double.ofInt_ne_negativeZero n (Value.number.inj same)

/-- An absent value counts as zero or as no number, and neither has a fraction. -/
theorem Value.Fractionless.toNumber (whole : v.Fractionless) : v.toNumber.Fractionless := by
  rcases whole with absent | ⟨x, rfl, whole⟩
  · cases v with
    | undefined => trivial
    | null => exact Double.fractionless_of_toInt? (Double.toInt?_zero false)
    | _ => cases absent
  · exact whole

/-- Only the negative zero itself counts as one. -/
theorem Value.Fractionless.toNumber_eq_negativeZero (whole : v.Fractionless) :
    v.toNumber = .negativeZero ↔ v = .number .negativeZero := by
  rcases whole with absent | ⟨x, rfl, -⟩
  · cases v with
    | undefined => exact ⟨nofun, nofun⟩
    | null => exact ⟨nofun, nofun⟩
    | _ => cases absent
  · exact ⟨congrArg Value.number, Value.number.inj⟩

/-- Numbers are added as numbers. -/
theorem Value.Fractionless.addsAsText (whole : v.Fractionless) : v.addsAsText = false := by
  rcases whole with absent | ⟨x, rfl, -⟩
  · cases v with
    | undefined => rfl
    | null => rfl
    | _ => cases absent
  · rfl

end Values

/-! ## Types -/

theorem Ty.of_isIntegral {type : Ty} (integral : type.isIntegral = true) :
    ∃ p : Primitive, type = .basic (.primitive p) ∧ p.isIntegral = true := by
  unfold Ty.isIntegral Ty.primitive? at integral
  split at integral
  · exact ⟨_, rfl, integral⟩
  · cases integral

/-- In one of the integral types numbers stay as they are, in the others the low bits are kept. -/
theorem Value.narrow_integral {p : Primitive} (integral : p.isIntegral = true) (v : Value) :
    (p = .long ∧ v.narrow (.basic (.primitive p)) = v) ∨
      (p ≠ .long ∧ ∃ n, v.narrow (.basic (.primitive p)) = .number (.ofInt n)) := by
  cases p with
  | long => exact .inl ⟨rfl, rfl⟩
  | int | short | byte => exact .inr ⟨nofun, _, rfl⟩
  | _ => cases integral

/-- A placeholder of an integral type. -/
theorem Ty.defaultValue_integral {type : Ty} (integral : type.isIntegral = true) :
    type.defaultValue = .number (.ofInt (-1)) := by
  obtain ⟨p, rfl, integral⟩ := Ty.of_isIntegral integral
  cases p <;> first | rfl | cases integral

/-! ## Operators -/

/-- The operators of elementary arithmetic. -/
def BinaryOp.isElementary : BinaryOp → Bool
  | .add | .sub | .mul | .div | .rem => true
  | _ => false

/-- The operands for which an arithmetic operator, its result not being brought into range, gives
the negative zero. -/
def BinaryOp.NegatesZero (x y : Double) : BinaryOp → Prop
  | .add => x = .negativeZero ∧ y = .negativeZero
  | .sub => x = .negativeZero ∧ y = .zero false
  | .mul =>
    x.isFinite = true ∧ y.isFinite = true ∧ (x.isZero = true ∨ y.isZero = true) ∧
    x.isNegative ≠ y.isNegative
  | .div => x.isNegative ≠ y.isNegative ∧ x.abs.lt y.abs = true
  | .rem => x.isNegative = true ∧ (x.IsMultipleOf y ∨ x.isZero = true ∧ y.isInfinite = true)
  | _ => False

section Operators

variable {p : Primitive} {a b v : Value}

/-- A value of an integral type: it has no fraction, and is the negative zero under a
condition. -/
structure Value.Signed (v : Value) (negatesZero : Prop) : Prop where
  whole : v.Fractionless
  negativeZero : v = .number .negativeZero ↔ negatesZero

theorem Value.signed_ofInt (n : Int) : (Value.number (.ofInt n)).Signed False :=
  ⟨fractionless_ofInt n, iff_false_intro (ofInt_ne_negativeZero n)⟩

theorem Value.Signed.congr {P Q : Prop} (signed : v.Signed P) (same : P ↔ Q) : v.Signed Q :=
  ⟨signed.whole, signed.negativeZero.trans same⟩

/-- Bringing a number into the range of a type leaves the negative zero in one type only. -/
theorem Value.signed_narrow (integral : p.isIntegral = true) {x : Double} {P : Prop}
    (whole : x.Fractionless) (zero : x = .negativeZero ↔ P) :
    ((Value.number x).narrow (.basic (.primitive p))).Signed (p = .long ∧ P) := by
  rcases Value.narrow_integral integral (.number x) with ⟨rfl, same⟩ | ⟨other, n, same⟩
  · rw [same]
    refine ⟨fractionless_number whole, ?_⟩
    rw [Value.number.injEq, zero, and_iff_right rfl]
  · rw [same]
    exact (signed_ofInt n).congr (iff_of_false id fun long => other long.1)

/-- A divisor that is not refused is handed on as it is. -/
theorem Conversion.eq_of_divisor {d : Value} (checked : Conversion.divisor v = .ok d) :
    d = v := by
  unfold Conversion.divisor at checked
  split at checked
  · split at checked
    · cases checked
    · cases checked
      rfl
  · cases checked
    rfl

theorem Value.Fractionless.add_eq (left : a.Fractionless) (right : b.Fractionless) :
    a.add b = .number (a.toNumber.add b.toNumber) := by
  rw [Value.add, left.addsAsText, right.addsAsText]
  rfl

/-- Arithmetic of an integral type has no fraction, and gives the negative zero for type Long
alone: the narrower types wrap their results, which leaves no sign on a zero. -/
theorem BinaryOp.eval_signed {op : BinaryOp} (arithmetic : op.isElementary = true)
    (integral : p.isIntegral = true) {leftType rightType : Ty} (left : a.Fractionless)
    (right : b.Fractionless)
    (computed : op.eval (.basic (.primitive p)) leftType rightType a b = .ok v) :
    v.Signed (p = .long ∧ op.NegatesZero a.toNumber b.toNumber) := by
  have whole : (Ty.basic (.primitive p)).isIntegral = true := integral
  cases op with
  | add =>
    cases computed
    rw [left.add_eq right]
    exact Value.signed_narrow integral (left.toNumber.add right.toNumber)
      Double.add_eq_negativeZero
  | sub =>
    cases computed
    exact Value.signed_narrow integral (left.toNumber.sub right.toNumber)
      Double.sub_eq_negativeZero
  | mul =>
    rw [BinaryOp.eval] at computed
    split at computed
    · next int =>
      cases computed
      obtain rfl : p = .int := by simpa [Ty.isBasicNamed, Ty.basic?] using int
      exact (Value.signed_ofInt _).congr (iff_of_false id fun both => absurd both.1 (by decide))
    · cases computed
      exact Value.signed_narrow integral (left.toNumber.mul right.toNumber)
        (Double.mul_eq_negativeZero left.toNumber right.toNumber)
  | div =>
    rw [BinaryOp.eval, if_pos whole] at computed
    obtain ⟨d, checked, done⟩ := of_bind_eq_ok computed
    obtain rfl := Conversion.eq_of_divisor checked
    cases done
    exact Value.signed_narrow integral (Double.fractionless_trunc _)
      Double.trunc_div_eq_negativeZero
  | rem =>
    rw [BinaryOp.eval, if_pos whole] at computed
    obtain ⟨d, checked, done⟩ := of_bind_eq_ok computed
    obtain rfl := Conversion.eq_of_divisor checked
    cases done
    exact Value.signed_narrow integral (left.toNumber.rem right.toNumber)
      (Double.rem_eq_negativeZero left.toNumber right.toNumber)
  | _ => cases arithmetic

/-- Negating a zero gives the negative zero, for type Long alone. -/
theorem UnaryOp.eval_signed {op : UnaryOp} (arithmetic : op = .negate ∨ op = .abs)
    (integral : p.isIntegral = true) (whole : v.Fractionless) :
    (op.eval (.basic (.primitive p)) v).Signed
      (p = .long ∧ op = .negate ∧ v.toNumber = .zero false) := by
  rcases arithmetic with rfl | rfl
  · refine Value.signed_narrow integral whole.toNumber.neg ?_
    rw [Double.neg_eq_negativeZero, and_iff_right rfl]
  · refine Value.signed_narrow integral whole.toNumber.abs ?_
    exact iff_of_false Double.abs_ne_negativeZero nofun

/-! ## Casts -/

/-- A cast of a text gives the negative zero if and only if the text writes it. -/
theorem Value.cast_text_signed [TimeZones] (integral : p.isIntegral = true) {zone : Text}
    {w : Value} (converted : v.cast zone .string (.basic (.primitive p)) = .ok w) :
    w.Signed (∃ t, v = .text t ∧ t.WritesNegativeZero) := by
  obtain ⟨t, x, rfl, rfl, read⟩ := Conversion.of_valueOf integral converted
  obtain ⟨whole, zero⟩ := Numeral.of_integer? read
  refine ⟨fractionless_number whole, ?_⟩
  rw [Value.number.injEq, zero]
  constructor
  · exact fun zeros => ⟨t, rfl, zeros⟩
  · rintro ⟨t', same, zeros⟩
    cases same
    exact zeros

/-- A cast between integral types keeps the negative zero if it changes nothing or leads to type
Long. -/
theorem Value.cast_integral_signed [TimeZones] {q : Primitive} (source : q.isIntegral = true)
    (integral : p.isIntegral = true) {zone : Text} {w : Value} (whole : v.Fractionless)
    (converted : v.cast zone (.basic (.primitive q)) (.basic (.primitive p)) = .ok w) :
    w.Signed ((q = p ∨ p = .long) ∧ v = .number .negativeZero) := by
  have coerced : v.coerce q p = .ok w := by
    cases q <;> exact converted
  unfold Value.coerce at coerced
  split at coerced
  · next same =>
    cases coerced
    exact ⟨whole, (and_iff_right (.inl same)).symm⟩
  · next other =>
    have numeric : q ≠ .char := by
      rintro rfl
      cases source
    rw [if_neg numeric] at coerced
    cases p with
    | long =>
      cases coerced
      rw [whole.toNumber.trunc_eq]
      refine ⟨fractionless_number whole.toNumber, ?_⟩
      rw [Value.number.injEq, whole.toNumber_eq_negativeZero, and_iff_right (.inr rfl)]
    | int | short | byte =>
      cases coerced
      refine (signed_ofInt _).congr (iff_of_false id fun kept => ?_)
      exact kept.1.elim other nofun
    | _ => cases integral

end Operators

/-! ## Trees -/

/-- The node is a literal, a field, a name of a node of its type, a cast from the type of texts or
an integral type, or arithmetic, negation or the absolute value of operands of its type. -/
def Expr.IsArithmetic : Expr → Prop
  | .literal _ _ | .field _ _ => True
  | .naming inner _ type => inner.type = type
  | .binary op left right type => op.isElementary = true ∧ left.type = type ∧ right.type = type
  | .unary op operand type => (op = .negate ∨ op = .abs) ∧ operand.type = type
  | .cast operand _ => operand.type = .string ∨ operand.type.isIntegral = true
  | _ => False

/-- Every integral node of the tree is arithmetic. -/
def Expr.Arithmetical (e : Expr) : Prop :=
  ∀ node ∈ e.nodes, node.type.isIntegral = true → node.IsArithmetic

/-- The integral fields of the tree read absent values and numbers without a fraction, other than
the negative zero. -/
def Expr.ReadsIntegers (inputs : List Input) (records : List Value) (e : Expr) : Prop :=
  ∀ name type, .field name type ∈ e.nodes → type.isIntegral = true →
    ∀ v, Input.read name inputs records = .ok v → v.Fractionless ∧ v ≠ .number .negativeZero

/-- The expression is present, and this value. -/
def Expr.PresentAs [TimeZones] (env : Environment) (v : Value) (e : Expr) : Prop :=
  e.eval env = .ok ⟨v, false⟩

/-- By its operands, the node is the negative zero. -/
def Expr.NegatesZero [TimeZones] (env : Environment) : Expr → Prop
  | .naming inner _ _ => inner.PresentAs env (.number .negativeZero)
  | .binary op left right type =>
    type = .basic .long ∧ ∃ a b, left.PresentAs env a ∧ right.PresentAs env b ∧
    op.NegatesZero a.toNumber b.toNumber
  | .unary op operand type =>
    type = .basic .long ∧ op = .negate ∧ ∃ a, operand.PresentAs env a ∧ a.toNumber = .zero false
  | .cast operand type =>
    (operand.type = .string ∧ ∃ t, operand.PresentAs env (.text t) ∧ t.WritesNegativeZero) ∨
      (operand.type.isIntegral = true ∧ (operand.type = type ∨ type = .basic .long) ∧
        operand.PresentAs env (.number .negativeZero))
  | _ => False

section Trees

variable {env : Environment} {e : Expr} {o : Outcome}

/-- What an expression is present as is its value, if it has one. -/
theorem Expr.presentAs_iff [TimeZones] (evaluated : e.eval env = .ok o) {v : Value} :
    e.PresentAs env v ↔ o.isNull = false ∧ o.value = v := by
  rw [Expr.PresentAs, evaluated, Except.ok.injEq]
  constructor
  · rintro rfl
    exact ⟨rfl, rfl⟩
  · rintro ⟨present, rfl⟩
    exact congrArg (Outcome.mk o.value) present

/-- What stands for an absent value is not the negative zero. -/
theorem Ty.defaultValue_ne_negativeZero (type : Ty) :
    type.defaultValue ≠ .number .negativeZero := by
  intro same
  cases type with
  | basic b =>
    cases b with
    | primitive p =>
      cases p with
      | boolean | char => cases same
      | _ => exact Value.ofInt_ne_negativeZero _ same
    | _ => cases same
  | _ => cases same

/-- An absent node holds no negative zero. -/
theorem Expr.ne_negativeZero_of_isNull [TimeZones] (defaults : env.defaults = Ty.defaultValue)
    (evaluated : e.eval env = .ok o) (absent : o.isNull = true) :
    o.value ≠ .number .negativeZero := by
  have guarded {flag : Bool} {type : Ty} {value : Except Fault Value}
    (found : env.guarded flag type value = .ok o) :
      o.value ≠ .number .negativeZero := by
    rcases Environment.guarded_eq_ok found with ⟨-, rfl⟩ | ⟨-, v, -, rfl⟩
    · rw [defaults]
      exact type.defaultValue_ne_negativeZero
    · cases absent
  induction e with
  | naming inner label type ih => exact ih evaluated
  | literal value type =>
    cases evaluated
    rw [Bool.and_eq_true, beq_iff_eq] at absent
    rw [absent.2]
    exact nofun
  | field name type =>
    obtain ⟨v, -, done⟩ := of_bind_eq_ok evaluated
    cases done
    rw [Bool.and_eq_true] at absent
    rintro rfl
    cases absent.2
  | binary op left right type ihl ihr =>
    obtain ⟨l, -, evaluated⟩ := of_bind_eq_ok evaluated
    obtain ⟨r, -, evaluated⟩ := of_bind_eq_ok evaluated
    exact guarded evaluated
  | unary op operand type ih =>
    obtain ⟨c, -, evaluated⟩ := of_bind_eq_ok evaluated
    exact guarded evaluated
  | isNull operand type ih | isNotNull operand type ih =>
    obtain ⟨c, -, done⟩ := of_bind_eq_ok evaluated
    cases done
    cases absent
  | cast operand type ih =>
    obtain ⟨c, -, evaluated⟩ := of_bind_eq_ok evaluated
    exact guarded evaluated
  | substring str start stop type iha ihb ihc =>
    obtain ⟨a, -, evaluated⟩ := of_bind_eq_ok evaluated
    obtain ⟨b, -, evaluated⟩ := of_bind_eq_ok evaluated
    obtain ⟨c, -, evaluated⟩ := of_bind_eq_ok evaluated
    exact guarded evaluated

theorem Expr.presentAs_negativeZero [TimeZones] (defaults : env.defaults = Ty.defaultValue)
    (evaluated : e.eval env = .ok o) :
    e.PresentAs env (.number .negativeZero) ↔ o.value = .number .negativeZero := by
  rw [presentAs_iff evaluated]
  refine and_iff_right_of_imp fun zero => ?_
  cases absent : o.isNull with
  | false => rfl
  | true => exact absurd zero (ne_negativeZero_of_isNull defaults evaluated absent)

theorem Expr.shown_eq_negativeZero [TimeZones] (defaults : env.defaults = Ty.defaultValue)
    (evaluated : e.eval env = .ok o) :
    o.shown = .number .negativeZero ↔ o.value = .number .negativeZero := by
  unfold Outcome.shown
  cases absent : o.isNull with
  | false => rfl
  | true => exact iff_of_false nofun (ne_negativeZero_of_isNull defaults evaluated absent)

/-- A literal of an integral type is not the negative zero: a zero is written without a sign. -/
theorem Literal.signed_eval {value : Literal} {type : Ty} (legal : value.Legal type)
    (integral : type.isIntegral = true) : (value.eval type).Signed False := by
  have written {x : Double} {n : Int} (whole : x.toInt? = some n) :
      (Value.number x.written).Signed False := by
    refine ⟨Value.fractionless_number
      (Double.fractionless_of_toInt? (Double.toInt?_written whole)), ?_⟩
    exact iff_false_intro fun same => x.written_ne_negativeZero (Value.number.inj same)
  cases legal with
  | null => exact ⟨.inl rfl, nofun, nofun⟩
  | int whole => exact written whole
  | long whole => exact written whole
  | _ => cases integral

/-- A guarded node is the negative zero if no operand is absent and its value is. -/
theorem Environment.signed_of_guarded (defaults : env.defaults = Ty.defaultValue)
    {absent : Bool} {type : Ty} (integral : type.isIntegral = true) {value : Except Fault Value}
    {P : Prop} (guarded : env.guarded absent type value = .ok o)
    (computed : ∀ v, value = .ok v → v.Signed P) : o.value.Signed (absent = false ∧ P) := by
  rcases Environment.guarded_eq_ok guarded with ⟨rfl, rfl⟩ | ⟨rfl, v, found, rfl⟩
  · rw [defaults, Ty.defaultValue_integral integral]
    exact (Value.signed_ofInt (-1)).congr (iff_of_false id nofun)
  · exact (computed v found).congr (and_iff_right rfl).symm

/-! ### Operands -/

section Operands

variable {left right operand : Expr} {type : Ty} {l r c : Outcome}

theorem Expr.negatesZero_binary [TimeZones] {op : BinaryOp} (leftRun : left.eval env = .ok l)
    (rightRun : right.eval env = .ok r) :
    (Expr.binary op left right type).NegatesZero env ↔
      (l.isNull || r.isNull) = false ∧ type = .basic .long ∧
      op.NegatesZero l.value.toNumber r.value.toNumber := by
  rw [Expr.NegatesZero]
  simp only [presentAs_iff leftRun, presentAs_iff rightRun, Bool.or_eq_false_iff]
  constructor
  · rintro ⟨long, _, _, ⟨present, rfl⟩, ⟨present', rfl⟩, zero⟩
    exact ⟨⟨present, present'⟩, long, zero⟩
  · rintro ⟨⟨present, present'⟩, long, zero⟩
    exact ⟨long, _, _, ⟨present, rfl⟩, ⟨present', rfl⟩, zero⟩

theorem Expr.negatesZero_unary [TimeZones] {op : UnaryOp}
    (operandRun : operand.eval env = .ok c) :
    (Expr.unary op operand type).NegatesZero env ↔
      c.isNull = false ∧ type = .basic .long ∧ op = .negate ∧ c.value.toNumber = .zero false := by
  rw [Expr.NegatesZero]
  simp only [presentAs_iff operandRun]
  constructor
  · rintro ⟨long, negated, _, ⟨present, rfl⟩, zero⟩
    exact ⟨present, long, negated, zero⟩
  · rintro ⟨present, long, negated, zero⟩
    exact ⟨long, negated, _, ⟨present, rfl⟩, zero⟩

theorem Expr.negatesZero_cast_text [TimeZones] (text : operand.type = .string)
    (operandRun : operand.eval env = .ok c) :
    (Expr.cast operand type).NegatesZero env ↔ c.isNull = false ∧ ∃ t, c.value = .text t ∧
      t.WritesNegativeZero := by
  rw [Expr.NegatesZero, text]
  simp only [presentAs_iff operandRun]
  constructor
  · rintro (⟨-, t, ⟨present, same⟩, zeros⟩ | ⟨integral, -⟩)
    · exact ⟨present, t, same, zeros⟩
    · cases integral
  · rintro ⟨present, t, same, zeros⟩
    exact .inl ⟨trivial, t, ⟨present, same⟩, zeros⟩

theorem Expr.negatesZero_cast_integral [TimeZones] (integral : operand.type.isIntegral = true)
    (operandRun : operand.eval env = .ok c) :
    (Expr.cast operand type).NegatesZero env ↔
      c.isNull = false ∧ (operand.type = type ∨ type = .basic .long) ∧
      c.value = .number .negativeZero := by
  rw [Expr.NegatesZero, presentAs_iff operandRun]
  constructor
  · rintro (⟨text, -⟩ | ⟨-, kept, present, zero⟩)
    · rw [text] at integral
      cases integral
    · exact ⟨present, kept, zero⟩
  · rintro ⟨present, kept, zero⟩
    exact .inr ⟨integral, kept, present, zero⟩

end Operands

/-! ### Nodes -/

/-- What the integral nodes of a tree are, and what they read. -/
structure Expr.Counted (env : Environment) (e : Expr) : Prop where
  arithmetical : e.Arithmetical
  legal : e.AllLegal env.inputs
  reads : e.ReadsIntegers env.inputs env.records

theorem Expr.Counted.sub (counted : e.Counted env) {node : Expr} (part : node.nodes ⊆ e.nodes) :
    node.Counted env where
  arithmetical inner inside := counted.arithmetical inner (part inside)
  legal inner inside := counted.legal inner (part inside)
  reads name type inside := counted.reads name type (part inside)

theorem Expr.mem_nodes_self (e : Expr) : e ∈ e.nodes := by
  cases e <;> exact List.mem_cons_self

theorem Primitive.eq_iff {p q : Primitive} :
    p = q ↔ Ty.basic (.primitive p) = .basic (.primitive q) := by
  rw [Ty.basic.injEq, Basic.primitive.injEq]

/-- The value of an integral node has no fraction, and is the negative zero exactly if its
operands make it one. -/
theorem Expr.signed_of_eval [TimeZones] (defaults : env.defaults = Ty.defaultValue)
    (counted : e.Counted env) (integral : e.type.isIntegral = true)
    (evaluated : e.eval env = .ok o) : o.value.Signed (e.NegatesZero env) := by
  induction e generalizing o with
  | naming inner label type ih =>
    have same : inner.type = type := counted.arithmetical _ (mem_nodes_self _) integral
    have signed := ih (counted.sub (List.subset_cons_self _ _)) (same.symm ▸ integral) evaluated
    exact ⟨signed.whole, (presentAs_negativeZero defaults evaluated).symm⟩
  | literal value type =>
    cases evaluated
    exact Literal.signed_eval (counted.legal _ (mem_nodes_self _)) integral
  | field name type =>
    obtain ⟨v, read, done⟩ := of_bind_eq_ok evaluated
    cases done
    obtain ⟨whole, other⟩ := counted.reads name type (mem_nodes_self _) integral v read
    exact ⟨whole, iff_false_intro other⟩
  | binary op left right type ihl ihr =>
    obtain ⟨arithmetic, sameLeft, sameRight⟩ := counted.arithmetical _ (mem_nodes_self _) integral
    obtain ⟨l, leftRun, evaluated⟩ := of_bind_eq_ok evaluated
    obtain ⟨r, rightRun, evaluated⟩ := of_bind_eq_ok evaluated
    have computes : op.isTest = false := by
      cases op <;> first | rfl | cases arithmetic
    have wholeLeft :=
      (ihl (counted.sub (List.subset_cons_of_subset _ (List.subset_append_left _ _)))
        (sameLeft.symm ▸ integral) leftRun).whole
    have wholeRight :=
      (ihr (counted.sub (List.subset_cons_of_subset _ (List.subset_append_right _ _)))
        (sameRight.symm ▸ integral) rightRun).whole
    rw [computes, if_neg Bool.false_ne_true] at evaluated
    refine (Environment.signed_of_guarded defaults integral evaluated fun v computed => ?_).congr
      (negatesZero_binary leftRun rightRun).symm
    obtain ⟨p, rfl, primitive⟩ := Ty.of_isIntegral integral
    exact (BinaryOp.eval_signed arithmetic primitive wholeLeft wholeRight computed).congr
      (and_congr_left' Primitive.eq_iff)
  | unary op operand type ih =>
    obtain ⟨arithmetic, same⟩ := counted.arithmetical _ (mem_nodes_self _) integral
    obtain ⟨c, operandRun, evaluated⟩ := of_bind_eq_ok evaluated
    have below : operand.type.isIntegral = true := same.symm ▸ integral
    have whole := (ih (counted.sub (List.subset_cons_self _ _)) below operandRun).whole
    refine (Environment.signed_of_guarded defaults below evaluated fun v computed => ?_).congr
      (negatesZero_unary operandRun).symm
    cases computed
    obtain ⟨p, rfl, primitive⟩ := Ty.of_isIntegral integral
    exact (UnaryOp.eval_signed arithmetic primitive whole).congr
      (and_congr_left' Primitive.eq_iff)
  | isNull operand type ih | isNotNull operand type ih
  | substring str start stop type iha ihb ihc =>
    cases counted.arithmetical _ (mem_nodes_self _) integral
  | cast operand type ih =>
    have source : operand.type = .string ∨ _ := counted.arithmetical _ (mem_nodes_self _) integral
    obtain ⟨c, operandRun, evaluated⟩ := of_bind_eq_ok evaluated
    obtain ⟨p, rfl, primitive⟩ := Ty.of_isIntegral integral
    rcases source with text | below
    · refine (Environment.signed_of_guarded defaults integral evaluated
        fun v converted => ?_).congr
        (negatesZero_cast_text text operandRun).symm
      rw [text] at converted
      exact Value.cast_text_signed primitive converted
    · have signed := ih (counted.sub (List.subset_cons_self _ _)) below operandRun
      refine (Environment.signed_of_guarded defaults integral evaluated
        fun v converted => ?_).congr
        (negatesZero_cast_integral below operandRun).symm
      obtain ⟨q, same, primitive'⟩ := Ty.of_isIntegral below
      rw [same] at converted ⊢
      exact (Value.cast_integral_signed primitive' primitive signed.whole converted).congr
        (and_congr_left' (or_congr Primitive.eq_iff Primitive.eq_iff))

end Trees

/-! ## Queries -/

/-- The result of every node of the expressions, once its code has been run. -/
theorem Query.Serves.result_get [TimeZones] {q : Query} {s : Session} {es : List Expr}
    {gs : List Generated} {absent : Ty → Value} (serves : q.Serves s es gs)
    (defaults : ∀ type σ, (s.defaults type).eval σ = .ok (absent type)) {e node : Expr}
    (listed : e ∈ es) (inside : node ∈ e.nodes) (records : List Value) :
    ∃ before c after k, (node.generate s.setting ⟨k⟩).outcome = .ok c ∧
      q.evaluator.body = before ++ (c.code ++ after) ∧
      ∀ σ, Block.run (before ++ c.code) (q.evaluator.entry records) = .ok σ →
        ∃ o, node.eval (s.environment absent records) = .ok o ∧ σ.get c.result = .ok o.value := by
  obtain ⟨n, m, ds, emitsAll, hosts⟩ := serves.code
  obtain ⟨before, c, after, k, k', asked, body, emits, sub, -, -⟩ := emitsAll.houses listed inside
  refine ⟨before, c, after, k, congrArg Draft.outcome (Expr.yields_iff.2 emits),
    serves.body.trans body, fun σ ran => ?_⟩
  rw [Block.run_append] at ran
  obtain ⟨σ₁, ranBefore, ranCode⟩ := of_bind_eq_ok ran
  have hosted : (σ₁).Hosts (s.environment absent records) asked := by
    refine ((hosts absent records).keeps (fun x bound => emitsAll.targets x ?_)
      (Block.run_keeps ranBefore)).mono sub
    rw [body, Block.targets_append]
    exact List.mem_append_left _ bound
  obtain ⟨o, evaluated, holds⟩ :=
    (emits.agrees (Session.describes defaults records) hosted).of_finished ranCode
  exact ⟨o, evaluated, holds.value⟩

/-- While the query runs, an integral node is the negative zero exactly if its operands make it
one. The code of every node stands in the body; the value is the one that its result holds as soon
as this code has been run. -/
def Query.SignsZeros [TimeZones] (q : Query) (inputs : List Input) (options : Options)
    (es : List Expr) (records : List Value) : Prop :=
  ∀ e ∈ es, ∀ node ∈ e.nodes, node.type.isIntegral = true → ∃ before c after k,
    (node.generate ⟨inputs, options.nullCheck, Ty.defaultTerm⟩ ⟨k⟩).outcome = .ok c ∧
    q.evaluator.body = before ++ (c.code ++ after) ∧
    ∀ σ, Block.run (before ++ c.code) (q.evaluator.entry records) = .ok σ →
      ∃ v, σ.get c.result = .ok v ∧ (v = .number .negativeZero ↔
        node.NegatesZero ⟨inputs, records, options.timeZone, options.nullCheck, Ty.defaultValue⟩)

section Queries

variable {inputs : List Input} {options : Options} {es : List Expr} {q : Query}
    {records : List Value}

/-- The expressions of a query are legal, since there is code for them. -/
theorem Query.Serves.counted {s : Session} {gs : List Generated} (serves : q.Serves s es gs)
    (behind : s.Behind inputs options) (arithmetical : ∀ e ∈ es, e.Arithmetical)
    (reads : ∀ e ∈ es, e.ReadsIntegers inputs records) {e : Expr} (listed : e ∈ es) :
    e.Counted ⟨inputs, records, options.timeZone, options.nullCheck, Ty.defaultValue⟩ := by
  obtain ⟨n, m, ds, emits, -⟩ := serves.code
  rw [behind.setting] at emits
  exact ⟨arithmetical e listed, emits.allLegal e listed, reads e listed⟩

/-- From evaluation to runs of the query, for projections and filters alike. -/
theorem Query.Serves.signsZeros [TimeZones] {s : Session} {gs : List Generated}
    (serves : q.Serves s es gs) (behind : s.Behind inputs options)
    (counted : ∀ e ∈ es,
      e.Counted ⟨inputs, records, options.timeZone, options.nullCheck, Ty.defaultValue⟩) :
    q.SignsZeros inputs options es records := by
  intro e listed node inside integral
  obtain ⟨before, c, after, k, made, body, holds⟩ :=
    serves.result_get behind.eval_defaults listed inside records
  rw [behind.setting] at made
  refine ⟨before, c, after, k, made, body, fun σ ran => ?_⟩
  obtain ⟨o, evaluated, result⟩ := holds σ ran
  rw [behind.environment] at evaluated
  have signed :=
    Expr.signed_of_eval rfl ((counted e listed).sub (Expr.nodes_subset_of_mem inside))
      integral evaluated
  exact ⟨o.value, result, signed.negativeZero⟩

/-- In trees whose integral nodes are arithmetic, on records whose integral fields read absent
values and integers other than the negative zero, an integral node is the negative zero in these
cases only. It is a cast of a text that writes it, or a cast of a node that is the negative zero
to its own type or to Long. Or its type is Long, and it is a sum of two negative zeros, a negative
zero less zero, a product of zero and a number of the other sign, a quotient of numbers of
different signs of which the dividend is the smaller, a remainder of a negative multiple of the
divisor, or a negation of zero. In each of these cases it is the negative zero. This goes for all
nodes of projections and filters. -/
theorem Query.negative_zero_iff [TimeZones] {given : GivenOptions}
    (resolved : Options.resolve given = .ok options) (records : List Value) :
    (∀ (es : List Expr) (q : Query), (Query.projection inputs es given).outcome = .ok q →
      (∀ e ∈ es, e.Arithmetical) → (∀ e ∈ es, e.ReadsIntegers inputs records) →
      q.SignsZeros inputs options es records ∧
      ∀ v, q.run records = .ok v → ∃ vs, v = .array .made vs ∧ List.Forall₂ (fun e r =>
        e.type.isIntegral = true → (r = .number .negativeZero ↔
          e.NegatesZero ⟨inputs, records, options.timeZone, options.nullCheck,
            Ty.defaultValue⟩)) es vs) ∧
    ∀ (e : Expr) (q : Query), (Query.filter inputs e given).outcome = .ok q → e.Arithmetical →
      e.ReadsIntegers inputs records → q.SignsZeros inputs options [e] records := by
  refine ⟨fun es q built arithmetical reads => ?_, fun e q built arithmetical reads => ?_⟩
  · obtain ⟨s, gs, created, serves, -⟩ := Query.of_projectionWith built
    have behind := Session.behind_of_create resolved created
    have counted := fun e listed => serves.counted behind arithmetical reads (e := e) listed
    refine ⟨serves.signsZeros behind counted, fun v ran => ?_⟩
    obtain ⟨os, rfl, each⟩ := Query.shown_of_run resolved built ran
    refine ⟨_, rfl,
      List.forall₂_map_right_iff.2
        (List.forall₂_iff_zip.2 ⟨each.length_eq, fun paired integral => ?_⟩)⟩
    have evaluated := (List.forall₂_iff_zip.1 each).2 paired
    have signed :=
      Expr.signed_of_eval rfl (counted _ (List.of_mem_zip paired).1) integral evaluated
    rw [← signed.negativeZero]
    exact Expr.shown_eq_negativeZero rfl evaluated
  · obtain ⟨s, g, created, serves, -⟩ := Query.of_filterWith built
    have behind := Session.behind_of_create resolved created
    refine serves.signsZeros behind fun e' listed => ?_
    exact serves.counted behind (List.forall_mem_singleton.2 arithmetical)
      (List.forall_mem_singleton.2 reads) listed

end Queries

def Input.factors : List Input :=
  [⟨"row", .plain .pojo [.mk "n" (.basic .long), .mk "m" (.basic .long)]⟩]

def Value.factors (n m : Int) : List Value :=
  [.record (.given 0) [("n", .number (.ofInt n)), ("m", .number (.ofInt m))]]

/-- The product of the two fields, all of one type. -/
def Expr.factored (type : Ty) : Expr := .binary .mul (.field "n" type) (.field "m" type) type

/-- The first field with its sign changed. -/
def Expr.opposite (type : Ty) : Expr := .unary .negate (.field "n" type) type

theorem Expr.readsIntegers_factors {e : Expr}
    (fields : ∀ (name : Text) (type : Ty), .field name type ∈ e.nodes → name = "n" ∨ name = "m")
    (n m : Int) : e.ReadsIntegers Input.factors (Value.factors n m) := by
  intro name type inside _ v read
  rcases fields name type inside with rfl | rfl
  · cases read
    exact ⟨Value.fractionless_ofInt n, Value.ofInt_ne_negativeZero n⟩
  · cases read
    exact ⟨Value.fractionless_ofInt m, Value.ofInt_ne_negativeZero m⟩

section Host

open scoped Offsets

/-- Zero times -1 is the negative zero in Long, and is not in Int. -/
theorem Query.negative_zero_iff_factored :
    ∃ (o : Options) (q : Query) (v w : Value), Options.resolve (.members []) = .ok o ∧
      (Query.projection Input.factors [.factored (.basic .long), .factored (.basic .int)]
        (.members [])).outcome = .ok q ∧
      (∀ e ∈ [Expr.factored (.basic .long), .factored (.basic .int)], e.Arithmetical) ∧
      (∀ e ∈ [Expr.factored (.basic .long), .factored (.basic .int)],
        e.ReadsIntegers Input.factors (Value.factors 0 (-1))) ∧
      q.run (Value.factors 0 (-1)) = .ok (.array .made [v, w]) ∧
      v = .number .negativeZero ∧ w ≠ .number .negativeZero := by
  have nodes {type : Ty} {node : Expr} (inside : node ∈ (Expr.factored type).nodes) :
      node = .factored type ∨ node = .field "n" type ∨ node = .field "m" type := by
    simpa only [Expr.factored, Expr.nodes, List.mem_cons, List.cons_append, List.nil_append,
      List.not_mem_nil, or_false] using inside
  have arithmetical (type : Ty) : (Expr.factored type).Arithmetical := by
    intro node inside _
    rcases nodes inside with rfl | rfl | rfl
    · exact ⟨rfl, rfl, rfl⟩
    · trivial
    · trivial
  have reads (type : Ty) : (Expr.factored type).ReadsIntegers Input.factors
      (Value.factors 0 (-1)) := by
    refine Expr.readsIntegers_factors (fun name type' inside => ?_) 0 (-1)
    rcases nodes inside with same | same | same
    · cases same
    · cases same
      exact .inl rfl
    · cases same
      exact .inr rfl
  have both {P : Expr → Prop} (each : ∀ type, P (.factored type)) :
      ∀ e ∈ [Expr.factored (.basic .long), .factored (.basic .int)], P e :=
    List.forall_mem_cons.2 ⟨each _, List.forall_mem_singleton.2 (each _)⟩
  have resolved : Options.resolve (.members []) = .ok _ := rfl
  obtain ⟨projections, -⟩ :=
    @Query.negative_zero_iff Input.factors _ _ _ resolved (Value.factors 0 (-1))
  obtain ⟨-, runs⟩ := projections _ _ rfl (both arithmetical) (both reads)
  obtain ⟨vs, shown, each⟩ := runs _ rfl
  cases shown
  obtain ⟨long, each⟩ := List.forall₂_cons.1 each
  obtain ⟨int, -⟩ := List.forall₂_cons.1 each
  refine ⟨_, _, _, _, rfl, rfl, both arithmetical, both reads, rfl,
    (long rfl).2 ⟨rfl, _, _, rfl, rfl, ?_⟩, ?_⟩
  · obtain ⟨rank, minus, -⟩ := Double.ofInt_of_small (show (-1 : Int).natAbs < 2 ^ 53 by decide)
    show BinaryOp.NegatesZero (.ofInt 0) (.ofInt (-1)) .mul
    rw [Double.ofInt_zero, minus]
    exact ⟨rfl, rfl, .inl rfl, Bool.false_ne_true⟩
  · intro zero
    cases ((int rfl).1 zero).1

end Host

section Host

open scoped Offsets

/-- The negation of a Long field that is zero is the negative zero. -/
theorem Query.negative_zero_of_opposite :
    ∃ q : Query,
      (Query.projection Input.factors [.opposite (.basic .long)] (.members [])).outcome = .ok q ∧
      (Expr.opposite (.basic .long)).Arithmetical ∧
      (Expr.opposite (.basic .long)).ReadsIntegers Input.factors (Value.factors 0 0) ∧
      q.run (Value.factors 0 0) = .ok (.array .made [.number .negativeZero]) := by
  have fields : ∀ (name : Text) (type : Ty),
    .field name type ∈ (Expr.opposite (.basic .long)).nodes →
      name = "n" ∨ name = "m" := by
    intro name type inside
    simp only [Expr.opposite, Expr.nodes, List.mem_cons, List.not_mem_nil, or_false,
      reduceCtorEq, false_or, Expr.field.injEq] at inside
    exact .inl inside.1
  have arithmetical : (Expr.opposite (.basic .long)).Arithmetical := by
    intro node inside _
    simp only [Expr.opposite, Expr.nodes, List.mem_cons, List.not_mem_nil, or_false] at inside
    rcases inside with rfl | rfl
    · exact ⟨.inl rfl, rfl⟩
    · trivial
  refine ⟨_, rfl, arithmetical, Expr.readsIntegers_factors fields 0 0, ?_⟩
  rw [← Double.neg_eq_negativeZero.2 Double.ofInt_zero]
  rfl

end Host

end RowExpr
