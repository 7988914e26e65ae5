import RowExpr.Expr.Basic
import RowExpr.Value.Equality
import RowExpr.Value.Member

/-!
Evaluation of expression trees on records, without any code in between.

Every node has a value and a nullity. A null literal and a field that reads as
null or undefined are absent; a node with an absent operand is absent itself, and
its value is then a placeholder. A null test is never absent. If absent values are
not tracked, no node counts as absent and the operators meet null and undefined
themselves.

`Expr.eval` gives the outcome of a tree, `Expr.project` the values of a list of
trees and `Expr.accepts` the verdict of a predicate.
-/

namespace RowExpr

/-- The value and the nullity of a node. -/
structure Outcome where
  value : Value
  isNull : Bool

/-- What a tree is evaluated in: the inputs and a record for each, the zone in which dates are
written and read, whether absent values are tracked, and the value that an absent node of a type
holds. -/
structure Environment where
  inputs : List Input
  records : List Value
  zone : Text
  nullCheck : Bool
  defaults : Ty → Value

/-! ## Placeholders -/

def Basic.defaultValue : Basic → Value
  | .primitive .boolean => .bool false
  | .primitive .char => .text [0]
  | .primitive _ => .number (Double.ofInt (-1))
  | .string => .text "<empty>"
  | .date => .null

/-- The value that an absent node of a type holds. -/
def Ty.defaultValue : Ty → Value
  | .basic b => b.defaultValue
  | _ => .null

/-! ## Leaves -/

/-- The value of a literal. A number is the one that its numeral denotes, so a zero has no
sign. -/
def Literal.eval (type : Ty) : Literal → Value
  | .null => .null
  | .bool b => .bool b
  | .number x => .number (if type.isBasicNamed .float then x.written.toSingle else x.written)
  | .text t => .text t
  | .date t => .date .constant t

/-- The value of a field in the record of the first input that has it. -/
def Input.read (name : Text) : List Input → List Value → Except Fault Value
  | [], _ => .error (.unbound name)
  | input :: inputs, records =>
    match input.type.accessor? name with
    | some a => a.read (records.headD .undefined)
    | none => read name inputs records.tail

/-! ## Operators -/

/-- A number brought into the range of a type: its low 32, 16 or 8 bits, read as a signed
number. -/
def Value.narrow (v : Value) : Ty → Value
  | .basic (.primitive .int) => .number (Double.ofInt v.toWord.toInt)
  | .basic (.primitive .short) => .number (Double.ofInt (v.toWord.setWidth 16).toInt)
  | .basic (.primitive .byte) => .number (Double.ofInt (v.toWord.setWidth 8).toInt)
  | _ => v

/-- The time of a date. -/
def Value.time (v : Value) : Except Fault Value := v.invoke "getTime"

/-- Equality of two present values of these types. -/
def Value.equality (leftType rightType : Ty) (a b : Value) : Except Fault Bool :=
  if leftType.hasValueIdentity && rightType.hasValueIdentity then
    return a.strictEq b
  else if leftType.isBasicNamed .date && rightType.isBasicNamed .date then do
    let s ← a.time
    let t ← b.time
    return s.strictEq t
  else
    return a.equals b

/-- A binary operator on present values; `type` is the declared type of its node. -/
def BinaryOp.eval (op : BinaryOp) (type leftType rightType : Ty) (a b : Value) :
    Except Fault Value :=
  match op with
  | .gt => return .bool (b.less a)
  | .ge => return .bool (b.lessOrEqual a)
  | .lt => return .bool (a.less b)
  | .le => return .bool (a.lessOrEqual b)
  | .and => return if a.truthy then b else a
  | .or => return if a.truthy then a else b
  | .eq => return .bool (← Value.equality leftType rightType a b)
  | .ne => return .bool (!(← Value.equality leftType rightType a b))
  | .add => return (a.add b).narrow type
  | .sub => return (Value.number (a.toNumber.sub b.toNumber)).narrow type
  | .mul =>
    if type.isBasicNamed .int then return .ofWord (a.toWord * b.toWord)
    else return (Value.number (a.toNumber.mul b.toNumber)).narrow type
  | .div =>
    if type.isIntegral then do
      let d ← Conversion.divisor b
      return (Value.number (a.toNumber.div d.toNumber).trunc).narrow type
    else
      return .number (a.toNumber.div b.toNumber)
  | .rem =>
    if type.isIntegral then do
      let d ← Conversion.divisor b
      return (Value.number (a.toNumber.rem d.toNumber)).narrow type
    else
      return .number (a.toNumber.rem b.toNumber)
  | .bitAnd => return .ofWord (a.toWord &&& b.toWord)
  | .bitOr => return .ofWord (a.toWord ||| b.toWord)
  | .bitXor => return .ofWord (a.toWord ^^^ b.toWord)

/-- A unary operator on a present value. -/
def UnaryOp.eval (op : UnaryOp) (type : Ty) (v : Value) : Value :=
  match op with
  | .not => .bool (!v.truthy)
  | .negate => (Value.number v.toNumber.neg).narrow type
  | .complement => .ofWord (~~~ v.toWord)
  | .abs => (Value.number v.toNumber.abs).narrow type

/-- Whether the end of a substring stands for the end of the text. A literal tells it by its
number, any other end by its value. -/
def Expr.isOpenEnd (stop : Expr) (v : Value) : Bool :=
  match stop.unwrapped.literal? with
  | some (.number x) => x.eq (Double.ofInt maxInt)
  | _ => v.strictEq (.number (Double.ofInt maxInt))

/-! ## Casts -/

/-- A value of one primitive type as a value of another. Truth values are like no other type. -/
def Value.coerce (source target : Primitive) (v : Value) : Except Fault Value :=
  if source = target then
    return v
  else do
    let v ← if source = .char then v.charCode else pure v
    match target with
    | .long => return .number v.toNumber.trunc
    | .float => return .number v.toNumber.toSingle
    | .double => return v
    | .char => return .text [v.toNumber.toUnit]
    | .boolean => .error .wrongKind
    | p => return v.narrow (.basic (.primitive p))

/-- The date that a text denotes by one pattern; if it does not match, what comes otherwise. -/
def Value.parseDateAs [TimeZones] (zone : Text) (v : Value) (k : FormatterKind)
    (otherwise : Except Fault Value) : Except Fault Value :=
  match Conversion.parseDate (k.inZone zone) v with
  | .ok d => .ok d
  | .error _ => otherwise

/-- The date that a text denotes: by the timestamp, the date and the time pattern in turn, and
last as epoch milliseconds. -/
def Value.parseDate [TimeZones] (zone : Text) (v : Value) : Except Fault Value :=
  v.parseDateAs zone .timestamp
    (v.parseDateAs zone .date (v.parseDateAs zone .time (Conversion.epochMillis v)))

/-- A present value of one type as a value of another. -/
def Value.cast [TimeZones] (zone : Text) (source target : Ty) (v : Value) : Except Fault Value :=
  match source, target with
  | .basic .date, .basic .string =>
    return .text (Conversion.formatDate (FormatterKind.timestamp.inZone zone) v)
  | _, .basic .string => return .text v.toText
  | .basic (.primitive .long), .basic .date => return .date .made v.toTime
  | .basic .string, .basic .date => v.parseDate zone
  | .basic .date, .basic (.primitive .long) => v.time
  | .basic .string, .basic (.primitive p) => Conversion.valueOf p v
  | .basic (.primitive p), .basic (.primitive q) => v.coerce p q
  | _, _ => .error .wrongKind

/-! ## Trees -/

/-- The outcome of a node that is absent if an operand is. -/
def Environment.guarded (env : Environment) (absent : Bool) (type : Ty)
    (value : Except Fault Value) : Except Fault Outcome :=
  if absent then return ⟨env.defaults type, true⟩
  else do
    let v ← value
    return ⟨v, false⟩

/-- The outcome of a null test. -/
def Environment.nullTest (env : Environment) (operand : Outcome) (wanted : Bool) : Outcome :=
  let absent := if env.nullCheck then operand.isNull else operand.value.isAbsent
  ⟨.bool (absent == wanted), false⟩

def Expr.eval [TimeZones] (env : Environment) : Expr → Except Fault Outcome
  | .naming inner _ _ => eval env inner
  | .literal value type => return ⟨value.eval type, env.nullCheck && value == .null⟩
  | .field name _ => do
    let v ← Input.read name env.inputs env.records
    return ⟨v, env.nullCheck && v.isAbsent⟩
  | .binary op left right type => do
    let l ← eval env left
    let r ← eval env right
    env.guarded (l.isNull || r.isNull) (if op.isTest then .boolean else type)
      (op.eval type left.type right.type l.value r.value)
  | .unary op operand type => do
    let c ← eval env operand
    env.guarded c.isNull operand.type (return op.eval type c.value)
  | .isNull operand _ => do
    let c ← eval env operand
    return env.nullTest c true
  | .isNotNull operand _ => do
    let c ← eval env operand
    return env.nullTest c false
  | .cast operand type => do
    let c ← eval env operand
    env.guarded c.isNull type (c.value.cast env.zone operand.type type)
  | .substring str start stop _ => do
    let a ← eval env str
    let b ← eval env start
    let c ← eval env stop
    env.guarded (a.isNull || b.isNull || c.isNull) str.type
      (a.value.substring b.value (if stop.isOpenEnd c.value then none else some c.value))

/-- The value of an outcome as it is shown: an absent one is null. -/
def Outcome.shown (o : Outcome) : Value := if o.isNull then .null else o.value

/-- Whether an outcome is present and true. -/
def Outcome.isTrue (o : Outcome) : Bool := !o.isNull && o.value.strictEq (.bool true)

def Expr.evalAll [TimeZones] (env : Environment) : List Expr → Except Fault (List Outcome)
  | [] => return []
  | e :: es => do
    let o ← e.eval env
    let os ← evalAll env es
    return o :: os

/-- The values of trees, in order. -/
def Expr.project [TimeZones] (env : Environment) (es : List Expr) :
    Except Fault (List Value) := do
  return (← evalAll env es).map Outcome.shown

/-- Whether a predicate is present and true. -/
def Expr.accepts [TimeZones] (env : Environment) (e : Expr) : Except Fault Bool := do
  return (← e.eval env).isTrue

end RowExpr
