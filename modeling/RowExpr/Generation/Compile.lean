import RowExpr.Generation.Draft
import RowExpr.Generation.TypeTerm
import RowExpr.Schema.Access

/-!
Code generation. Each node of an expression gets two names, one that tells
whether its value is absent and one for the value itself, and a block that binds
them. With null checks on, a node computes its value only if its operands are
present and otherwise binds the default value of a type; with null checks off it
computes its value at once and binds no flag.

`Expr.generate` walks the tree; naming wrappers leave no trace.
-/

namespace RowExpr

/-- What generation depends on besides the expression: the inputs, whether absent values are
tracked, and the term that stands for an absent value of a type. -/
structure Setting where
  inputs : List Input
  nullCheck : Bool
  defaults : Ty → Term

/-- The code of an expression, with the names of its value and of its null flag. -/
structure Generated where
  code : Block
  result : Name
  isNull : Name

/-! ## Blocks of a node -/

/-- Binds the null flag, if flags are tracked. -/
def Setting.flag (s : Setting) (isNull : Name) (value : Term) : Block :=
  if s.nullCheck then [.declare isNull none value] else []

/-- Binds the flag, then computes the value unless the flag is set; then the value is the default
of `absentType`. -/
def Setting.guarded (s : Setting) (isNull result : Name) (typeMark : Text) (flag : Term)
    (absentType : Ty) (compute : Block) : Block :=
  [.declare isNull none flag, .reserve result typeMark,
    .branch (.name isNull) [.assign result (s.defaults absentType)] compute]

/-- Binds the value of a term, guarded by a flag if flags are tracked. -/
def Setting.compute (s : Setting) (isNull result : Name) (typeMark : Text) (flag : Term)
    (absentType : Ty) (value : Term) : Block :=
  if s.nullCheck then
    s.guarded isNull result typeMark flag absentType [.assign result value]
  else
    [.declare result (some typeMark) value]

/-! ## Literals -/

/-- The term of a literal that is not null, if its value is one of its type. -/
def Literal.term? (value : Literal) (type : Ty) : Option (Gen Term) :=
  match type, value with
  | .basic (.primitive .int), .number x =>
    match x.toInt? with
    | some n => if -2147483648 ≤ n ∧ n ≤ 2147483647 then some (Gen.pure (.number x)) else none
    | none => none
  | .basic (.primitive .long), .number x =>
    if x.toSafeInt?.isSome then some (Gen.pure (.number x)) else none
  | .basic (.primitive .double), .number x => some (Gen.pure (.number x))
  | .basic (.primitive .float), .number x => some (Gen.pure (.call .single (.number x)))
  | .basic .string, .text t => some (Gen.pure (.text t))
  | .basic (.primitive .boolean), .bool b => some (Gen.pure (.bool b))
  | .basic .date, .date (some t) =>
    some (do return .name (← Gen.request (.dateConstant (some t))))
  | _, _ => none

def Literal.generate (s : Setting) (isNull result : Name) (value : Literal) (type : Ty) :
    Gen Block :=
  if value = .null then
    return s.flag isNull (.bool true) ++ [.declare result (some type.nullableMark) .null]
  else
    match value.term? type with
    | some term => do
      let term ← term
      return s.flag isNull (.bool false) ++ [.declare result (some type.typeMark) term]
    | none =>
      Gen.fail (.unsupported (.literal value type)
        (("literal value does not match type " : Text) ++ type.text))

/-! ## Fields -/

/-- The term that reads a field of an input and takes it to have a type. -/
def Accessor.term (a : Accessor) (input : Name) (type : Text) : Term :=
  let record := Term.name input
  let read :=
    match a with
    | .index i => .index record i
    | .method name => .invoke record name
    | .member name => .member record name
  .paren (.ascribe read type)

/-- The term that reads a field from the first input that has it. -/
def Setting.fieldTerm? (s : Setting) (name : Text) (type : Ty) : Option Term :=
  match s.inputs.find? (·.type.hasField name) with
  | some input =>
    (input.type.accessor? name).map fun a => a.term (.plain input.name) type.typeMark
  | none => none

def Setting.generateField (s : Setting) (isNull result : Name) (name : Text) (type : Ty) :
    Gen Block :=
  match s.fieldTerm? name type with
  | some term =>
    return [.declare result (some type.typeMark) term] ++
      s.flag isNull (.binary .looseEq (.name result) .null)
  | none => Gen.fail (.unresolvedField (.field name type) name (s.inputs.map Input.text))

/-! ## Operators -/

/-- Equality of two present values. Values of primitive types and strings are compared strictly,
dates by their times, all else by structure. -/
def Term.equality (leftType rightType : Ty) (left right : Term) : Term :=
  if leftType.hasValueIdentity && rightType.hasValueIdentity then
    .binary .strictEq left right
  else if leftType.isBasicNamed .date && rightType.isBasicNamed .date then
    .binary .strictEq (.invoke left "getTime") (.invoke right "getTime")
  else
    .call₂ .equals left right

/-- The term of a binary operator on two present values; `type` is the declared type of the
node. -/
def BinaryOp.term (op : BinaryOp) (type leftType rightType : Ty) (left right : Term) : Term :=
  match op with
  | .gt => .binary .gt left right
  | .ge => .binary .ge left right
  | .lt => .binary .lt left right
  | .le => .binary .le left right
  | .and => .binary .and left right
  | .or => .binary .or left right
  | .eq => .equality leftType rightType left right
  | .ne => .unary .not (.paren (.equality leftType rightType left right))
  | .add => (Term.binary .add left right).narrow type
  | .sub => (Term.binary .sub left right).narrow type
  | .mul =>
    if type.isBasicNamed .int then .call₂ .wordProduct left right
    else (Term.binary .mul left right).narrow type
  | .div =>
    if type.isIntegral then
      (Term.call .trunc (.binary .div left (.call .divisor right))).narrow type
    else .binary .div left right
  | .rem =>
    if type.isIntegral then (Term.binary .rem left (.call .divisor right)).narrow type
    else .binary .rem left right
  | .bitAnd => .binary .bitAnd left.toWord right.toWord
  | .bitOr => .binary .bitOr left.toWord right.toWord
  | .bitXor => .binary .bitXor left.toWord right.toWord

/-- The type of the value that a binary operator gives. -/
def BinaryOp.resultType (op : BinaryOp) (type : Ty) : Ty := if op.isTest then .boolean else type

/-- The term of a unary operator on a present value. -/
def UnaryOp.term (op : UnaryOp) (type : Ty) (operand : Term) : Term :=
  match op with
  | .negate => (Term.unary .negate (.paren operand)).narrow type
  | .complement => .unary .complement operand.toWord
  | .not => .unary .not (.paren operand)
  | .abs => (Term.call .abs operand).narrow type

/-! ## Null tests -/

/-- Binds the outcome of a null test; it is never absent itself. -/
def Setting.nullTest (s : Setting) (isNull result : Name) (operand : Generated) (wanted : Bool) :
    Block :=
  let flag := Term.name operand.isNull
  let value := Term.paren (.name operand.result)
  let test :=
    match s.nullCheck, wanted with
    | true, true => flag
    | true, false => .unary .not flag
    | false, true => .binary .looseEq value .null
    | false, false => .binary .looseNe value .null
  s.flag isNull (.bool false) ++ [.declare result (some Ty.boolean.typeMark) test]

/-! ## Substrings -/

/-- Assigns the part of a text between two positions. The end `2147483647` stands for the end of
the text: a literal end decides the form at once, any other end is tested when the code runs. -/
def Setting.substringBlock (result : Name) (str start stop : Term) (literalEnd : Option Literal) :
    Block :=
  let toEnd : Statement := .assign result (.tail (.paren str) start)
  let bounded : Statement := .assign result (.slice (.paren str) start stop)
  match literalEnd with
  | some (.number x) => if x.eq (Double.ofInt Expr.maxInt) then [toEnd] else [bounded]
  | _ => [.branch (.binary .strictEq stop (Term.int Expr.maxInt)) [toEnd] [bounded]]

/-! ## Casts -/

/-- Why a cast to or from dates is not allowed. -/
def Ty.illegalCast? (source target : Ty) : Option Text :=
  if target.isBasicNamed .date && !(source.isBasicNamed .long || source.isBasicNamed .string) then
    some "Only Long and String can be casted to Date."
  else if source.isBasicNamed .date &&
    !(target.isBasicNamed .long || target.isBasicNamed .string) then
    some "Date can only be casted to Long or String."
  else
    none

/-- Reads a date from a text: by the timestamp, the date and the time pattern in turn, and last as
epoch milliseconds. -/
def Gen.parseDate (result : Name) (value : Term) : Gen Block := do
  let date ← Gen.request (.formatter .date)
  let time ← Gen.request (.formatter .time)
  let timestamp ← Gen.request (.formatter .timestamp)
  let parsed ← Gen.fresh "parsed"
  return [
    .reserve parsed (Basic.typeMark .date),
    .attempt parsed (.parse timestamp value) [
      .attempt parsed (.parse date value) [
        .attempt parsed (.parse time value) [
          .assign parsed (.call .epochMillis value)]]],
    .assign result (.name parsed)]

/-- The block that assigns a present value of one type as a value of another, `none` if there is
no such conversion. -/
def Gen.conversion? (result : Name) (value : Term) (source target : Ty) : Option (Gen Block) :=
  match source, target with
  | .basic .date, .basic .string => some do
    let timestamp ← Gen.request (.formatter .timestamp)
    return [.assign result (.format timestamp value)]
  | _, .basic .string => some (Gen.pure [.assign result (.call .string value)])
  | .basic (.primitive .long), .basic .date =>
    some (Gen.pure [.assign result (.call .makeDate value)])
  | .basic .string, .basic .date => some (Gen.parseDate result value)
  | .basic .date, .basic (.primitive .long) =>
    some (Gen.pure [.assign result (.invoke value "getTime")])
  | .basic .string, .basic (.primitive p) =>
    some (Gen.pure [.assign result (.call (.valueOf p) value)])
  | .basic (.primitive p), .basic (.primitive q) =>
    (value.coerce? p q).map fun t => Gen.pure [.assign result t]
  | _, _ => none

/-- What is said of a cast for which there is no conversion. -/
def Ty.noConversion (source target : Ty) : Text :=
  ("no conversion from " : Text) ++ source.text ++ " to " ++ target.text

/-- Guards the conversion of a cast by the flag of its operand, if flags are tracked. -/
def Setting.castBlock (s : Setting) (isNull result : Name) (operand : Generated) (target : Ty)
    (conversion : Block) : Block :=
  if s.nullCheck then
    s.guarded isNull result target.nullableMark (.name operand.isNull) target conversion
  else
    .reserve result target.typeMark :: conversion

/-! ## Expressions -/

/-- The code of an expression. -/
def Expr.generate (s : Setting) : Expr → Gen Generated
  | .naming inner _ _ => generate s inner
  | .literal value type => do
    let isNull ← Gen.fresh "isNull"
    let result ← Gen.fresh "result"
    let code ← value.generate s isNull result type
    return ⟨code, result, isNull⟩
  | .field name type => do
    let isNull ← Gen.fresh "isNull"
    let result ← Gen.fresh "result"
    let code ← s.generateField isNull result name type
    return ⟨code, result, isNull⟩
  | .binary op left right type => do
    let isNull ← Gen.fresh "isNull"
    let result ← Gen.fresh "result"
    let l ← generate s left
    let r ← generate s right
    let resultType := op.resultType type
    let value := op.term type left.type right.type (.name l.result) (.name r.result)
    let flag := Term.binary .or (.name l.isNull) (.name r.isNull)
    return ⟨l.code ++ r.code ++ s.compute isNull result resultType.typeMark flag resultType value,
      result, isNull⟩
  | .unary op operand type => do
    let isNull ← Gen.fresh "isNull"
    let result ← Gen.fresh "result"
    let c ← generate s operand
    let value := op.term type (.name c.result)
    return ⟨c.code ++ s.compute isNull result type.typeMark (.name c.isNull) operand.type value,
      result, isNull⟩
  | .isNull operand _ => do
    let isNull ← Gen.fresh "isNull"
    let result ← Gen.fresh "result"
    let c ← generate s operand
    return ⟨c.code ++ s.nullTest isNull result c true, result, isNull⟩
  | .isNotNull operand _ => do
    let isNull ← Gen.fresh "isNull"
    let result ← Gen.fresh "result"
    let c ← generate s operand
    return ⟨c.code ++ s.nullTest isNull result c false, result, isNull⟩
  | .cast operand type => do
    let isNull ← Gen.fresh "isNull"
    let result ← Gen.fresh "result"
    match operand.type.illegalCast? type with
    | some message => Gen.fail (.illegalCast (.cast operand type) message)
    | none =>
      let c ← generate s operand
      match Gen.conversion? result (.name c.result) operand.type type with
      | some conversion =>
        let conversion ← conversion
        return ⟨c.code ++ s.castBlock isNull result c type conversion, result, isNull⟩
      | none => Gen.fail (.unsupported (.cast operand type) (operand.type.noConversion type))
  | .substring str start stop _ => do
    let isNull ← Gen.fresh "isNull"
    let result ← Gen.fresh "result"
    let a ← generate s str
    let b ← generate s start
    let c ← generate s stop
    let body := Setting.substringBlock result (.name a.result) (.name b.result) (.name c.result)
      stop.unwrapped.literal?
    let flag := Term.binary .or (.binary .or (.name a.isNull) (.name b.isNull)) (.name c.isNull)
    let code :=
      if s.nullCheck then s.guarded isNull result Ty.string.typeMark flag str.type body
      else .reserve result Ty.string.typeMark :: body
    return ⟨a.code ++ b.code ++ c.code ++ code, result, isNull⟩

end RowExpr
