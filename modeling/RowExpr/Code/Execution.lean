import RowExpr.Code.Statement
import RowExpr.Value.Equality
import RowExpr.Value.Member

/-!
Execution of generated code. A scope binds names to values and to formatters.
`Term.eval` evaluates a term in a scope and `Block.run` executes a block, giving
the scope after it. Both stop at the first fault; only `attempt` goes on after
one.
-/

namespace RowExpr

structure Scope where
  values : List (Name × Value)
  formatters : List (Name × Formatter)

def Scope.empty : Scope := ⟨[], []⟩

/-- The scope with a name bound to a value, in place of what it was bound to. -/
def Scope.bind (s : Scope) (x : Name) (v : Value) : Scope :=
  { s with values := (x, v) :: s.values }

def Scope.bindFormatter (s : Scope) (x : Name) (f : Formatter) : Scope :=
  { s with formatters := (x, f) :: s.formatters }

def Scope.get (s : Scope) (x : Name) : Except Fault Value :=
  match s.values.lookup x with
  | some v => .ok v
  | none => .error (.unbound x.text)

def Scope.getFormatter (s : Scope) (x : Name) : Except Fault Formatter :=
  match s.formatters.lookup x with
  | some f => .ok f
  | none => .error (.unbound x.text)

/-! ## Operators and functions -/

def UnaryOperator.apply : UnaryOperator → Value → Value
  | .not, v => .bool (!v.truthy)
  | .negate, v => .number v.toNumber.neg
  | .complement, v => .ofWord (~~~ v.toWord)

/-- The result of an operator whose operands are both evaluated. -/
def InfixOperator.apply : InfixOperator → Value → Value → Value
  | .or, a, b => if a.truthy then a else b
  | .and, a, b => if a.truthy then b else a
  | .bitOr, a, b => .ofWord (a.toWord ||| b.toWord)
  | .bitXor, a, b => .ofWord (a.toWord ^^^ b.toWord)
  | .bitAnd, a, b => .ofWord (a.toWord &&& b.toWord)
  | .strictEq, a, b => .bool (a.strictEq b)
  | .looseEq, a, b => .bool (a.strictEq b || (a.isAbsent && b.isAbsent))
  | .looseNe, a, b => .bool (!(a.strictEq b || (a.isAbsent && b.isAbsent)))
  | .lt, a, b => .bool (a.less b)
  | .le, a, b => .bool (a.lessOrEqual b)
  | .gt, a, b => .bool (b.less a)
  | .ge, a, b => .bool (b.lessOrEqual a)
  | .shiftLeft, a, b => .ofWord (a.toWord <<< (b.toWord.toNat % 32))
  | .shiftRight, a, b => .ofWord (a.toWord.sshiftRight (b.toWord.toNat % 32))
  | .add, a, b => a.add b
  | .sub, a, b => .number (a.toNumber.sub b.toNumber)
  | .mul, a, b => .number (a.toNumber.mul b.toNumber)
  | .div, a, b => .number (a.toNumber.div b.toNumber)
  | .rem, a, b => .number (a.toNumber.rem b.toNumber)

def Function.apply : Function → Value → Except Fault Value
  | .trunc, v => .ok (.number v.toNumber.trunc)
  | .abs, v => .ok (.number v.toNumber.abs)
  | .single, v => .ok (.number v.toNumber.toSingle)
  | .string, v => .ok (.text v.toText)
  | .charOf, v => .ok (.text [v.toNumber.toUnit])
  | .makeDate, v => .ok (.date .made v.toTime)
  | .divisor, v => Conversion.divisor v
  | .epochMillis, v => Conversion.epochMillis v
  | .valueOf p, v => Conversion.valueOf p v

def Function₂.apply : Function₂ → Value → Value → Value
  | .wordProduct, a, b => .ofWord (a.toWord * b.toWord)
  | .equals, a, b => .bool (a.equals b)

/-! ## Terms and blocks -/

def Term.eval [TimeZones] (s : Scope) : Term → Except Fault Value
  | .name x => s.get x
  | .undefined => .ok .undefined
  | .null => .ok .null
  | .bool b => .ok (.bool b)
  | .number x => .ok (.number x.written)
  | .fractional x => .ok (.number x.written)
  | .text t => .ok (.text t)
  | .singleText t => .ok (.text t)
  | .nullUnit => .ok (.text [0])
  | .paren t => eval s t
  | .ascribe t _ => eval s t
  | .unary op t => do
    let v ← eval s t
    return op.apply v
  | .binary op left right => do
    let a ← eval s left
    match op, a.truthy with
    | .or, true => return a
    | .and, false => return a
    | _, _ => do
      let b ← eval s right
      return op.apply a b
  | .cond test yes no => do
    let v ← eval s test
    if v.truthy then eval s yes else eval s no
  | .index t i => do
    let v ← eval s t
    v.index i
  | .member t field => do
    let v ← eval s t
    v.member field
  | .invoke t method => do
    let v ← eval s t
    v.invoke method
  | .call f t => do
    let v ← eval s t
    f.apply v
  | .call₂ f left right => do
    let a ← eval s left
    let b ← eval s right
    return f.apply a b
  | .charCode t => do
    let v ← eval s t
    v.charCode
  | .tail t start => do
    let v ← eval s t
    let a ← eval s start
    v.substring a none
  | .slice t start stop => do
    let v ← eval s t
    let a ← eval s start
    let b ← eval s stop
    v.substring a (some b)
  | .format formatter t => do
    let f ← s.getFormatter formatter
    let v ← eval s t
    return .text (Conversion.formatDate f v)
  | .parse formatter t => do
    let f ← s.getFormatter formatter
    let v ← eval s t
    Conversion.parseDate f v

mutual

/-- Executes a statement; a value that faults in an attempt is passed over. -/
def Statement.run [TimeZones] : Statement → Scope → Except Fault Scope
  | .declare x _ value, s => do
    let v ← value.eval s
    return s.bind x v
  | .reserve x _, s => return s.bind x .undefined
  | .assign x value, s => do
    let v ← value.eval s
    return s.bind x v
  | .branch test yes no, s => do
    let v ← test.eval s
    if v.truthy then Block.run yes s else Block.run no s
  | .attempt x value otherwise, s =>
    match value.eval s with
    | .ok v => return s.bind x v
    | .error _ => Block.run otherwise s

/-- Executes statements in order. -/
def Block.run [TimeZones] : Block → Scope → Except Fault Scope
  | [], s => return s
  | statement :: rest, s => do
    let s ← statement.run s
    Block.run rest s

end

end RowExpr
