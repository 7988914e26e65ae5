import RowExpr.Calendar.Instant
import RowExpr.Number.Decimal
import RowExpr.Schema.Type

/-!
Expression trees. Every node carries the type that was declared for it, which is
taken as it is. `Expr.text` is the infix rendering used in messages.
-/

namespace RowExpr

/-- The value of a literal node. -/
inductive Literal where
  | null
  | bool (b : Bool)
  | number (x : Double)
  | text (t : Text)
  | date (t : Time)
deriving DecidableEq

inductive BinaryOp where
  | gt | ge | lt | le
  | eq | ne
  | and | or
  | add | sub | mul | div | rem
  | bitAnd | bitOr | bitXor
deriving DecidableEq, Repr

inductive UnaryOp where
  | not | negate | complement | abs
deriving DecidableEq, Repr

inductive Expr where
  | literal (value : Literal) (type : Ty)
  | field (name : Text) (type : Ty)
  | naming (inner : Expr) (label : Text) (type : Ty)
  | binary (op : BinaryOp) (left right : Expr) (type : Ty)
  | unary (op : UnaryOp) (operand : Expr) (type : Ty)
  | isNull (operand : Expr) (type : Ty)
  | isNotNull (operand : Expr) (type : Ty)
  | cast (operand : Expr) (type : Ty)
  | substring (str start stop : Expr) (type : Ty)

instance : Inhabited Expr := ⟨.literal .null default⟩

/-- The declared type. -/
def Expr.type : Expr → Ty
  | .literal _ type => type
  | .field _ type => type
  | .naming _ _ type => type
  | .binary _ _ _ type => type
  | .unary _ _ type => type
  | .isNull _ type => type
  | .isNotNull _ type => type
  | .cast _ type => type
  | .substring _ _ _ type => type

/-- The expression under the naming wrappers at its top. -/
def Expr.unwrapped : Expr → Expr
  | .naming inner _ _ => inner.unwrapped
  | e => e

/-- The value of a literal node. -/
def Expr.literal? : Expr → Option Literal
  | .literal value _ => some value
  | _ => none

def Expr.isCast : Expr → Bool
  | .cast _ _ => true
  | _ => false

def Expr.isBinary : Expr → Bool
  | .binary _ _ _ _ => true
  | _ => false

/-- The largest 32-bit integer; as the end of a substring it stands for the end of the text. -/
abbrev Expr.maxInt : Int := 2147483647

/-! ## Operators -/

def BinaryOp.symbol : BinaryOp → Text
  | .gt => ">"
  | .ge => ">="
  | .lt => "<"
  | .le => "<="
  | .eq => "=="
  | .ne => "!="
  | .and => "&&"
  | .or => "||"
  | .add => "+"
  | .sub => "-"
  | .mul => "*"
  | .div => "/"
  | .rem => "%"
  | .bitAnd => "&"
  | .bitOr => "|"
  | .bitXor => "^"

def UnaryOp.symbol : UnaryOp → Text
  | .not => "!"
  | .negate => "-"
  | .complement => "~"
  | .abs => "abs"

def BinaryOp.all : List BinaryOp :=
  [.gt, .ge, .lt, .le, .eq, .ne, .and, .or, .add, .sub, .mul, .div, .rem, .bitAnd,
    .bitOr, .bitXor]

def UnaryOp.all : List UnaryOp := [.not, .negate, .complement, .abs]

/-- Operators that give a truth value, whatever type is declared. -/
def BinaryOp.isTest : BinaryOp → Bool
  | .gt | .ge | .lt | .le | .eq | .ne | .and | .or => true
  | _ => false

/-! ## Infix text -/

def Literal.infixText : Literal → Text
  | .null => "null"
  | .bool true => "true"
  | .bool false => "false"
  | .number x => x.text
  | .text t => t.quoted
  | .date t => ("Date(" : Text) ++ t.toDouble.text ++ ")"

def Expr.text : Expr → Text
  | .literal value _ => value.infixText
  | .field name _ => name
  | .naming inner label _ => inner.text ++ " as " ++ label
  | .binary op left right _ =>
    ("(" : Text) ++ left.text ++ " " ++ op.symbol ++ " " ++ right.text ++ ")"
  | .unary op operand _ => op.symbol ++ "(" ++ operand.text ++ ")"
  | .isNull operand _ => ("isNull(" : Text) ++ operand.text ++ ")"
  | .isNotNull operand _ => ("isNotNull(" : Text) ++ operand.text ++ ")"
  | .cast operand type => ("cast(" : Text) ++ operand.text ++ " as " ++ type.text ++ ")"
  | .substring str start stop _ =>
    ("substring(" : Text) ++ str.text ++ ", " ++ start.text ++ ", " ++ stop.text ++ ")"

/-! ## Building expressions -/

/-- A name for an expression; its type is that of the expression. -/
def Expr.named (inner : Expr) (label : Text) : Expr := .naming inner label inner.type

/-- A unary node; without a type it has that of its operand. -/
def Expr.apply (op : UnaryOp) (operand : Expr) (type : Option Ty) : Expr :=
  .unary op operand (type.getD operand.type)

/-- A comparison, equality or logical node of type Boolean. -/
def Expr.test (left : Expr) (op : BinaryOp) (right : Expr) : Expr :=
  .binary op left right .boolean

/-- An arithmetic or bitwise node; without a type it has that of its left operand. -/
def Expr.compute (left : Expr) (op : BinaryOp) (right : Expr) (type : Option Ty) : Expr :=
  .binary op left right (type.getD left.type)

/-- Expressions joined from left to right by one logical operator. -/
def Expr.chain (op : BinaryOp) (first : Expr) (rest : List Expr) : Expr :=
  rest.foldl (fun acc e => test acc op e) first

def Expr.negation (operand : Expr) : Expr := .unary .not operand .boolean

def Expr.absent (operand : Expr) : Expr := .isNull operand .boolean

def Expr.present (operand : Expr) : Expr := .isNotNull operand .boolean

def Expr.slice (str start stop : Expr) : Expr := .substring str start stop .string

end RowExpr
