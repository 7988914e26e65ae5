import RowExpr.Code.Name
import RowExpr.Schema.Type

/-!
Terms of generated code and their text. The constructors are the forms that a
unit is made of, parentheses included, so that `Term.text` needs no rules of
precedence.
-/

namespace RowExpr

inductive UnaryOperator where
  | not | negate | complement
deriving DecidableEq, Repr

inductive InfixOperator where
  | or | and
  | bitOr | bitXor | bitAnd
  | strictEq | looseEq | looseNe
  | lt | le | gt | ge
  | shiftLeft | shiftRight
  | add | sub
  | mul | div | rem
deriving DecidableEq, Repr

/-- Functions of one argument. -/
inductive Function where
  | trunc | abs | single
  | string | charOf | makeDate
  | divisor | epochMillis | valueOf (p : Primitive)
deriving DecidableEq, Repr

/-- Functions of two arguments. -/
inductive Function₂ where
  | wordProduct | equals
deriving DecidableEq, Repr

inductive Term where
  | name (x : Name)
  | undefined
  | null
  | bool (b : Bool)
  /-- A number by its usual numeral. -/
  | number (x : Double)
  /-- A whole number written with one decimal place. -/
  | fractional (x : Double)
  | text (t : Text)
  /-- A text between single quotes. -/
  | singleText (t : Text)
  /-- The text of one null unit, written with the short escape. -/
  | nullUnit
  | paren (t : Term)
  /-- A term with the type it is taken to have. -/
  | ascribe (t : Term) (type : Text)
  | unary (op : UnaryOperator) (t : Term)
  | binary (op : InfixOperator) (left right : Term)
  | cond (test yes no : Term)
  | index (t : Term) (i : Nat)
  | member (t : Term) (field : Text)
  /-- A call of a method without arguments. -/
  | invoke (t : Term) (method : Text)
  | call (f : Function) (t : Term)
  | call₂ (f : Function₂) (left right : Term)
  /-- The code of the first unit of a text. -/
  | charCode (t : Term)
  /-- The part of a text from a position on. -/
  | tail (t start : Term)
  /-- The part of a text between two positions. -/
  | slice (t start stop : Term)
  | format (formatter : Name) (t : Term)
  | parse (formatter : Name) (t : Term)
deriving DecidableEq

def UnaryOperator.symbol : UnaryOperator → Text
  | .not => "!"
  | .negate => "-"
  | .complement => "~"

def InfixOperator.symbol : InfixOperator → Text
  | .or => "||"
  | .and => "&&"
  | .bitOr => "|"
  | .bitXor => "^"
  | .bitAnd => "&"
  | .strictEq => "==="
  | .looseEq => "=="
  | .looseNe => "!="
  | .lt => "<"
  | .le => "<="
  | .gt => ">"
  | .ge => ">="
  | .shiftLeft => "<<"
  | .shiftRight => ">>"
  | .add => "+"
  | .sub => "-"
  | .mul => "*"
  | .div => "/"
  | .rem => "%"

def Function.text : Function → Text
  | .trunc => "Math.trunc"
  | .abs => "Math.abs"
  | .single => "Math.fround"
  | .string => "String"
  | .charOf => "String.fromCharCode"
  | .makeDate => "new Date"
  | .divisor => "runtime.checkDivisor"
  | .epochMillis => "runtime.parseEpochMillis"
  | .valueOf p => ("runtime.valueOf." : Text) ++ p.name

def Function₂.text : Function₂ → Text
  | .wordProduct => "Math.imul"
  | .equals => "runtime.equals"

/-- Access to a member: dotted if its name is an identifier, else by the quoted name in
brackets. -/
def Term.memberText (field : Text) : Text :=
  if Name.isIdentifier field then ("." : Text) ++ field else ("[" : Text) ++ field.quoted ++ "]"

def Term.toText : Term → Text
  | .name x => x.text
  | .undefined => "undefined"
  | .null => "null"
  | .bool true => "true"
  | .bool false => "false"
  | .number x => x.text
  | .fractional x => x.text ++ ".0"
  | .text t => t.quoted
  | .singleText t => t.singleQuoted
  | .nullUnit => "\"\\0\""
  | .paren t => ("(" : Text) ++ t.toText ++ ")"
  | .ascribe t type => t.toText ++ " as " ++ type
  | .unary op t => op.symbol ++ t.toText
  | .binary op left right => left.toText ++ " " ++ op.symbol ++ " " ++ right.toText
  | .cond test yes no => test.toText ++ " ? " ++ yes.toText ++ " : " ++ no.toText
  | .index t i => t.toText ++ "[" ++ Text.ofNat i ++ "]"
  | .member t field => t.toText ++ memberText field
  | .invoke t method => t.toText ++ memberText method ++ "()"
  | .call f t => f.text ++ "(" ++ t.toText ++ ")"
  | .call₂ f left right => f.text ++ "(" ++ left.toText ++ ", " ++ right.toText ++ ")"
  | .charCode t => t.toText ++ ".charCodeAt(0)"
  | .tail t start => t.toText ++ ".substring(" ++ start.toText ++ ")"
  | .slice t start stop => t.toText ++ ".substring(" ++ start.toText ++ ", " ++ stop.toText ++ ")"
  | .format formatter t => formatter.text ++ ".format(" ++ t.toText ++ ")"
  | .parse formatter t => formatter.text ++ ".parse(" ++ t.toText ++ ")"

end RowExpr
