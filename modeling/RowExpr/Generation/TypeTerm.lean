import RowExpr.Code.Term

/-!
How types show in generated code: the annotation of a type, the value that stands
for an absent one, and the terms that bring a number into the range of a type or
turn a value of one primitive type into another.
-/

namespace RowExpr

def Basic.typeMark : Basic → Text
  | .primitive .boolean => "boolean"
  | .primitive .char => "string"
  | .primitive _ => "number"
  | .string => "string"
  | .date => "Date"

/-- The annotation of an array of a primitive type. -/
def Primitive.arrayMark : Primitive → Text
  | .int => "Int32Array"
  | .long => "number[]"
  | .short => "Int16Array"
  | .byte => "Int8Array"
  | .float => "Float32Array"
  | .double => "Float64Array"
  | .boolean => "boolean[]"
  | .char => "string[]"

def Ty.typeMark : Ty → Text
  | .basic b => b.typeMark
  | .array element => element.arrayMark
  | .composite _ => "unknown"

/-- The annotation of a type whose value may be null. -/
def Ty.nullableMark (t : Ty) : Text := t.typeMark ++ " | null"

def Term.minusOne : Double := Double.ofInt (-1)

/-- The term that stands for an absent value of a basic type. -/
def Basic.defaultTerm : Basic → Term
  | .primitive .int | .primitive .long | .primitive .short | .primitive .byte =>
    .number Term.minusOne
  | .primitive .float => .call .single (.fractional Term.minusOne)
  | .primitive .double => .fractional Term.minusOne
  | .primitive .boolean => .bool false
  | .primitive .char => .nullUnit
  | .string => .text "<empty>"
  | .date => .null

/-- The term that stands for an absent value of a type. -/
def Ty.defaultTerm : Ty → Term
  | .basic b => b.defaultTerm
  | _ => .null

/-- A number given by an integer. -/
def Term.int (n : Int) : Term := .number (Double.ofInt n)

/-- A term taken to 32 bits. -/
def Term.toWord (t : Term) : Term := .paren (.binary .bitOr t (int 0))

/-- A term whose low bits are kept: shifted up by `bits` and down again, so that the sign
follows. -/
def Term.signExtend (t : Term) (bits : Int) : Term :=
  .paren (.binary .shiftRight (.paren (.binary .shiftLeft t (int bits))) (int bits))

/-- A number brought into the range of a type of at most 32 bits; other types have no such
term. -/
def Term.wrap? (p : Primitive) (t : Term) : Option Term :=
  match p with
  | .int => some t.toWord
  | .short => some (t.signExtend 16)
  | .byte => some (t.signExtend 24)
  | _ => none

/-- A number brought into the range of a type, if the type has at most 32 bits. -/
def Term.narrow (t : Term) (type : Ty) : Term :=
  match type with
  | .basic (.primitive p) => (t.wrap? p).getD t
  | _ => t

/-- A value of one primitive type as a value of another. Truth values have no such term. -/
def Term.coerce? (t : Term) (source target : Primitive) : Option Term :=
  if source = target then
    some t
  else if source = .boolean ∨ target = .boolean then
    none
  else
    let numeric := if source = .char then .charCode t else t
    match target with
    | .long => some (.call .trunc numeric)
    | .float => some (.call .single numeric)
    | .double => some numeric
    | .char => some (.call .charOf numeric)
    | p => numeric.wrap? p

end RowExpr
