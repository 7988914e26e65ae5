import RowExpr.Calendar.Pattern
import RowExpr.Schema.Type
import RowExpr.Value.Operator

/-!
Conversions that evaluation can ask for and that can fail: texts to values of the
primitive types, texts to instants, and the check of a divisor. A `Fault` is what
goes wrong while a record is evaluated.
-/

namespace RowExpr

/-- What goes wrong while a record is evaluated. -/
inductive Fault where
  /-- A value, mostly a text, that cannot be converted, and what it should have been. -/
  | unparseable (given : Value) (target : Text)
  | arithmetic (message : Text)
  /-- A member or method of a value that does not have it. -/
  | wrongKind
  /-- A name that nothing is bound to. -/
  | unbound (name : Text)

def Fault.message : Fault → Text
  | .unparseable given target =>
    ("Unparseable " : Text) ++ target ++ ": \"" ++ given.toText ++ "\""
  | .arithmetic message => message
  | .wrongKind => "value is of the wrong kind"
  | .unbound name => name ++ " is not defined"

/-- Division or remainder of integers by zero. -/
def Fault.divisionByZero : Fault := .arithmetic "/ by zero"

namespace Conversion

/-- An integer written in a text, white space around it ignored, if it lies in the range. -/
def integral (p : Primitive) (low high : Int) (t : Text) : Except Fault Value :=
  match Numeral.integer? t.trim with
  | some x =>
    if x.lt (Double.ofInt low) || (Double.ofInt high).lt x then
      .error (.unparseable (.text t) p.name)
    else
      .ok (.number x)
  | none => .error (.unparseable (.text t) p.name)

/-- A decimal number written in a text, white space around it ignored. -/
def fractional (p : Primitive) (t : Text) : Except Fault Double :=
  match Numeral.decimal? t.trim with
  | some x => .ok x
  | none => .error (.unparseable (.text t) p.name)

/-- The value of a primitive type that a text denotes. `Boolean` is true for the word `true` in
letters of either case and false for all else; `Char` takes a text of one character. -/
def ofText (p : Primitive) (t : Text) : Except Fault Value :=
  match p with
  | .int => integral p (-2147483648) 2147483647 t
  | .long => integral p (-Double.maxSafe) Double.maxSafe t
  | .short => integral p (-32768) 32767 t
  | .byte => integral p (-128) 127 t
  | .float => (fractional p t).map fun x => .number x.toSingle
  | .double => (fractional p t).map .number
  | .boolean => .ok (.bool (t.lower == "true"))
  | .char => if t.codePoints = 1 then .ok (.text t) else .error (.unparseable (.text t) p.name)

/-- The value of a primitive type that a text value denotes. `Char` counts the elements of what it
is given, so it also takes an array of one element, as it is. -/
def valueOf (p : Primitive) (v : Value) : Except Fault Value :=
  match p, v with
  | _, .text t => ofText p t
  | .char, .array _ elements =>
    if elements.length = 1 then .ok v else .error (.unparseable v p.name)
  | .char, .typed _ _ elements =>
    if elements.length = 1 then .ok v else .error (.unparseable v p.name)
  | _, _ => .error .wrongKind

/-- The date whose epoch milliseconds a text gives. -/
def epochMillis : Value → Except Fault Value
  | .text t =>
    match (Numeral.integer? t.trim).bind Double.toSafeInt? with
    | some n =>
      match Time.ofMillis n with
      | some i => .ok (.date .made (some i))
      | none => .error (.unparseable (.text t) "epoch milliseconds")
    | none => .error (.unparseable (.text t) "epoch milliseconds")
  | _ => .error .wrongKind

/-- A divisor, which must not be zero. -/
def divisor (v : Value) : Except Fault Value :=
  match v with
  | .number x => if x.isZero then .error .divisionByZero else .ok v
  | _ => .ok v

/-- The text of a date; what is no date is written as an invalid one. -/
def formatDate [TimeZones] (f : Formatter) : Value → Text
  | .date _ t => f.format t
  | _ => f.format none

/-- The date at the beginning of a text. -/
def parseDate [TimeZones] (f : Formatter) : Value → Except Fault Value
  | .text t =>
    match f.parse? t with
    | some i => .ok (.date .made (some i))
    | none =>
      .error (.unparseable (.text t) (("date for pattern \"" : Text) ++ f.pattern ++ "\""))
  | _ => .error .wrongKind

end Conversion

end RowExpr
