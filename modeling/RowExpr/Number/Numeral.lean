import RowExpr.Number.Decimal
import RowExpr.Text.Blank

/-!
Reading numbers from text. `Numeral.integer?` accepts an optional sign and
digits; `Numeral.decimal?` also a decimal point and an exponent. `Numeral.read`
is the lenient reading that operators use: white space around the numeral is
ignored, nothing at all is zero, infinities and digits in base two, eight and
sixteen are known, and anything else is NaN.
-/

namespace RowExpr

/-- Takes an optional sign off a text; `true` if it was a minus. -/
def Numeral.sign : Text → Bool × Text
  | 43 :: rest => (false, rest)
  | 45 :: rest => (true, rest)
  | t => (false, t)

/-- Splits a text after its leading digits. -/
def Numeral.digits (t : Text) : Text × Text :=
  (t.takeWhile Text.isDigit, t.dropWhile Text.isDigit)

/-- Splits a text after a point and the digits that follow it, if it begins with a point; gives
the digits. -/
def Numeral.fraction : Text → Text × Text
  | 46 :: more => digits more
  | t => ([], t)

/-- A number written as an optional sign and at least one digit. -/
def Numeral.integer? (t : Text) : Option Double :=
  let (neg, rest) := sign t
  if rest ≠ [] ∧ rest.all Text.isDigit then
    some (Double.ofDecimal neg ⟨Text.digitsValue rest, 0⟩)
  else
    none

/-- The value of an exponent part: nothing, or `e` with an optional sign and at least one
digit. -/
def Numeral.exponent? : Text → Option Int
  | [] => some 0
  | mark :: rest =>
    let (neg, ds) := sign rest
    if (mark = 101 ∨ mark = 69) ∧ ds ≠ [] ∧ ds.all Text.isDigit then
      some (if neg then -(Text.digitsValue ds : Int) else Text.digitsValue ds)
    else
      none

/-- A number written as an optional sign, digits with an optional decimal point, at least one of
them a digit, and an optional exponent. -/
def Numeral.decimal? (t : Text) : Option Double :=
  let (neg, rest) := sign t
  let (whole, rest) := digits rest
  let (fraction, rest) := fraction rest
  if whole = [] ∧ fraction = [] then
    none
  else
    (exponent? rest).map fun e =>
      Double.ofDecimal neg ⟨Text.digitsValue (whole ++ fraction), e - fraction.length⟩

/-- The value of digits in a base up to sixteen. -/
def Numeral.inBase? (base : Nat) (t : Text) : Option Double :=
  if t = [] then
    none
  else
    let value? := t.foldlM (fun n u =>
      match Text.hexDigitValue? u with
      | some d => if d < base then some (n * base + d) else none
      | none => none) 0
    value?.map fun n => Double.ofRatio false n 1

/-- The number that a text denotes for an operator, NaN if it is no number. -/
def Numeral.read (t : Text) : Double :=
  let t := t.trim
  let result? :=
    match t with
    | [] => some (Double.zero false)
    | 48 :: mark :: rest =>
      if mark = 120 ∨ mark = 88 then inBase? 16 rest
      else if mark = 111 ∨ mark = 79 then inBase? 8 rest
      else if mark = 98 ∨ mark = 66 then inBase? 2 rest
      else decimal? t
    | _ =>
      let (neg, rest) := sign t
      if rest = "Infinity" then some (.infinite neg) else decimal? t
  result?.getD .nan

end RowExpr
