import RowExpr.Number.Double
import RowExpr.Text.Basic

/-!
Decimal text of floating-point numbers.

`Double.shortest` gives the fewest decimal digits that read back as the number,
and of several such decimals the nearest. `Decimal.layout` decides how digits and
exponent are written: positionally for exponents from -7 up to 21, else with an
exponent mark. `Double.ofDecimal` reads a decimal and rounds it once.
-/

namespace RowExpr

/-- The decimal number `digits * 10 ^ exponent`. -/
structure Decimal where
  digits : Nat
  exponent : Int
deriving DecidableEq, Repr

/-- The number of decimal digits of a natural number, at least one. -/
def Decimal.width (n : Nat) : Nat := (Text.ofNat n).length

/-- A positive decimal as a quotient. -/
def Decimal.num (d : Decimal) : Nat := d.digits * Nat.pow 10 d.exponent.toNat

def Decimal.den (d : Decimal) : Nat := Nat.pow 10 (-d.exponent).toNat

/-- The number nearest to a decimal, negated if `neg`. A decimal of `10 ^ 309` or more is
infinity, one below `10 ^ -324` is zero, so that no large power is computed for them. -/
def Double.ofDecimal (neg : Bool) (d : Decimal) : Double :=
  if d.digits = 0 then zero neg
  else if 309 < Decimal.width d.digits + d.exponent then .infinite neg
  else if Decimal.width d.digits + d.exponent < -323 then zero neg
  else ofRatio neg d.num d.den

/-- The decimal without trailing zeros, `fuel` being the most that are taken off. -/
def Decimal.normalize : (fuel : Nat) → Decimal → Decimal
  | 0, d => d
  | fuel + 1, d =>
    if d.digits ≠ 0 ∧ d.digits % 10 = 0 then normalize fuel ⟨d.digits / 10, d.exponent + 1⟩ else d

/-- The exponent of the leading decimal digit of `n` quanta. -/
def Decimal.leading (n : Nat) : Int :=
  Decimal.width (n * Nat.pow 10 324 / Double.one) - 325

/-- The decimal with `count` digits nearest to the magnitude of a rank, if it reads back as it; of
two that are equally near the even one. -/
def Decimal.withDigits? (rank count : Nat) : Option Decimal :=
  let n := Double.quantaOf rank
  let e := leading n - (count - 1 : Nat)
  let num := n * Nat.pow 10 (-e).toNat
  let den := Double.one * Nat.pow 10 e.toNat
  let low : Decimal := ⟨num / den, e⟩
  let high : Decimal := ⟨num / den + 1, e⟩
  let lowReads := Double.nearestRank low.num low.den == rank
  let highReads := Double.nearestRank high.num high.den == rank
  let nearest : Decimal := ⟨Double.roundQuotient num den, e⟩
  if lowReads && highReads then some nearest
  else if lowReads then some low
  else if highReads then some high
  else none

/-- The numbers of digits among which the shortest decimal is searched; the last always
suffices. -/
def Decimal.counts : List Nat := List.range' 1 17

/-- The shortest decimal that reads back as the magnitude of a positive rank. -/
def Double.shortest (rank : Nat) : Decimal :=
  ((Decimal.counts.findSome? (Decimal.withDigits? rank)).getD ⟨quantaOf rank, -1074⟩).normalize 17

/-- The text of a positive decimal. With the leading digit at exponent `e`, the digits are written
positionally if `-7 < e < 21`, and otherwise as `d.ddde±x`. -/
def Decimal.layout (d : Decimal) : Text :=
  let digits := Text.ofNat d.digits
  let e : Int := d.exponent + (digits.length - 1 : Nat)
  if 21 ≤ e ∨ e ≤ -7 then
    let fraction := if digits.length = 1 then [] else 46 :: digits.drop 1
    let sign : Text := if e < 0 then "e-" else "e+"
    digits.take 1 ++ fraction ++ sign ++ Text.ofNat e.natAbs
  else if 0 ≤ d.exponent then
    digits ++ List.replicate d.exponent.toNat Text.zeroDigit
  else if 0 ≤ e then
    digits.take (e.toNat + 1) ++ 46 :: digits.drop (e.toNat + 1)
  else
    ("0." : Text) ++ List.replicate ((-e).toNat - 1) Text.zeroDigit ++ digits

/-- The text of a number; the sign of zero is not written. -/
def Double.text : Double → Text
  | .nan => "NaN"
  | .infinite false => "Infinity"
  | .infinite true => "-Infinity"
  | .finite neg rank =>
    if rank.val = 0 then "0"
    else
      let digits := (shortest rank).layout
      if neg then Text.minus :: digits else digits

/-- The number that the text of a number denotes: itself, save that zero has no sign. -/
def Double.written (x : Double) : Double :=
  if x.isZero then zero false else x

end RowExpr
