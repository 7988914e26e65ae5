import RowExpr.Number.Double

/-!
Arithmetic and order of floating-point numbers. Each operation on finite numbers
computes with exact quanta and rounds once; the cases of NaN, of the infinities
and of the sign of a zero result stand beside it.
-/

namespace RowExpr

def Double.neg : Double → Double
  | .nan => .nan
  | .infinite s => .infinite (!s)
  | .finite s r => .finite (!s) r

def Double.abs : Double → Double
  | .nan => .nan
  | .infinite _ => .infinite false
  | .finite _ r => .finite false r

/-- Sum. Two zeros, or a number and its opposite, give zero, negative only if both are. -/
def Double.add (x y : Double) : Double :=
  match x, y with
  | .finite s r, .finite t q =>
    ofQuotient (s && t)
      ((if s then -(quantaOf r : Int) else quantaOf r) +
        (if t then -(quantaOf q : Int) else quantaOf q))
      one
  | .infinite s, .infinite t => if s = t then .infinite s else .nan
  | .infinite s, .finite _ _ => .infinite s
  | .finite _ _, .infinite t => .infinite t
  | _, _ => .nan

def Double.sub (x y : Double) : Double := x.add y.neg

/-- Product. -/
def Double.mul (x y : Double) : Double :=
  match x, y with
  | .finite s r, .finite t q => ofRatio (s ^^ t) (quantaOf r * quantaOf q) (one * one)
  | .infinite s, .infinite t => .infinite (s ^^ t)
  | .infinite s, .finite t q => if q.val = 0 then .nan else .infinite (s ^^ t)
  | .finite s r, .infinite t => if r.val = 0 then .nan else .infinite (s ^^ t)
  | _, _ => .nan

/-- Quotient. A nonzero number divided by zero is an infinity. -/
def Double.div (x y : Double) : Double :=
  match x, y with
  | .finite s r, .finite t q =>
    if q.val = 0 then
      if r.val = 0 then .nan else .infinite (s ^^ t)
    else
      ofRatio (s ^^ t) (quantaOf r) (quantaOf q)
  | .infinite s, .finite t _ => .infinite (s ^^ t)
  | .finite s _, .infinite t => zero (s ^^ t)
  | _, _ => .nan

/-- Remainder of the division toward zero; it has the sign of the dividend, also when it is
zero. -/
def Double.rem (x y : Double) : Double :=
  match x, y with
  | .finite s r, .finite _ q =>
    if q.val = 0 then .nan else ofRatio s (quantaOf r % quantaOf q) one
  | .finite s r, .infinite _ => .finite s r
  | _, _ => .nan

/-- The number without its fraction; the sign stays, also that of a zero. -/
def Double.trunc : Double → Double
  | .finite s r => ofRatio s (quantaOf r / one) 1
  | x => x

/-- The nearest number of 32 bits: a significand of 24 bits, multiples of `2 ^ -149`, and infinity
from `2 ^ 128` on. -/
def Double.toSingle : Double → Double
  | .finite s r =>
    let n := quantaOf r
    let k := max 925 (Nat.log2 n - 23)
    let rounded := roundQuotient n (Nat.pow 2 k) * Nat.pow 2 k
    if rounded < Nat.pow 2 128 * one then ofRatio s rounded one else .infinite s
  | x => x

/-- Strictly less; false if a number is NaN. -/
def Double.lt (x y : Double) : Bool :=
  match x, y with
  | .nan, _ | _, .nan => false
  | .infinite s, .infinite t => s && !t
  | .infinite s, .finite _ _ => s
  | .finite _ _, .infinite t => !t
  | .finite s r, .finite t q =>
    decide
      ((if s then -(quantaOf r : Int) else quantaOf r) <
        (if t then -(quantaOf q : Int) else quantaOf q))

/-- Numerical equality: the two zeros are equal, NaN is equal to nothing. -/
def Double.eq (x y : Double) : Bool :=
  match x, y with
  | .nan, _ | _, .nan => false
  | .finite s r, .finite t q => r == q && (s == t || r.val == 0)
  | x, y => x == y

def Double.le (x y : Double) : Bool := x.lt y || x.eq y

/-- The integer nearest to zero of the two around a finite number, modulo `2 ^ 32`; zero for NaN
and the infinities. -/
def Double.toWord (x : Double) : BitVec 32 :=
  match x.truncated? with
  | some n => BitVec.ofInt 32 n
  | none => 0

/-- A word read as an integer in two's complement. -/
def Double.ofWord (w : BitVec 32) : Double := ofInt w.toInt

/-- The low 16 bits of a number, as a code unit. -/
def Double.toUnit (x : Double) : UInt16 := UInt16.ofNat x.toWord.toNat

end RowExpr
