/-!
Binary floating-point numbers of 64 bits.

Every finite number is a whole multiple of `2 ^ -1074`, the least positive
number. The non-negative finite numbers, listed in increasing order, are counted
by their *rank*, so a finite number is a sign and a rank, and no number has two
representations. `Double.quantaOf` turns a rank into the number of quanta of
`2 ^ -1074`; `Double.nearestRank` finds the rank nearest to a quotient of natural
numbers, a tie going to the even rank. All arithmetic is exact arithmetic on
quanta followed by one such rounding.
-/

namespace RowExpr

/-- The number of finite magnitudes; the first rank that is no finite number. -/
abbrev Double.rankBound : Nat := 2047 * Nat.pow 2 52

/-- A 64-bit floating-point number; all payloads of NaN are one value. -/
inductive Double where
  | nan
  | infinite (neg : Bool)
  | finite (neg : Bool) (rank : Fin Double.rankBound)
deriving DecidableEq, Repr

/-- The number of binary places of a quantum. -/
def Double.places : Nat := 1074

/-- The number of quanta in one. -/
def Double.one : Nat := Nat.pow 2 places

/-- The quanta of the magnitude of this rank: up to rank `2 ^ 53` the ranks are the quanta, then
the step between neighbours doubles every `2 ^ 52` ranks. -/
def Double.quantaOf (rank : Nat) : Nat :=
  let k := rank / Nat.pow 2 52 - 1
  (rank - k * Nat.pow 2 52) * Nat.pow 2 k

/-- The natural number nearest to a quotient, the even one of two that are equally near. -/
def Double.roundQuotient (num den : Nat) : Nat :=
  let q := num / den
  let r := num % den
  if 2 * r < den then q
  else if den < 2 * r then q + 1
  else q + q % 2

/-- The rank of the magnitude nearest to `num / den`. The result reaches `rankBound` if the
quotient is too large. -/
def Double.nearestRank (num den : Nat) : Nat :=
  let n := num * one
  let k := Nat.log2 (n / den) - 52
  k * Nat.pow 2 52 + roundQuotient n (den * Nat.pow 2 k)

/-- The number of this sign and rank; a rank beyond the last is infinity. -/
def Double.ofRank (neg : Bool) (rank : Nat) : Double :=
  if h : rank < rankBound then .finite neg ⟨rank, h⟩ else .infinite neg

/-- The number nearest to `num / den`, negated if `neg`. -/
def Double.ofRatio (neg : Bool) (num den : Nat) : Double :=
  ofRank neg (nearestRank num den)

/-- The number nearest to an integer. Zero is positive. -/
def Double.ofInt (n : Int) : Double :=
  ofRatio (n < 0) n.natAbs 1

/-- Zero of this sign. -/
def Double.zero (neg : Bool) : Double := .finite neg ⟨0, by decide⟩

/-- The signed number of quanta of a finite number; `none` for NaN and the infinities. -/
def Double.quanta? : Double → Option Int
  | .finite neg rank => some (if neg then -(quantaOf rank : Int) else quantaOf rank)
  | _ => none

/-- The number that a signed quotient `num / den` rounds to; the sign of a zero quotient is
`neg`. -/
def Double.ofQuotient (neg : Bool) (num : Int) (den : Nat) : Double :=
  if num = 0 then zero neg else ofRatio (num < 0) num.natAbs den

def Double.isNaN : Double → Bool
  | .nan => true
  | _ => false

def Double.isZero : Double → Bool
  | .finite _ rank => rank.val == 0
  | _ => false

/-- The integer that a number is, if it is one. -/
def Double.toInt? (x : Double) : Option Int :=
  match x.quanta? with
  | some q => if q % (one : Int) = 0 then some (q / (one : Int)) else none
  | none => none

/-- A finite number without its fraction, as an integer; `none` for NaN and the infinities. -/
def Double.truncated? (x : Double) : Option Int :=
  x.quanta?.map fun q => q.tdiv (one : Int)

/-- Integers up to this magnitude are exact, and so are their neighbours. -/
abbrev Double.maxSafe : Int := 9007199254740991

/-- The integer that a number is, if it is one in the safe range. -/
def Double.toSafeInt? (x : Double) : Option Int :=
  match x.toInt? with
  | some n => if -maxSafe ≤ n && n ≤ maxSafe then some n else none
  | none => none

end RowExpr
