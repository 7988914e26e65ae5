import RowExpr.Number.Arithmetic
import RowExpr.Number.Numeral
import RowExpr.Value.Basic

/-!
The operators of evaluation on values of any kind. Arithmetic converts its
operands to numbers; addition joins texts if an operand is one; order compares
texts by their units and everything else as numbers; the bitwise operators work
on 32-bit words.
-/

namespace RowExpr

/-- The number of a value: null is zero, undefined is NaN, a date is its time, and a text or an
array is read as a numeral. -/
def Value.toNumber : Value → Double
  | .undefined => .nan
  | .null => .zero false
  | .bool b => Double.ofInt (if b then 1 else 0)
  | .number x => x
  | .text t => Numeral.read t
  | .date _ t => t.toDouble
  | v => Numeral.read v.toText

def Value.toWord (v : Value) : BitVec 32 := v.toNumber.toWord

/-- A number made of a word. -/
def Value.ofWord (w : BitVec 32) : Value := .number (Double.ofWord w)

/-- The time of the date made from a value: from a date or from a number of milliseconds. Texts
and other objects, which the host reads by rules of its own, give no time here. -/
def Value.toTime : Value → Time
  | .date _ t => t
  | .undefined => none
  | .null => Time.ofDouble (.zero false)
  | .bool b => Time.ofDouble (Value.bool b).toNumber
  | .number x => Time.ofDouble x
  | _ => none

/-- Objects and texts are joined as texts by addition, all others are numbers. -/
def Value.addsAsText : Value → Bool
  | .undefined | .null | .bool _ | .number _ => false
  | _ => true

def Value.add (a b : Value) : Value :=
  if a.addsAsText || b.addsAsText then .text (a.toText ++ b.toText)
    else .number (a.toNumber.add b.toNumber)

/-- The text as which a value takes part in a comparison, if it does not do so as a number. -/
def Value.comparedText? : Value → Option Text
  | .text t => some t
  | .array id xs => some (Value.array id xs).toText
  | .typed id k xs => some (Value.typed id k xs).toText
  | .record id ms => some (Value.record id ms).toText
  | .method id v => some (Value.method id v).toText
  | _ => none

def Value.less (a b : Value) : Bool :=
  match a.comparedText?, b.comparedText? with
  | some s, some t => Text.less s t
  | _, _ => a.toNumber.lt b.toNumber

/-- Less or equal; false, like all comparisons, if a side is NaN. -/
def Value.lessOrEqual (a b : Value) : Bool :=
  match a.comparedText?, b.comparedText? with
  | some s, some t => !Text.less t s
  | _, _ => a.toNumber.le b.toNumber

/-- Two values are one object. A date that is one object has one time. -/
def Value.sameObject : Value → Value → Bool
  | .date (.given m) s, .date (.given n) t => m == n && s == t
  | .date .constant s, .date .constant t => s == t
  | .array (.given m) _, .array (.given n) _ => m == n
  | .typed (.given m) _ _, .typed (.given n) _ _ => m == n
  | .record (.given m) _, .record (.given n) _ => m == n
  | .method (.given m) _, .method (.given n) _ => m == n
  | _, _ => false

/-- Strict equality: no conversion between kinds, numbers numerically, objects by identity. -/
def Value.strictEq : Value → Value → Bool
  | .undefined, .undefined => true
  | .null, .null => true
  | .bool a, .bool b => a == b
  | .number x, .number y => x.eq y
  | .text s, .text t => s == t
  | a, b => a.sameObject b

/-- What storing a value in an array of this kind keeps of it. -/
def ElementKind.store (k : ElementKind) (v : Value) : Double :=
  let x := v.toNumber
  match k with
  | .int32 => Double.ofWord x.toWord
  | .int16 => Double.ofInt (x.toWord.setWidth 16).toInt
  | .int8 => Double.ofInt (x.toWord.setWidth 8).toInt
  | .float32 => x.toSingle
  | .float64 => x

/-- The bound that a value is in a cut of a text of `length` units: a whole number from 0 to
`length`. -/
def Value.bound (length : Nat) (v : Value) : Nat :=
  match v.toNumber with
  | .nan => 0
  | .infinite neg => if neg then 0 else length
  | x => min ((x.truncated?.getD 0).toNat) length

/-- The part of a text between two bounds, in either order. Without an end it reaches to the
end. -/
def Value.cut (t : Text) (start : Value) (stop : Option Value) : Text :=
  let a := start.bound t.length
  let b :=
    match stop with
    | none | some .undefined => t.length
    | some v => v.bound t.length
  (t.drop (min a b)).take (max a b - min a b)

end RowExpr
