import RowExpr.Value.Operator

/-!
Structural equality. Values are equal if they are of one kind and have equal
content all the way down: numbers are equal if they are the same number, so that
NaN equals itself and the two zeros differ; dates are equal by their time;
records have the same members in any order. An object is equal to itself, and an
invalid date and a method are equal to nothing else.
-/

namespace RowExpr

mutual

def Value.equals : Value → Value → Bool
  | .undefined, .undefined => true
  | .null, .null => true
  | .bool a, .bool b => a == b
  | .number x, .number y => x == y
  | .text s, .text t => s == t
  | .date i s, .date j t => Value.sameObject (.date i s) (.date j t) || (s.isSome && s == t)
  | .array i xs, .array j ys =>
    Value.sameObject (.array i xs) (.array j ys) || Value.equalElements xs ys
  | .typed _ k xs, .typed _ l ys => k == l && xs == ys
  | .record i ms, .record j ns =>
    Value.sameObject (.record i ms) (.record j ns) ||
      (ms.length == ns.length && Value.equalMembers ms ns)
  | .method i v, .method j w => Value.sameObject (.method i v) (.method j w)
  | _, _ => false

/-- Lists of equal values, position by position. -/
def Value.equalElements : List Value → List Value → Bool
  | [], [] => true
  | x :: xs, y :: ys => Value.equals x y && Value.equalElements xs ys
  | _, _ => false

/-- Every member of the first list has an equal one of its name in the second. -/
def Value.equalMembers : List (Text × Value) → List (Text × Value) → Bool
  | [], _ => true
  | (name, v) :: rest, ns =>
    (match ns.lookup name with
      | some w => Value.equals v w
      | none => false) && Value.equalMembers rest ns

end

end RowExpr
