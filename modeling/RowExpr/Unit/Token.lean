import RowExpr.Number.Numeral
import RowExpr.Text.Quoted

/-!
Tokens of unit text: words, numbers, quoted texts and punctuation. White space
only separates them.
-/

namespace RowExpr

inductive Token where
  | word (t : Text)
  | number (x : Double)
  | text (t : Text)
  | mark (t : Text)
deriving DecidableEq

/-- Punctuation of more than one unit, longer ones first. -/
def Token.longMarks : List String := ["===", "=>", "==", "!=", "<=", ">=", "&&", "||", "<<", ">>"]

/-- Punctuation of one unit. -/
def Token.shortMarks : Text := "()\x7b\x7d[];:,.=?!<>|&^+-*/%~"

def Token.startsWord (u : UInt16) : Bool := Text.isLetter u || u == 95 || u == 36

def Token.inWord (u : UInt16) : Bool := startsWord u || Text.isDigit u

/-- The length of a point and the digits after it, if they begin a text. -/
def Token.pointLength : Text → Nat
  | 46 :: rest => 1 + (rest.takeWhile Text.isDigit).length
  | _ => 0

/-- The length of an exponent, if it begins a text. -/
def Token.exponentLength : Text → Nat
  | 101 :: sign :: rest =>
    if sign = 43 ∨ sign = 45 then 2 + (rest.takeWhile Text.isDigit).length
    else 1 + ((sign :: rest).takeWhile Text.isDigit).length
  | _ => 0

/-- The length of the number that begins a text: digits, then perhaps a point and digits, then
perhaps an exponent. -/
def Token.numberLength (t : Text) : Nat :=
  let whole := (t.takeWhile Text.isDigit).length
  let pointed := whole + pointLength (t.drop whole)
  pointed + exponentLength (t.drop pointed)

/-- The first token of a text that begins with no white space, and what follows it. -/
def Token.first? : Text → Option (Token × Text)
  | [] => none
  | u :: rest =>
    if startsWord u then
      some (.word ((u :: rest).takeWhile inWord), (u :: rest).dropWhile inWord)
    else if Text.isDigit u then
      let n := numberLength (u :: rest)
      (Numeral.decimal? ((u :: rest).take n)).map fun x => (.number x, (u :: rest).drop n)
    else if u = Text.doubleQuote ∨ u = Text.singleQuote then
      (Text.unquote? u rest).map fun (t, after) => (.text t, after)
    else
      match longMarks.find? fun m => (Text.ofString m).isPrefixOf (u :: rest) with
      | some m => some (.mark m, (u :: rest).drop (Text.ofString m).length)
      | none => if u ∈ shortMarks then some (.mark [u], rest) else none

/-- The tokens of a text, at most `fuel` of them; `none` if the text holds anything else. -/
def Token.scan : (fuel : Nat) → Text → Option (List Token)
  | 0, t => if (t.dropWhile Text.isBlank).isEmpty then some [] else none
  | fuel + 1, t =>
    match t.dropWhile Text.isBlank with
    | [] => some []
    | t =>
      match first? t with
      | some (token, rest) => (scan fuel rest).map (token :: ·)
      | none => none

/-- The tokens of a text. -/
def Token.ofText? (t : Text) : Option (List Token) := scan t.length t

end RowExpr
