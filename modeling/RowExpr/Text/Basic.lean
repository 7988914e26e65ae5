/-!
Text as a sequence of UTF-16 code units. Lengths, cuts and comparisons of the
expression language count code units, and a text may hold a surrogate that has
no partner, so `Text` is a list of 16-bit units and not a `String`.

`Text.ofString` encodes a string and `Text.decode?` reads back every text whose
surrogates are paired.
-/

namespace RowExpr

/-- A sequence of UTF-16 code units. -/
abbrev Text := List UInt16

abbrev Text.lineFeed : UInt16 := 10
abbrev Text.carriageReturn : UInt16 := 13
abbrev Text.doubleQuote : UInt16 := 34
abbrev Text.singleQuote : UInt16 := 39
abbrev Text.minus : UInt16 := 45
abbrev Text.zeroDigit : UInt16 := 48
abbrev Text.backslash : UInt16 := 92

/-- A unit that opens a surrogate pair. -/
def Text.isHigh (u : UInt16) : Bool := 0xD800 ≤ u && u < 0xDC00

/-- A unit that closes a surrogate pair. -/
def Text.isLow (u : UInt16) : Bool := 0xDC00 ≤ u && u < 0xE000

/-- The one or two units of a character. -/
def Text.ofChar (c : Char) : Text :=
  if c.toNat < 0x10000 then
    [UInt16.ofNat c.toNat]
  else
    [UInt16.ofNat (0xD800 + (c.toNat - 0x10000) / 0x400),
      UInt16.ofNat (0xDC00 + (c.toNat - 0x10000) % 0x400)]

def Text.ofString (s : String) : Text :=
  s.toList.flatMap Text.ofChar

instance : Coe String Text := ⟨Text.ofString⟩

instance Text.instLawfulBEq : LawfulBEq Text := inferInstance

/-- The characters of a text, `none` if a surrogate stands without its partner. -/
def Text.chars? : Text → Option (List Char)
  | [] => some []
  | [u] => if isHigh u || isLow u then none else some [Char.ofNat u.toNat]
  | u :: v :: rest =>
    if isHigh u && isLow v then
      (chars? rest).map
        (Char.ofNat (0x10000 + (u.toNat - 0xD800) * 0x400 + (v.toNat - 0xDC00)) :: ·)
    else if isHigh u || isLow u then
      none
    else
      (chars? (v :: rest)).map (Char.ofNat u.toNat :: ·)

/-- The string that a text encodes, if there is one. -/
def Text.decode? (t : Text) : Option String :=
  t.chars?.map String.ofList

/-- The number of code points, a lone surrogate counting as one. -/
def Text.codePoints : Text → Nat
  | [] => 0
  | [_] => 1
  | u :: v :: rest =>
    if isHigh u && isLow v then codePoints rest + 1 else codePoints (v :: rest) + 1

/-- `true` for the ten ASCII digits. -/
def Text.isDigit (u : UInt16) : Bool := 48 ≤ u && u ≤ 57

/-- `true` for the ASCII letters, of either case. -/
def Text.isLetter (u : UInt16) : Bool := (65 ≤ u && u ≤ 90) || (97 ≤ u && u ≤ 122)

/-- The unit with an ASCII capital letter made small. -/
def Text.lowerUnit (u : UInt16) : UInt16 := if 65 ≤ u && u ≤ 90 then u + 32 else u

/-- ASCII capital letters made small. -/
def Text.lower (t : Text) : Text := t.map lowerUnit

/-- The decimal numeral of a number, without leading zeros. -/
def Text.ofNat (n : Nat) : Text :=
  if n < 10 then [UInt16.ofNat (48 + n)] else ofNat (n / 10) ++ [UInt16.ofNat (48 + n % 10)]

/-- The decimal numeral of an integer, with a minus sign if it is negative. -/
def Text.ofInt (n : Int) : Text :=
  if n < 0 then minus :: ofNat n.natAbs else ofNat n.natAbs

/-- The number that a sequence of digits denotes. -/
def Text.digitsValue (t : Text) : Nat :=
  t.foldl (fun n u => n * 10 + (u.toNat - 48)) 0

/-- The small hexadecimal digit of a number below sixteen. -/
def Text.hexDigit (n : Nat) : UInt16 :=
  if n < 10 then UInt16.ofNat (48 + n) else UInt16.ofNat (87 + n)

/-- The value of a hexadecimal digit of either case. -/
def Text.hexDigitValue? (u : UInt16) : Option Nat :=
  if isDigit u then some (u.toNat - 48)
  else if 97 ≤ u && u ≤ 102 then some (u.toNat - 87)
  else if 65 ≤ u && u ≤ 70 then some (u.toNat - 55)
  else none

/-- The text padded on the left with `fill` up to `width` units. -/
def Text.padLeft (fill : UInt16) (width : Nat) (t : Text) : Text :=
  List.replicate (width - t.length) fill ++ t

/-- The texts one after the other, with `separator` between neighbours. -/
def Text.join (separator : Text) : List Text → Text
  | [] => []
  | [t] => t
  | t :: ts => t ++ separator ++ join separator ts

/-- The lines of a text: what stands before, between and after its line feeds. -/
def Text.lines : Text → List Text
  | [] => [[]]
  | u :: rest =>
    if u = lineFeed then
      [] :: lines rest
    else
      match lines rest with
      | [] => [[u]]
      | line :: more => (u :: line) :: more

/-- Order of texts by their units, the shorter of two texts first if it begins the other. -/
def Text.less : Text → Text → Bool
  | _, [] => false
  | [], _ :: _ => true
  | u :: t, v :: s => u < v || (u == v && less t s)

end RowExpr
