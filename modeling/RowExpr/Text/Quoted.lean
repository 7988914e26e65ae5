import RowExpr.Text.Basic

/-!
Quoted texts. `Text.quoted` writes a text between double quotes: quotes,
backslashes, controls and lone surrogates are escaped, every other unit stands
for itself. `Text.singleQuoted` writes it between single quotes and escapes only
backslashes and single quotes. `Text.unquote?` reads either form back.
-/

namespace RowExpr

/-- A unit as `\uXXXX`. -/
def Text.unicodeEscape (u : UInt16) : Text :=
  [backslash, 117, hexDigit (u.toNat / 4096), hexDigit (u.toNat / 256 % 16),
    hexDigit (u.toNat / 16 % 16), hexDigit (u.toNat % 16)]

/-- The units that have an escape of one letter, each with its letter: the quote, the backslash,
backspace, tab, line feed, form feed and carriage return. -/
def Text.letterEscapes : List (UInt16 × UInt16) :=
  [(34, 34), (92, 92), (8, 98), (9, 116), (10, 110), (12, 102), (13, 114)]

/-- A unit outside a surrogate pair, as it stands between double quotes. -/
def Text.escapeUnit (u : UInt16) : Text :=
  match letterEscapes.lookup u with
  | some letter => [backslash, letter]
  | none => if u < 32 || isHigh u || isLow u then unicodeEscape u else [u]

/-- What stands between the double quotes; a surrogate pair stands for itself. -/
def Text.escape : Text → Text
  | [] => []
  | [u] => escapeUnit u
  | u :: v :: rest =>
    if isHigh u && isLow v then u :: v :: escape rest else escapeUnit u ++ escape (v :: rest)

/-- A text between double quotes. -/
def Text.quoted (t : Text) : Text := doubleQuote :: (escape t ++ [doubleQuote])

/-- What stands between single quotes. -/
def Text.escapeSingle (t : Text) : Text :=
  t.flatMap fun u => if u = backslash || u = singleQuote then [backslash, u] else [u]

/-- A text between single quotes. -/
def Text.singleQuoted (t : Text) : Text := singleQuote :: (escapeSingle t ++ [singleQuote])

/-- The unit that a one-letter escape stands for: besides the letters of `letterEscapes`, `v` is
the vertical tab and `0` is the null unit. Any other letter stands for itself. -/
def Text.unescapeLetter (letter : UInt16) : UInt16 :=
  match letterEscapes.find? (·.2 == letter) with
  | some (u, _) => u
  | none => if letter = 118 then 11 else if letter = 48 then 0 else letter

/-- The content of a quoted text up to the closing `quote`, and what follows it. The text starts
after the opening quote. A line end inside the quotes is refused. -/
def Text.unquote? (quote : UInt16) : Text → Option (Text × Text)
  | [] => none
  | u :: rest =>
    if u = quote then
      some ([], rest)
    else if u = lineFeed || u = carriageReturn then
      none
    else if u = backslash then
      match rest with
      | 117 :: a :: b :: c :: d :: more =>
        match hexDigitValue? a, hexDigitValue? b, hexDigitValue? c, hexDigitValue? d with
        | some a, some b, some c, some d =>
          (unquote? quote more).map fun (t, after) =>
            (UInt16.ofNat (a * 4096 + b * 256 + c * 16 + d) :: t, after)
        | _, _, _, _ => none
      | letter :: more =>
        if letter = 117 || letter = lineFeed || letter = carriageReturn then
          none
        else
          (unquote? quote more).map fun (t, after) => (unescapeLetter letter :: t, after)
      | [] => none
    else
      (unquote? quote rest).map fun (t, after) => (u :: t, after)

end RowExpr
