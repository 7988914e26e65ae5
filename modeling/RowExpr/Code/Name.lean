import RowExpr.Calendar.Pattern
import RowExpr.Number.Decimal

/-!
Names in generated code. A name is kept as data until it is printed: a numbered
name of some stem, the constant of a time, one of the three formatters, or a name
that came from outside.
-/

namespace RowExpr

inductive Name where
  | fresh (stem : Text) (index : Nat)
  | dateConstant (t : Time)
  | formatter (k : FormatterKind)
  | plain (t : Text)
deriving DecidableEq

/-- A name in text. A minus sign is not allowed in a name, so the constant of a time before the
epoch has an `m` in its place. -/
def Name.text : Name → Text
  | .fresh stem index => stem ++ "$" ++ Text.ofNat index
  | .dateConstant none => "date$NaN"
  | .dateConstant (some t) =>
    if t.millis < 0 then ("date$m" : Text) ++ Text.ofNat t.millis.natAbs
    else ("date$" : Text) ++ Text.ofNat t.millis.natAbs
  | .formatter k => k.word ++ "Formatter"
  | .plain t => t

/-! ## Supply -/

/-- How many names have been taken; the next one gets this number. -/
structure NameSupply where
  taken : Nat
deriving DecidableEq, Repr

/-- No name has been taken. -/
def NameSupply.full : NameSupply := ⟨0⟩

/-- A name of this stem with the next number. -/
def NameSupply.fresh (s : NameSupply) (stem : Text) : Name × NameSupply :=
  (.fresh stem s.taken, ⟨s.taken + 1⟩)

/-- Names of these stems, one after the other. -/
def NameSupply.freshAll (s : NameSupply) : List Text → List Name × NameSupply
  | [] => ([], s)
  | stem :: stems =>
    let (x, s) := s.fresh stem
    let (xs, s) := s.freshAll stems
    (x :: xs, s)

/-! ## Identifiers -/

/-- `true` for a text that is a member name in dotted form: a letter, `_` or `$`, then letters,
digits, `_` and `$`. -/
def Name.isIdentifier : Text → Bool
  | [] => false
  | u :: rest =>
    (Text.isLetter u || u == 95 || u == 36) &&
      rest.all fun v => Text.isLetter v || Text.isDigit v || v == 95 || v == 36

end RowExpr
