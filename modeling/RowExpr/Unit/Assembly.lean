import RowExpr.Text.Blank

/-!
The text of a unit. A unit exports a factory: it declares the members, runs the
initialising statements and returns the function that evaluates one record of
each input. Lines that hold only white space are left out.
-/

namespace RowExpr

/-- The parts of a unit, in text. -/
structure UnitParts where
  inputs : List Text
  members : List Text
  inits : List Text
  body : Text
  returns : Text

/-- The name under which a unit exports its factory. -/
def UnitParts.factoryName : Text := "createEvaluator"

/-- The lines of a text that are not blank, indented. -/
def UnitParts.indent (spaces : Nat) (t : Text) : List Text :=
  (t.lines.filter fun line => line.trim ≠ []).map (List.replicate spaces (32 : UInt16) ++ ·)

/-- The lines of a unit. -/
def UnitParts.sourceLines (p : UnitParts) : List Text :=
  [("export function " : Text) ++ factoryName ++ "(runtime: any) \x7b"] ++
    indent 4 (Text.join [Text.lineFeed] p.members) ++
    indent 4 (Text.join [Text.lineFeed] p.inits) ++
    [("    return function evaluate(" : Text) ++
      Text.join ", " (p.inputs.map (· ++ ": any")) ++ ") \x7b"] ++
    indent 8 p.body ++
    [("        return " : Text) ++ p.returns ++ ";", ("    \x7d;" : Text), ("\x7d" : Text)]

/-- The text of a unit. -/
def UnitParts.source (p : UnitParts) : Text :=
  Text.join [Text.lineFeed] p.sourceLines ++ [Text.lineFeed]

end RowExpr
