import RowExpr.Expr.Basic
import RowExpr.Value.Conversion

/-!
Errors of code generation: what is wrong, with the expression or the source text
it concerns, and one message for each.
-/

namespace RowExpr

/-- The kind of error behind a unit that cannot be loaded. -/
inductive CauseKind where
  | plain | wrongKind | range
deriving DecidableEq, Repr

inductive GenerationError where
  /-- Options or input bindings that are not valid. -/
  | config (message : Text)
  /-- An expression for which there is no code; the details may be empty. -/
  | unsupported (e : Expr) (details : Text)
  /-- A field that no input has; the inputs are given in text. -/
  | unresolvedField (e : Expr) (field : Text) (inputs : List Text)
  | illegalCast (e : Expr) (message : Text)
  /-- A unit that cannot be compiled or loaded. -/
  | compile (message source : Text) (cause : Option CauseKind)

def GenerationError.reason : GenerationError → Text
  | .config _ => "config-error"
  | .unsupported _ _ => "unsupported-expression"
  | .unresolvedField _ _ _ => "unresolved-field"
  | .illegalCast _ _ => "illegal-cast"
  | .compile _ _ _ => "compile-error"

def GenerationError.message : GenerationError → Text
  | .config message => message
  | .unsupported e details =>
    ("Could not generate code for expression " : Text) ++ e.text ++
      (if details = [] then [] else (": " : Text) ++ details)
  | .unresolvedField _ field inputs =>
    ("Could not get accessor for \"" : Text) ++ field ++ "\" in inputs " ++
      (if inputs = [] then ("(none)" : Text) else Text.join ", " inputs)
  | .illegalCast _ message => message
  | .compile message _ _ => message

/-- The expression at which generation failed. -/
def GenerationError.expression? : GenerationError → Option Expr
  | .unsupported e _ => some e
  | .unresolvedField e _ _ => some e
  | .illegalCast e _ => some e
  | _ => none

/-- The source text that could not be compiled. -/
def GenerationError.source? : GenerationError → Option Text
  | .compile _ source _ => some source
  | _ => none

def GenerationError.cause? : GenerationError → Option CauseKind
  | .compile _ _ cause => cause
  | _ => none

end RowExpr
