import RowExpr.Value.Basic

/-!
Assertions on values. A condition that is not true fails with a message; a message
that costs something to make is made only then.
-/

namespace RowExpr

/-- The message of an assertion: none, a text, or a text that is made on demand. -/
inductive AssertionMessage where
  | none
  | text (t : Text)
  | onDemand (make : Unit → Text)

/-- What came of an assertion: how often its message was made, and the error message if it
failed. -/
structure AssertionOutcome where
  calls : Nat
  failure : Option Text
deriving DecidableEq, Repr

def Invariant.failureText (message : Text) : Text :=
  if message = [] then "Invariant failed" else ("Invariant failed: " : Text) ++ message

/-- Asserts that a value is true as a condition. -/
def Invariant.check (condition : Value) (message : AssertionMessage) : AssertionOutcome :=
  if condition.truthy then
    ⟨0, none⟩
  else
    match message with
    | .none => ⟨0, some (failureText [])⟩
    | .text t => ⟨0, some (failureText t)⟩
    | .onDemand make => ⟨1, some (failureText (make ()))⟩

end RowExpr
