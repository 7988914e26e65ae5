import RowExpr.Code.Declaration
import RowExpr.Generation.Error

/-!
Steps of generation. A step takes names from a supply and asks for declarations.
It leaves behind the supply and what it has asked for, also when it fails, so a
later step goes on from there.
-/

namespace RowExpr

/-- What a step of generation leaves behind: the supply of names, the declarations asked for, in
order, and the outcome. -/
structure Draft (α : Type) where
  names : NameSupply
  requests : List Declaration
  outcome : Except GenerationError α

/-- A step of generation, from a supply of names. -/
def Gen (α : Type) : Type := NameSupply → Draft α

def Gen.pure {α : Type} (a : α) : Gen α := fun names => ⟨names, [], .ok a⟩

/-- One step after the other; the second is not taken if the first fails. -/
def Gen.bind {α β : Type} (m : Gen α) (f : α → Gen β) : Gen β := fun names =>
  match (m names).outcome with
  | .ok a =>
    let d := f a (m names).names
    ⟨d.names, (m names).requests ++ d.requests, d.outcome⟩
  | .error e => ⟨(m names).names, (m names).requests, .error e⟩

instance : Monad Gen where
  pure := Gen.pure
  bind := Gen.bind

def Gen.fail {α : Type} (e : GenerationError) : Gen α := fun names => ⟨names, [], .error e⟩

/-- A new name of this stem. -/
def Gen.fresh (stem : Text) : Gen Name := fun names =>
  let (x, names) := names.fresh stem
  ⟨names, [], .ok x⟩

/-- Asks for a declaration and gives its name. -/
def Gen.request (d : Declaration) : Gen Name := fun names => ⟨names, [d], .ok d.name⟩

end RowExpr
