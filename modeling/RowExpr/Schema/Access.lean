import RowExpr.Schema.Type

/-!
Access to the fields of a record. Where a field is stored depends on the layout:
by position, behind a method, or as a member. A renaming stores nothing of its
own: its field is the field at the same position of the composite below it.
-/

namespace RowExpr

inductive Accessor where
  | index (i : Nat)
  | method (name : Text)
  | member (name : Text)
deriving DecidableEq, Repr

/-- Where a field of a layout is stored. -/
def Layout.accessor (layout : Layout) (i : Nat) (name : Text) : Accessor :=
  match layout with
  | .row => .index i
  | .caseClass => .method name
  | .tuple | .pojo => .member name

/-- Where a field is stored, `none` if the composite has no such field. -/
def Composite.accessor? : Composite → Text → Option Accessor
  | .plain layout fields, name =>
    (Composite.index? (.plain layout fields) name).map fun i => layout.accessor i name
  | .renaming underlying names, name =>
    match Composite.index? (.renaming underlying names) name with
    | some i =>
      match underlying.names[i]? with
      | some name => underlying.accessor? name
      | none => none
    | none => none

/-- What is said of a field that a composite does not have. -/
def Composite.missingField (c : Composite) (name : Text) : Text :=
  ("Field \"" : Text) ++ name ++ "\" not found in " ++ c.text

/-- A named input and the composite type of the records bound to it. -/
structure Input where
  name : Text
  type : Composite

def Input.text (i : Input) : Text := i.name ++ ": " ++ i.type.text

end RowExpr
