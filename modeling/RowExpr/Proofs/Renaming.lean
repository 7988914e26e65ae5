import RowExpr.Calendar.Offsets
import RowExpr.Proofs.Expr.Nullity
import RowExpr.Proofs.Generation.Likeness

/-!
A renaming of a composite changes names and nothing else.

A renaming gives the fields of a composite new names, position by position, and the composite
may be a renaming itself. The alias of a field is stored where the field is
(`Composite.accessor?_aliasOf`), also if the aliases are names of other fields below. So an
expression over the composite and the same expression with aliases, over the renaming, are
compiled alike (`Session.renaming_changes_names_only`).
-/

namespace RowExpr

/-! ## Fields of a renaming -/

/-- What a renaming with these aliases calls the field of a composite that has this name. -/
def Composite.aliasOf (c : Composite) (aliases : List Text) (name : Text) : Text :=
  match c.index? name with
  | some i => aliases.getD i name
  | none => name

section Aliases

variable {c renamed : Composite} {aliases : List Text}

theorem Composite.names_renaming (arity : aliases.length = c.arity) :
    (Composite.renaming c aliases).names = aliases := by
  have first : Function.uncurry (fun (name : Text) (_ : Field) => name) = Prod.fst := rfl
  rw [Composite.names, Composite.fields, List.map_zipWith]
  show List.zipWith (fun name _ => name) aliases c.fields = aliases
  rw [← List.map_uncurry_zip_eq_zipWith, first, List.map_fst_zip (Nat.le_of_eq arity)]

theorem Composite.of_renaming? (made : c.renaming? aliases = .ok renamed) :
    renamed = .renaming c aliases ∧ aliases.length = c.arity ∧ aliases.Nodup := by
  unfold Composite.renaming? at made
  split at made
  · cases made
  · next arity =>
    obtain ⟨rfl, nodup⟩ := Composite.of_checkNames made
    have arity := Decidable.not_not.1 arity
    rw [Composite.names_renaming arity] at nodup
    exact ⟨rfl, arity, nodup⟩

/-- The alias of a field stands at its position. -/
theorem Composite.index?_aliasOf (made : c.renaming? aliases = .ok renamed) {name : Text}
    {i : Nat} (found : c.index? name = some i) :
    renamed.index? (c.aliasOf aliases name) = some i := by
  obtain ⟨rfl, arity, nodup⟩ := Composite.of_renaming? made
  have names := Composite.names_renaming arity
  obtain ⟨inside, -⟩ := List.getElem?_eq_some_iff.1 (Composite.names_of_index? found)
  rw [Composite.names, List.length_map] at inside
  have listed : i < aliases.length := arity ▸ inside
  refine Composite.index?_of_getElem? (names.symm ▸ nodup) ?_
  rw [names, Composite.aliasOf, found]
  simp [listed]

/-- The alias of a field is stored where the field is, however many layers are below. -/
theorem Composite.accessor?_aliasOf (made : c.renaming? aliases = .ok renamed) {name : Text}
    (has : c.hasField name = true) :
    renamed.accessor? (c.aliasOf aliases name) = c.accessor? name := by
  obtain ⟨i, found⟩ := Option.isSome_iff_exists.1 has
  have position := Composite.index?_aliasOf made found
  obtain ⟨rfl, -, -⟩ := Composite.of_renaming? made
  rw [Composite.accessor?, position]
  simp only [Composite.names_of_index? found]

theorem Composite.hasField_aliasOf (made : c.renaming? aliases = .ok renamed) {name : Text}
    (has : c.hasField name = true) : renamed.hasField (c.aliasOf aliases name) = true := by
  obtain ⟨i, found⟩ := Option.isSome_iff_exists.1 has
  rw [Composite.hasField, Composite.index?_aliasOf made found]
  rfl

end Aliases

/-! ## Trees -/

/-- The tree with the names of its fields replaced. -/
def Expr.mapFields (f : Text → Text) : Expr → Expr
  | .field name type => .field (f name) type
  | .literal value type => .literal value type
  | .naming inner label type => .naming (inner.mapFields f) label type
  | .binary op left right type => .binary op (left.mapFields f) (right.mapFields f) type
  | .unary op operand type => .unary op (operand.mapFields f) type
  | .isNull operand type => .isNull (operand.mapFields f) type
  | .isNotNull operand type => .isNotNull (operand.mapFields f) type
  | .cast operand type => .cast (operand.mapFields f) type
  | .substring str start stop type =>
    .substring (str.mapFields f) (start.mapFields f) (stop.mapFields f) type

/-- The node is no field, or names a field of the composite. -/
def Expr.NamesFieldOf (c : Composite) : Expr → Prop
  | .field name _ => c.hasField name = true
  | _ => True

theorem Setting.fieldTerm?_single (s : Setting) {x name : Text} {c : Composite}
    (has : c.hasField name = true) (type : Ty) :
    (s.over [⟨x, c⟩]).fieldTerm? name type = (c.accessor? name).map fun a =>
      a.term (.plain x) type.typeMark := by
  have first : [(⟨x, c⟩ : Input)].find? (·.type.hasField name) = some ⟨x, c⟩ :=
    List.find?_cons_of_pos has
  unfold Setting.fieldTerm? Setting.over
  simp only [first]

/-- A tree over a composite resembles the tree with aliases over a renaming of it. -/
theorem Expr.resembles_mapFields (s : Setting) (x : Text) {c renamed : Composite}
    {aliases : List Text} (made : c.renaming? aliases = .ok renamed) {e : Expr}
    (named : ∀ node ∈ e.nodes, node.NamesFieldOf c) :
    (s.over [⟨x, c⟩]).Resembles [⟨x, renamed⟩] e (e.mapFields (c.aliasOf aliases)) := by
  induction e with
  | naming inner label type ih => exact .naming (ih (List.forall_mem_cons.1 named).2)
  | literal value type => exact .literal
  | field name type =>
    have has : c.hasField name = true := named _ List.mem_cons_self
    refine .field ?_
    show (s.over [⟨x, c⟩]).fieldTerm? name type = (s.over [⟨x, renamed⟩]).fieldTerm?
      (c.aliasOf aliases name) type
    rw [s.fieldTerm?_single has, s.fieldTerm?_single (Composite.hasField_aliasOf made has),
      Composite.accessor?_aliasOf made has]
  | binary op left right type ihl ihr =>
    obtain ⟨-, below⟩ := List.forall_mem_cons.1 named
    obtain ⟨onLeft, onRight⟩ := List.forall_mem_append.1 below
    exact .binary (ihl onLeft) (ihr onRight)
  | unary op operand type ih => exact .unary (ih (List.forall_mem_cons.1 named).2)
  | isNull operand type ih => exact .isNull (ih (List.forall_mem_cons.1 named).2)
  | isNotNull operand type ih => exact .isNotNull (ih (List.forall_mem_cons.1 named).2)
  | cast operand type ih => exact .cast (ih (List.forall_mem_cons.1 named).2)
  | substring str start stop type iha ihb ihc =>
    obtain ⟨-, below⟩ := List.forall_mem_cons.1 named
    obtain ⟨inStr, below⟩ := List.forall_mem_append.1 below
    obtain ⟨inStart, inStop⟩ := List.forall_mem_append.1 below
    exact .substring (iha inStr) (ihb inStart) (ihc inStop)

/-! ## Sessions -/

/-- For every composite, a renaming of another one among them, and all aliases with which it can
be renamed: an expression whose fields are all fields of the composite, compiled over one input of
that type, and the expression with the aliases in their place, compiled over one input of the
renaming, are answered alike from the same state. Both are refused for the same reason, or both
get the same code with the same names for value and flag. Afterwards both sessions have taken the
same names and hold the same members and initialising statements. -/
theorem Session.renaming_changes_names_only {c renamed : Composite} {aliases : List Text}
    (made : c.renaming? aliases = .ok renamed) (x : Text) (s : Session) {e : Expr}
    (named : ∀ node ∈ e.nodes, node.NamesFieldOf c) :
    EndAlike SameAnswer ((s.over [⟨x, c⟩]).compile e).1.outcome
      ((s.over [⟨x, renamed⟩]).compile (e.mapFields (c.aliasOf aliases))).1.outcome ∧
    ((s.over [⟨x, renamed⟩]).compile (e.mapFields (c.aliasOf aliases))).2 =
      ((s.over [⟨x, c⟩]).compile e).2.over [⟨x, renamed⟩] := by
  have resembles := Expr.resembles_mapFields s.setting x made named
  have same : (s.over [⟨x, c⟩]).SameCompile (s.over [⟨x, renamed⟩]) e
      (e.mapFields (c.aliasOf aliases)) :=
    Session.compile_resembling resembles
  exact ⟨same.outcome, same.after⟩

/-- Whether the two fields of a record are equal. -/
def Expr.firstIsSecond : Expr := .binary .eq (.field "a" .string) (.field "b" .string) .boolean

section Host

open scoped Offsets

/-- Aliases that swap the names of the two fields: the code still reads each field from its
place. -/
theorem Session.renaming_changes_names_only_swapped :
    ∃ (swapped : Composite) (new : Session) (g : Generated),
      (Composite.plain .pojo [.mk "a" .string, .mk "b" .string]).renaming?
        ["b", "a"] = .ok swapped ∧
      Session.create [⟨"row", .plain .pojo [.mk "a" .string, .mk "b" .string]⟩]
        (.members []) = .ok new ∧
      (∀ node ∈ Expr.firstIsSecond.nodes,
        node.NamesFieldOf (.plain .pojo [.mk "a" .string, .mk "b" .string])) ∧
      (new.compile Expr.firstIsSecond).1.outcome = .ok (.ok g) ∧
      ((new.over [⟨"row", swapped⟩]).compile
        (.binary .eq (.field "b" .string) (.field "a" .string) .boolean)).1.outcome =
          .ok (.ok g) := by
  obtain ⟨swapped, new, g, made, created, accepted⟩ :
    ∃ (swapped : Composite) (new : Session) (g : Generated),
      (Composite.plain .pojo [.mk "a" .string, .mk "b" .string]).renaming?
        ["b", "a"] = .ok swapped ∧
      Session.create [⟨"row", .plain .pojo [.mk "a" .string, .mk "b" .string]⟩]
        (.members []) = .ok new ∧
      ((new.over [⟨"row", .plain .pojo [.mk "a" .string, .mk "b" .string]⟩]).compile
        Expr.firstIsSecond).1.outcome = .ok (.ok g) := ⟨_, _, _, rfl, rfl, rfl⟩
  have named : ∀ node ∈ Expr.firstIsSecond.nodes,
      node.NamesFieldOf (.plain .pojo [.mk "a" .string, .mk "b" .string]) := by
    simp only [Expr.firstIsSecond, Expr.nodes, List.forall_mem_cons, List.forall_mem_append]
    exact ⟨trivial, ⟨rfl, List.forall_mem_nil _⟩, rfl, List.forall_mem_nil _⟩
  obtain ⟨answers, -⟩ := Session.renaming_changes_names_only made "row" new named
  obtain ⟨answer, reported, same⟩ := answers.of_ok accepted
  cases same
  obtain ⟨inputs, -⟩ := Session.of_createWith created
  refine ⟨swapped, new, g, made, created, named, ?_, reported⟩
  rw [← inputs] at accepted
  exact accepted

end Host

end RowExpr
