import RowExpr.Proofs.Expr.Nullity
import RowExpr.Proofs.Generation.Emission
import RowExpr.Proofs.Generation.Parallel
import RowExpr.Proofs.Generation.Simulation
import RowExpr.Proofs.Unit.Legible

/-!
Generated code is legible.

The operands in generated code are names, or stand in parentheses or calls; what is left binds in
the order in which it is written. So all terms of operators and conversions are legible, and with
them the code of every expression (`Setting.Emits.legible`), if the terms for absent values are
and the positions of fields are small enough to be written exactly (`Expr.Shown`).
-/

namespace RowExpr

/-- The term is legible where terms of a rank are read. -/
abbrev Term.Stands (p : Nat) (t : Term) : Prop := t.Legible ∧ p ≤ t.rank

/-! ## Annotations -/

/-- The type of every expression is written as an annotation that is read back. -/
theorem Ty.isTypeMark_typeMark (type : Ty) : type.typeMark.IsTypeMark := by
  have word (w : Text) (identifier : Name.isIdentifier w = true) : w.IsTypeMark :=
    ⟨⟨w, false, false, identifier⟩, rfl⟩
  have array (w : Text) (identifier : Name.isIdentifier w = true) :
      (w ++ ("[]" : Text)).IsTypeMark :=
    ⟨⟨w, true, false, identifier⟩, rfl⟩
  rcases type with b | p | c
  · rcases b with p | _ | _
    · cases p <;> exact word _ (by decide)
    · exact word _ (by decide)
    · exact word _ (by decide)
  · cases p with
    | long => exact array "number" (by decide)
    | boolean => exact array "boolean" (by decide)
    | char => exact array "string" (by decide)
    | _ => exact word _ (by decide)
  · exact word "unknown" (by decide)

theorem Ty.isTypeMark_nullableMark (type : Ty) : type.nullableMark.IsTypeMark := by
  have nullable (word : Text) (array : Bool) (identifier : Name.isIdentifier word = true) :
      ((if array then word ++ ("[]" : Text) else word) ++ (" | null" : Text)).IsTypeMark := by
    refine ⟨⟨word, array, true, identifier⟩, ?_⟩
    rw [TypeMark.text, if_pos rfl, List.append_assoc]
    rfl
  rcases type with b | p | c
  · rcases b with p | _ | _
    · cases p <;> exact nullable _ false (by decide)
    · exact nullable _ false (by decide)
    · exact nullable _ false (by decide)
  · cases p with
    | long => exact nullable "number" true (by decide)
    | boolean => exact nullable "boolean" true (by decide)
    | char => exact nullable "string" true (by decide)
    | _ => exact nullable _ false (by decide)
  · exact nullable "unknown" false (by decide)

/-! ## Terms -/

section Terms

variable {t : Term} {x y : Name}

theorem Term.Stands.mono {p q : Nat} (stands : t.Stands q) (le : p ≤ q) : t.Stands p :=
  ⟨stands.1, Nat.le_trans le stands.2⟩

theorem Term.stands_name (x : Name) : (Term.name x).Stands 13 := ⟨trivial, Nat.le_refl 13⟩

/-- A number can be an operand, but no head: a point after it would be read as its own. -/
theorem Term.stands_number (x : Double) : (Term.number x).Stands 12 := by
  refine ⟨trivial, ?_⟩
  rw [Term.rank]
  split <;> decide

/-- Parentheses let a term stand anywhere. -/
theorem Term.Stands.paren {p : Nat} (stands : t.Stands p) : (Term.paren t).Stands 13 :=
  ⟨stands.1, Nat.le_refl 13⟩

/-- The arguments of a call are set off by its parentheses. -/
theorem Term.Stands.call {p : Nat} (stands : t.Stands (p + 1)) (f : Function) :
    (Term.call f t).Stands 12 := by
  refine ⟨⟨stands.1, Nat.le_trans (Nat.le_add_left 1 p) stands.2⟩, ?_⟩
  cases f <;> exact Nat.le_of_ble_eq_true rfl

theorem Term.Stands.unary (stands : t.Stands 12) (op : UnaryOperator) :
    (Term.unary op t).Stands 12 := ⟨stands, Nat.le_refl 12⟩

/-- An operation stands at the rank of its operator, which takes further operations of that rank
on its left only. -/
theorem Term.Stands.binary (op : InfixOperator) {left right : Term}
    (first : left.Stands op.rank) (second : right.Stands (op.rank + 1)) :
    (Term.binary op left right).Stands op.rank := ⟨⟨first, second⟩, Nat.le_refl op.rank⟩

/-- A wrapped term is in parentheses, so it stands anywhere. -/
theorem Term.Stands.toWord (stands : t.Stands 9) : t.toWord.Stands 13 := by
  have zero := Term.stands_number (Double.ofInt 0)
  exact (Term.Stands.binary .bitOr (stands.mono (by decide))
    (zero.mono (by decide))).paren

theorem Term.Stands.signExtend (stands : t.Stands 9) (bits : Int) :
    (t.signExtend bits).Stands 13 := by
  have number := (Term.stands_number (Double.ofInt bits)).mono (p := 10) (by decide)
  have up := (Term.Stands.binary .shiftLeft stands number).paren
  exact (Term.Stands.binary .shiftRight (up.mono (by decide)) number).paren

/-- Wherever a value is wrapped to the range of its type, the term of the result stands anywhere.
-/
theorem Term.Stands.wrap? (stands : t.Stands 9) {t' : Term} {p : Primitive}
    (found : t.wrap? p = some t') : t'.Stands 13 := by
  cases p <;> cases found
  · exact stands.toWord
  · exact stands.signExtend 16
  · exact stands.signExtend 24

/-- A type without a range leaves the term where it stands. -/
theorem Term.Stands.narrow (stands : t.Stands 9) (type : Ty) : (t.narrow type).Stands 9 := by
  unfold Term.narrow
  split
  · next p =>
    cases found : t.wrap? p with
    | none => exact stands
    | some t' => exact (stands.wrap? found).mono (by decide)
  · exact stands

/-- Every coercion of a name can be an operand. -/
theorem Term.stands_coerce? {t' : Term} {source target : Primitive}
    (found : (Term.name x).coerce? source target = some t') : t'.Stands 12 := by
  unfold Term.coerce? at found
  split at found
  · cases found
    exact (Term.stands_name x).mono (by decide)
  · split at found
    · cases found
    · have numeric : (if source = .char then Term.charCode (.name x) else .name x).Stands 13 := by
        split
        · exact ⟨⟨x, rfl⟩, Nat.le_refl 13⟩
        · exact Term.stands_name x
      dsimp only at found
      generalize (if source = .char then Term.charCode (.name x) else .name x) = u
        at found numeric
      cases target with
      | long | float | char =>
        cases found
        exact numeric.call _
      | double =>
        cases found
        exact numeric.mono (by decide)
      | int | short | byte | boolean =>
        exact ((numeric.mono (by decide)).wrap? found).mono (by decide)

/-- The term of a unary operation on a name binds at least as tightly as a shift. -/
theorem UnaryOp.stands_term (op : UnaryOp) (type : Ty) : (op.term type (.name x)).Stands 9 := by
  have name := Term.stands_name x
  cases op with
  | negate => exact (((name.paren.mono (by decide)).unary .negate).mono (by decide)).narrow type
  | complement =>
    exact (((name.mono (by decide)).toWord.mono (by decide)).unary .complement).mono (by decide)
  | not => exact ((name.paren.mono (by decide)).unary .not).mono (by decide)
  | abs => exact ((name.call .abs).mono (by decide)).narrow type

/-- Every comparison of two names binds at least as tightly as equality does. -/
theorem Term.stands_equality (leftType rightType : Ty) :
    (Term.equality leftType rightType (.name x) (.name y)).Stands 7 := by
  have invoked (z : Name) : (Term.invoke (.name z) "getTime").Stands 13 :=
    ⟨⟨trivial, rfl⟩, Nat.le_refl 13⟩
  unfold Term.equality
  split
  · exact Term.Stands.binary .strictEq ((Term.stands_name x).mono (by decide))
      ((Term.stands_name y).mono (by decide))
  · split
    · exact Term.Stands.binary .strictEq ((invoked x).mono (by decide))
        ((invoked y).mono (by decide))
    · exact ⟨⟨(Term.stands_name x).mono (by decide), (Term.stands_name y).mono (by decide)⟩,
        show 7 ≤ 13 by decide⟩

/-- An operator between two names. -/
theorem Term.stands_infix (op : InfixOperator) :
    (Term.binary op (.name x) (.name y)).Stands op.rank := by
  have bound := op.rank_bounds.2
  exact Term.Stands.binary _ ((Term.stands_name x).mono (by omega))
    ((Term.stands_name y).mono (by omega))

/-- The term of a binary operation on two names is read back as a whole. -/
theorem BinaryOp.stands_term (op : BinaryOp) (type leftType rightType : Ty) :
    (op.term type leftType rightType (.name x) (.name y)).Stands 1 := by
  have divided (op : InfixOperator) (tight : op.rank ≤ 11) :
      (Term.binary op (.name x) (.call .divisor (.name y))).Stands op.rank :=
    Term.Stands.binary _ ((Term.stands_name x).mono (by omega))
      (((Term.stands_name y).call .divisor).mono (by omega))
  have words (op : InfixOperator) :
    (Term.binary op (Term.name x).toWord (Term.name y).toWord).Stands
      op.rank := by
    have bound := op.rank_bounds.2
    exact Term.Stands.binary _ (((Term.stands_name x).mono (by decide)).toWord.mono (by omega))
      (((Term.stands_name y).mono (by decide)).toWord.mono (by omega))
  cases op with
  | gt => exact (Term.stands_infix .gt).mono (by decide)
  | ge => exact (Term.stands_infix .ge).mono (by decide)
  | lt => exact (Term.stands_infix .lt).mono (by decide)
  | le => exact (Term.stands_infix .le).mono (by decide)
  | and => exact (Term.stands_infix .and).mono (by decide)
  | or => exact (Term.stands_infix .or).mono (by decide)
  | eq => exact (Term.stands_equality leftType rightType).mono (by decide)
  | ne =>
    exact (((Term.stands_equality leftType rightType).paren.mono (by decide)).unary .not).mono
      (by decide)
  | add => exact (((Term.stands_infix .add).mono (by decide)).narrow type).mono (by decide)
  | sub => exact (((Term.stands_infix .sub).mono (by decide)).narrow type).mono (by decide)
  | mul =>
    unfold BinaryOp.term
    dsimp only
    split
    · exact ⟨⟨(Term.stands_name x).mono (by decide), (Term.stands_name y).mono (by decide)⟩,
        show 1 ≤ 13 by decide⟩
    · exact (((Term.stands_infix .mul).mono (by decide)).narrow type).mono (by decide)
  | div =>
    unfold BinaryOp.term
    dsimp only
    split
    · have quotient := (divided .div (by decide)).mono (p := 1) (by decide)
      exact (((quotient.call .trunc).mono (by decide)).narrow type).mono (by decide)
    · exact (Term.stands_infix .div).mono (by decide)
  | rem =>
    unfold BinaryOp.term
    dsimp only
    split
    · exact (((divided .rem (by decide)).mono (by decide)).narrow type).mono (by decide)
    · exact (Term.stands_infix .rem).mono (by decide)
  | bitAnd => exact (words .bitAnd).mono (by decide)
  | bitOr => exact (words .bitOr).mono (by decide)
  | bitXor => exact (words .bitXor).mono (by decide)

end Terms

/-! ## Leaves -/

/-- What stands for an absent value is read back. -/
theorem Ty.stands_defaultTerm (type : Ty) : type.defaultTerm.Stands 1 := by
  have minus : (Term.fractional Term.minusOne).Stands 12 := by
    refine ⟨rfl, ?_⟩
    rw [Term.rank]
    split <;> decide
  rcases type with b | p | c
  · rcases b with p | _ | _
    · cases p with
      | int | long | short | byte => exact (Term.stands_number _).mono (by decide)
      | float => exact (minus.call .single).mono (by decide)
      | double => exact minus.mono (by decide)
      | boolean | char => exact ⟨trivial, show 1 ≤ 13 by decide⟩
    · exact ⟨trivial, show 1 ≤ 13 by decide⟩
    · exact ⟨trivial, show 1 ≤ 13 by decide⟩
  · exact ⟨trivial, show 1 ≤ 13 by decide⟩
  · exact ⟨trivial, show 1 ≤ 13 by decide⟩

/-- The term of a literal can be an operand. -/
theorem Literal.stands_term? {value : Literal} {type : Ty} {step : Gen Term} {n m : Nat}
    {term : Term} {ds : List Declaration} (found : value.term? type = some step)
    (made : step.Yields n term m ds) : term.Stands 12 := by
  rcases Literal.term?_cases found with ⟨t, constant, rfl⟩ | ⟨t, rfl⟩
  · obtain ⟨rfl, -, -⟩ := Gen.yields_pure.1 made
    cases constant with
    | number x => exact Term.stands_number x
    | single x => exact (Term.stands_number x).call .single
    | text t => exact ⟨trivial, show 12 ≤ 13 by decide⟩
    | bool b => exact ⟨trivial, show 12 ≤ 13 by decide⟩
  · simp only [Gen.yields_bind, Gen.yields_request, Gen.yields_pure] at made
    obtain ⟨_, _, _, _, ⟨rfl, rfl, rfl⟩, ⟨rfl, rfl, rfl⟩, rfl⟩ := made
    exact (Term.stands_name _).mono (by decide)

/-- The composite that the records of a composite are laid out by. -/
def Composite.base : Composite → List Field
  | .plain _ fields => fields
  | .renaming underlying _ => underlying.base

/-- A position in an array lies within the fields of its layout. -/
theorem Composite.lt_of_accessor? {c : Composite} {name : Text} {i : Nat}
    (found : c.accessor? name = some (.index i)) : i < c.base.length := by
  fun_induction Composite.accessor? c name with
  | case1 layout fields name =>
    obtain ⟨j, here, stored⟩ := Option.map_eq_some_iff.1 found
    have inside := List.findIdx?_eq_some_iff_getElem.1 here
    cases layout with
    | row =>
      cases stored
      obtain ⟨inside, -⟩ := inside
      simpa [Composite.base, Composite.names, Composite.fields] using inside
    | caseClass | tuple | pojo => cases stored
  | case2 underlying labels name j here inner listed ih => exact ih found
  | case3 => cases found
  | case4 => cases found

/-- The terms that read the fields of an expression are legible: none of them reads a position
that is too large to be written exactly. -/
def Expr.Shown (s : Setting) (e : Expr) : Prop :=
  ∀ name type, .field name type ∈ e.nodes → ∀ t, s.fieldTerm? name type = some t → t.Stands 1

theorem Expr.Shown.sub {s : Setting} {e c : Expr} (shown : e.Shown s) (part : c.nodes ⊆ e.nodes) :
    c.Shown s :=
  fun name type inside => shown name type (part inside)

/-- Reading a field from an input can be continued, whichever way the field is reached. -/
theorem Accessor.stands_term {a : Accessor} (small : ∀ i, a = .index i → i < 2 ^ 53)
    (input : Name) (type : Ty) : (a.term input type.typeMark).Stands 13 := by
  have mark := type.isTypeMark_typeMark
  refine ⟨?_, Nat.le_refl 13⟩
  cases a with
  | index i => exact ⟨⟨trivial, rfl, small i rfl⟩, show 1 ≤ 13 by decide, mark⟩
  | method name => exact ⟨⟨trivial, rfl⟩, show 1 ≤ 13 by decide, mark⟩
  | member name => exact ⟨⟨trivial, rfl⟩, show 1 ≤ 13 by decide, mark⟩

/-- Over inputs of fewer fields than numbers that are written exactly, all fields are shown. -/
theorem Expr.shown_of_few {s : Setting}
    (few : ∀ input ∈ s.inputs, input.type.base.length ≤ 2 ^ 53) (e : Expr) : e.Shown s := by
  intro name type _ t found
  unfold Setting.fieldTerm? at found
  split at found
  · next input first =>
    obtain ⟨a, stored, rfl⟩ := Option.map_eq_some_iff.1 found
    refine (Accessor.stands_term (fun i same => ?_) _ _).mono (by decide)
    subst same
    exact Nat.lt_of_lt_of_le (Composite.lt_of_accessor? stored)
      (few input (List.mem_of_find?_eq_some first))
  · cases found

/-! ## Blocks -/

@[simp] theorem Block.legible_nil : Block.Legible [] := by
  rw [Block.Legible]
  trivial

@[simp] theorem Block.legible_cons {statement : Statement} {b : Block} :
    Block.Legible (statement :: b) ↔ statement.Legible ∧ b.Legible := by
  rw [Block.Legible]

@[simp] theorem Block.legible_append {b b' : Block} :
    Block.Legible (b ++ b') ↔ b.Legible ∧ b'.Legible := by
  induction b with
  | nil => simp
  | cons statement b ih => rw [List.cons_append, legible_cons, legible_cons, ih, and_assoc]

section Nodes

variable {s : Setting} {isNull result : Name} {flag value : Term} {mark : Text} {absentType : Ty}
  (flagged : flag.Stands 1) (marked : mark.IsTypeMark)
  (absent : ∀ type, (s.defaults type).Stands 1)

theorem Statement.legible_assign (stands : value.Stands 1) :
    (Statement.assign result value).Legible := by
  rw [Statement.Legible]
  exact stands

theorem Block.legible_assign (stands : value.Stands 1) : Block.Legible [.assign result value] :=
  Block.legible_cons.2 ⟨Statement.legible_assign stands, Block.legible_nil⟩

theorem Statement.legible_declare (type : Option Text) (marks : ∀ mark ∈ type, mark.IsTypeMark)
    (stands : value.Stands 1) : (Statement.declare result type value).Legible := by
  rw [Statement.Legible]
  exact ⟨marks, stands⟩

include marked in
theorem Block.legible_declare (stands : value.Stands 1) :
    Block.Legible [.declare result (some mark) value] :=
  Block.legible_cons.2 ⟨Statement.legible_declare _ (by simpa using marked) stands,
    Block.legible_nil⟩

include marked in
theorem Statement.legible_reserve : (Statement.reserve result mark).Legible := by
  rw [Statement.Legible]
  exact marked

include flagged

theorem Setting.legible_flag : (s.flag isNull flag).Legible := by
  unfold Setting.flag
  split
  · exact Block.legible_cons.2 ⟨Statement.legible_declare none (by simp) flagged,
      Block.legible_nil⟩
  · exact Block.legible_nil

include marked absent

theorem Setting.legible_guarded {body : Block} (legible : body.Legible) :
    (s.guarded isNull result mark flag absentType body).Legible := by
  have branch : (Statement.branch (.name isNull) [.assign result (s.defaults absentType)]
      body).Legible := by
    rw [Statement.Legible]
    exact ⟨(Term.stands_name isNull).mono (by decide), Block.legible_assign (absent absentType),
      legible⟩
  refine Block.legible_cons.2 ⟨Statement.legible_declare none (by simp) flagged, ?_⟩
  exact Block.legible_cons.2 ⟨Statement.legible_reserve marked,
    Block.legible_cons.2 ⟨branch, Block.legible_nil⟩⟩

theorem Setting.legible_guardedBlock {plainMark : Text} (plain : plainMark.IsTypeMark)
    {body : Block} (legible : body.Legible) :
    (s.guardedBlock isNull result mark plainMark flag absentType body).Legible := by
  unfold Setting.guardedBlock
  split
  · exact Setting.legible_guarded flagged marked absent legible
  · exact Block.legible_cons.2 ⟨Statement.legible_reserve plain, legible⟩

/-- A value under a guard is read back if its term is. -/
theorem Setting.legible_compute (stands : value.Stands 1) :
    (s.compute isNull result mark flag absentType value).Legible := by
  unfold Setting.compute
  split
  · exact Setting.legible_guarded flagged marked absent (Block.legible_assign stands)
  · exact Block.legible_declare marked stands

end Nodes

theorem Setting.legible_nullTest {s : Setting} {isNull result : Name} (operand : Generated)
    (wanted : Bool) : (s.nullTest isNull result operand wanted).Legible := by
  have flag : (Term.name operand.isNull).Stands 1 := (Term.stands_name _).mono (by decide)
  have value : (Term.paren (.name operand.result)).Stands 13 := (Term.stands_name _).paren
  have null : Term.null.Stands 13 := ⟨trivial, Nat.le_refl 13⟩
  have fixed : (Term.bool false).Stands 1 := ⟨trivial, show 1 ≤ 13 by decide⟩
  unfold Setting.nullTest
  refine Block.legible_append.2 ⟨Setting.legible_flag fixed,
    Block.legible_declare (Ty.isTypeMark_typeMark _) ?_⟩
  split
  · exact flag
  · exact (((Term.stands_name _).mono (by decide)).unary .not).mono (by decide)
  · exact (Term.Stands.binary .looseEq (value.mono (by decide))
      (null.mono (by decide))).mono (by decide)
  · exact (Term.Stands.binary .looseNe (value.mono (by decide))
      (null.mono (by decide))).mono (by decide)

/-- A substring of names is read back, with and without a literal end. -/
theorem Setting.legible_substringBlock (result str start stop : Name)
    (literalEnd : Option Literal) :
    (Setting.substringBlock result (.name str) (.name start)
      (.name stop) literalEnd).Legible := by
  have head : (Term.paren (.name str)).Legible ∧ (Term.paren (.name str)).isHead = true :=
    ⟨trivial, rfl⟩
  have from' : (Term.name start).Stands 1 := (Term.stands_name _).mono (by decide)
  have upTo : (Term.name stop).Stands 1 := (Term.stands_name _).mono (by decide)
  have toEnd : Block.Legible [.assign result (.tail (.paren (.name str)) (.name start))] :=
    Block.legible_assign ⟨⟨head, from'⟩, show 1 ≤ 13 by decide⟩
  have bounded : Block.Legible
      [.assign result (.slice (.paren (.name str)) (.name start) (.name stop))] :=
    Block.legible_assign ⟨⟨head, from', upTo⟩, show 1 ≤ 13 by decide⟩
  unfold Setting.substringBlock
  split
  · split
    · exact toEnd
    · exact bounded
  · have test := Term.Stands.binary .strictEq
      ((Term.stands_name stop).mono (by decide))
      ((Term.stands_number (Double.ofInt Expr.maxInt)).mono (by decide))
    refine Block.legible_cons.2 ⟨?_, Block.legible_nil⟩
    rw [Statement.Legible]
    exact ⟨test.mono (by decide), toEnd, bounded⟩

section Conversions

variable {result x : Name} {n m : Nat} {block : Block} {ds : List Declaration}

/-- The block that reads a date is read back, with one handler inside of the other. -/
theorem Gen.legible_dateBlock (parsed : Name) :
    (Gen.dateBlock result parsed (.name x)).Legible := by
  have name (y : Name) : (Term.name y).Stands 1 := (Term.stands_name y).mono (by decide)
  have tried (k : FormatterKind) : (Term.parse (.formatter k) (.name x)).Stands 1 :=
    ⟨name x, show 1 ≤ 13 by decide⟩
  have attempt {value : Term} {handler : Block} (stands : value.Stands 1)
      (legible : handler.Legible) : Block.Legible [.attempt parsed value handler] := by
    refine Block.legible_cons.2 ⟨?_, Block.legible_nil⟩
    rw [Statement.Legible]
    exact ⟨stands, legible⟩
  have last : Block.Legible [.assign parsed (.call .epochMillis (.name x))] :=
    Block.legible_assign (((Term.stands_name x).call .epochMillis).mono (by decide))
  have time := attempt (tried .time) last
  have date := attempt (tried .date) time
  have timestamp := attempt (tried .timestamp) date
  refine Block.legible_cons.2
    ⟨Statement.legible_reserve (Ty.isTypeMark_typeMark (.basic .date)),
      ?_⟩
  exact Block.legible_append.2 ⟨timestamp, Block.legible_assign (name parsed)⟩

/-- Code that is one assignment is read back if its term is. -/
theorem Gen.legible_of_yields_pure {t : Term}
    (made : (Gen.pure [.assign result t]).Yields n block m ds) (stands : t.Stands 1) :
    block.Legible := by
  obtain ⟨rfl, -, -⟩ := Gen.yields_pure.1 made
  exact Block.legible_assign stands

/-- The block of every conversion of a name is read back. -/
theorem Gen.legible_conversion {source target : Ty} {step : Gen Block}
    (found : Gen.conversion? result (.name x) source target = some step)
    (made : step.Yields n block m ds) : block.Legible := by
  have called (f : Function) : (Term.call f (.name x)).Stands 1 :=
    ((Term.stands_name x).call f).mono (by decide)
  unfold Gen.conversion? at found
  split at found
  · cases found
    simp only [Gen.yields_bind, Gen.yields_request, Gen.yields_pure] at made
    obtain ⟨_, _, _, _, ⟨rfl, rfl, rfl⟩, ⟨rfl, rfl, rfl⟩, rfl⟩ := made
    exact Block.legible_assign ⟨(Term.stands_name x).mono (by decide), show 1 ≤ 13 by decide⟩
  · cases found
    exact Gen.legible_of_yields_pure made (called .string)
  · cases found
    exact Gen.legible_of_yields_pure made (called .makeDate)
  · cases found
    simp only [Gen.parseDate, Gen.yields_bind, Gen.yields_request, Gen.yields_fresh,
      Gen.yields_pure] at made
    obtain ⟨_, _, _, _, ⟨rfl, rfl, rfl⟩, ⟨_, _, _, _, ⟨rfl, rfl, rfl⟩, ⟨_, _, _, _,
      ⟨rfl, rfl, rfl⟩, ⟨_, _, _, _, ⟨rfl, rfl, rfl⟩, ⟨rfl, rfl, rfl⟩, rfl⟩, rfl⟩, rfl⟩, rfl⟩ :=
      made
    exact Gen.legible_dateBlock _
  · cases found
    exact Gen.legible_of_yields_pure made ⟨⟨trivial, rfl⟩, show 1 ≤ 13 by decide⟩
  · cases found
    exact Gen.legible_of_yields_pure made (called (.valueOf _))
  · obtain ⟨t, legal, rfl⟩ := Option.map_eq_some_iff.1 found
    exact Gen.legible_of_yields_pure made ((Term.stands_coerce? legal).mono (by decide))
  · cases found

end Conversions

/-! ## Trees -/

/-- In a setting whose terms for absent values are legible, so is the code of every expression
whose fields are shown. -/
theorem Setting.Emits.legible {s : Setting} (absent : ∀ type, (s.defaults type).Stands 1)
    {e : Expr} {n m : Nat} {g : Generated} {ds : List Declaration} (emits : s.Emits e n g m ds)
    (shown : e.Shown s) : g.code.Legible := by
  have fixed (b : Bool) : (Term.bool b).Stands 1 := ⟨trivial, show 1 ≤ 13 by decide⟩
  have name (x : Name) : (Term.name x).Stands 1 := (Term.stands_name x).mono (by decide)
  have either (x y : Name) : (Term.binary .or (.name x) (.name y)).Stands 2 :=
    Term.stands_infix .or
  induction emits with
  | naming _ ih => exact ih (shown.sub (List.subset_cons_self _ _))
  | nullLiteral =>
    exact Block.legible_append.2 ⟨Setting.legible_flag (fixed true),
      Block.legible_declare (Ty.isTypeMark_nullableMark _) ⟨trivial, show 1 ≤ 13 by decide⟩⟩
  | literal _ found made =>
    exact Block.legible_append.2 ⟨Setting.legible_flag (fixed false),
      Block.legible_declare (Ty.isTypeMark_typeMark _)
        ((Literal.stands_term? found made).mono (by decide))⟩
  | @field fieldName type n term found =>
    have null : Term.null.Stands 8 := ⟨trivial, show 8 ≤ 13 by decide⟩
    have test : (Term.binary .looseEq (.name (.result n)) .null).Stands 7 :=
      Term.Stands.binary _ ((Term.stands_name _).mono (by decide)) null
    exact Block.legible_append.2 ⟨Block.legible_declare (Ty.isTypeMark_typeMark _)
      (shown fieldName type List.mem_cons_self term found),
      Setting.legible_flag (test.mono (by decide))⟩
  | binary _ _ ihl ihr =>
    refine Block.legible_append.2
      ⟨Block.legible_append.2 ⟨ihl (shown.sub ?_), ihr (shown.sub ?_)⟩, ?_⟩
    · exact fun _ inside => List.mem_cons_of_mem _ (List.mem_append_left _ inside)
    · exact fun _ inside => List.mem_cons_of_mem _ (List.mem_append_right _ inside)
    · exact Setting.legible_compute ((either _ _).mono (by decide)) (Ty.isTypeMark_typeMark _)
        absent (BinaryOp.stands_term _ _ _ _)
  | unary _ ih =>
    refine Block.legible_append.2 ⟨ih (shown.sub (List.subset_cons_self _ _)), ?_⟩
    exact Setting.legible_compute (name _) (Ty.isTypeMark_typeMark _) absent
      ((UnaryOp.stands_term _ _).mono (by decide))
  | isNull _ ih | isNotNull _ ih =>
    exact Block.legible_append.2 ⟨ih (shown.sub (List.subset_cons_self _ _)),
      Setting.legible_nullTest _ _⟩
  | cast _ _ found made ih =>
    refine Block.legible_append.2 ⟨ih (shown.sub (List.subset_cons_self _ _)), ?_⟩
    exact Setting.legible_guardedBlock (name _) (Ty.isTypeMark_nullableMark _) absent
      (Ty.isTypeMark_typeMark _) (Gen.legible_conversion found made)
  | substring _ _ _ iha ihb ihc =>
    have test (x y z : Name) :
        (Term.binary .or (.binary .or (.name x) (.name y)) (.name z)).Stands 2 :=
      Term.Stands.binary _ (either x y) ((Term.stands_name z).mono (by decide))
    refine Block.legible_append.2 ⟨Block.legible_append.2 ⟨Block.legible_append.2
      ⟨iha (shown.sub ?_), ihb (shown.sub ?_)⟩, ihc (shown.sub ?_)⟩, ?_⟩
    · exact fun _ inside => List.mem_cons_of_mem _ (List.mem_append_left _ inside)
    · exact fun _ inside => List.mem_cons_of_mem _
        (List.mem_append_right _ (List.mem_append_left _ inside))
    · exact fun _ inside => List.mem_cons_of_mem _
        (List.mem_append_right _ (List.mem_append_right _ inside))
    · exact Setting.legible_guardedBlock ((test _ _ _).mono (by decide))
        (Ty.isTypeMark_typeMark _) absent
        (Ty.isTypeMark_typeMark _) (Setting.legible_substringBlock _ _ _ _ _)

end RowExpr
