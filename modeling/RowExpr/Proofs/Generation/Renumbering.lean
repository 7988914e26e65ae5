import RowExpr.Proofs.Generation.Emission
import RowExpr.Proofs.Generation.Parallel

/-!
Numbers in generated code.

Generation that starts after `k` further names goes the same way, and in what it gives all
numbers are higher by `k` (`Expr.generate_shifts`). The names of inputs, constants and
formatters have no number and stay as they are.
-/

namespace RowExpr

/-! ## Renaming -/

/-- The name with its number raised by `k`, if it has one. -/
def Name.shift (k : Nat) : Name → Name
  | .fresh stem n => .fresh stem (k + n)
  | x => x

/-- The term with every name replaced. -/
def Term.rename (f : Name → Name) : Term → Term
  | .name x => .name (f x)
  | .paren t => .paren (t.rename f)
  | .ascribe t type => .ascribe (t.rename f) type
  | .unary op t => .unary op (t.rename f)
  | .binary op left right => .binary op (left.rename f) (right.rename f)
  | .cond test yes no => .cond (test.rename f) (yes.rename f) (no.rename f)
  | .index t i => .index (t.rename f) i
  | .member t field => .member (t.rename f) field
  | .invoke t method => .invoke (t.rename f) method
  | .call g t => .call g (t.rename f)
  | .call₂ g left right => .call₂ g (left.rename f) (right.rename f)
  | .charCode t => .charCode (t.rename f)
  | .tail t start => .tail (t.rename f) (start.rename f)
  | .slice t start stop => .slice (t.rename f) (start.rename f) (stop.rename f)
  | .format formatter t => .format (f formatter) (t.rename f)
  | .parse formatter t => .parse (f formatter) (t.rename f)
  | .undefined => .undefined
  | .null => .null
  | .bool b => .bool b
  | .number x => .number x
  | .fractional x => .fractional x
  | .text t => .text t
  | .singleText t => .singleText t
  | .nullUnit => .nullUnit

mutual

/-- The statement with every name replaced, inside of it too. -/
def Statement.rename (f : Name → Name) : Statement → Statement
  | .declare x type value => .declare (f x) type (value.rename f)
  | .reserve x type => .reserve (f x) type
  | .assign x value => .assign (f x) (value.rename f)
  | .branch test yes no => .branch (test.rename f) (Block.rename f yes) (Block.rename f no)
  | .attempt x value otherwise => .attempt (f x) (value.rename f) (Block.rename f otherwise)

/-- The block with every name replaced. -/
def Block.rename (f : Name → Name) : Block → Block
  | [] => []
  | statement :: rest => statement.rename f :: Block.rename f rest

end

/-- The code with every name replaced, those of its value and of its flag among them. -/
def Generated.rename (f : Name → Name) (g : Generated) : Generated :=
  ⟨g.code.rename f, f g.result, f g.isNull⟩

section Renaming

variable (f : Name → Name)

@[simp] theorem Block.rename_append (first rest : Block) :
    Block.rename f (first ++ rest) = Block.rename f first ++ Block.rename f rest := by
  induction first with
  | nil => simp [Block.rename]
  | cons statement first ih => simp [Block.rename, ih]

/-! ## Terms of operators -/

@[simp] theorem Term.rename_toWord (t : Term) : t.toWord.rename f = (t.rename f).toWord := rfl

theorem Term.rename_wrap? (t : Term) (p : Primitive) :
    (t.wrap? p).map (rename f) = (t.rename f).wrap? p := by
  cases p <;> rfl

/-- Narrowing does not look at names, so renaming passes through it. -/
@[simp] theorem Term.rename_narrow (t : Term) (type : Ty) :
    (t.narrow type).rename f = (t.rename f).narrow type := by
  unfold Term.narrow
  split
  · next p =>
    rw [← t.rename_wrap? f p]
    cases t.wrap? p <;> rfl
  · rfl

/-- Whether there is a coercion, and which, does not depend on names. -/
theorem Term.rename_coerce? (t : Term) (source target : Primitive) :
    (t.coerce? source target).map (rename f) = (t.rename f).coerce? source target := by
  unfold Term.coerce?
  split
  · rfl
  · split
    · rfl
    · cases target <;> split <;> rfl

@[simp] theorem Term.rename_equality (leftType rightType : Ty) (left right : Term) :
    (Term.equality leftType rightType left right).rename f =
      Term.equality leftType rightType (left.rename f) (right.rename f) := by
  unfold Term.equality
  split
  · rfl
  · split <;> rfl

/-- Renaming passes through the terms of binary operations to their operands. -/
@[simp] theorem BinaryOp.rename_term (op : BinaryOp) (type leftType rightType : Ty)
    (left right : Term) :
    (op.term type leftType rightType left right).rename f =
      op.term type leftType rightType (left.rename f) (right.rename f) := by
  cases op with
  | mul | div | rem =>
    unfold BinaryOp.term
    dsimp only
    split <;> simp [Term.rename]
  | _ => simp [BinaryOp.term, Term.rename]

@[simp] theorem UnaryOp.rename_term (op : UnaryOp) (type : Ty) (operand : Term) :
    (op.term type operand).rename f = op.term type (operand.rename f) := by
  cases op <;> simp [UnaryOp.term, Term.rename]

/-! ## Blocks of a node -/

theorem Setting.rename_flag (s : Setting) (isNull : Name) (value : Term) :
    (s.flag isNull value).rename f = s.flag (f isNull) (value.rename f) := by
  unfold Setting.flag
  split <;> simp [Block.rename, Statement.rename]

/-- Renaming passes through a null test to the names of its node and of its operand. -/
theorem Setting.rename_nullTest (s : Setting) (isNull result : Name) (operand : Generated)
    (wanted : Bool) :
    (s.nullTest isNull result operand wanted).rename f =
      s.nullTest (f isNull) (f result) (operand.rename f) wanted := by
  unfold Setting.nullTest
  rw [Block.rename_append, s.rename_flag f]
  cases s.nullCheck <;> cases wanted <;> rfl

theorem Setting.rename_substringBlock (result : Name) (str start stop : Term)
    (literalEnd : Option Literal) :
    (Setting.substringBlock result str start stop literalEnd).rename f =
      Setting.substringBlock (f result) (str.rename f) (start.rename f)
        (stop.rename f) literalEnd := by
  unfold Setting.substringBlock
  split
  · dsimp only
    split <;> rfl
  · rfl

/-- A cast is a block under the flag of its operand. -/
theorem Setting.castBlock_eq_guardedBlock (s : Setting) (isNull result : Name)
    (operand : Generated) (target : Ty) (conversion : Block) :
    s.castBlock isNull result operand target conversion =
      s.guardedBlock isNull result target.nullableMark target.typeMark (.name operand.isNull)
        target conversion :=
  rfl

/-- The terms that stand for absent values have no name that is replaced. -/
def Setting.Fixed (s : Setting) : Prop := ∀ type, (s.defaults type).rename f = s.defaults type

variable {f} {s : Setting} (fixed : s.Fixed f)

include fixed

/-- Renaming passes through a guard if it leaves the terms of absent values alone. -/
theorem Setting.rename_guarded (isNull result : Name) (typeMark : Text) (flag : Term)
    (absentType : Ty) (body : Block) :
    (s.guarded isNull result typeMark flag absentType body).rename f =
      s.guarded (f isNull) (f result) typeMark (flag.rename f) absentType (body.rename f) := by
  simp [Setting.guarded, Block.rename, Statement.rename, Term.rename, fixed absentType]

theorem Setting.rename_compute (isNull result : Name) (typeMark : Text) (flag : Term)
    (absentType : Ty) (value : Term) :
    (s.compute isNull result typeMark flag absentType value).rename f =
      s.compute (f isNull) (f result) typeMark (flag.rename f) absentType (value.rename f) := by
  unfold Setting.compute
  split
  · rw [Setting.rename_guarded fixed]
    rfl
  · rfl

theorem Setting.rename_guardedBlock (isNull result : Name) (guardedMark plainMark : Text)
    (flag : Term) (absentType : Ty) (body : Block) :
    (s.guardedBlock isNull result guardedMark plainMark flag absentType body).rename f =
      s.guardedBlock (f isNull) (f result) guardedMark plainMark (flag.rename f) absentType
        (body.rename f) := by
  unfold Setting.guardedBlock
  split
  · exact Setting.rename_guarded fixed _ _ _ _ _ _
  · rfl

end Renaming

/-- The code with all numbers of its names raised by `k`. -/
def Generated.shift (k : Nat) (g : Generated) : Generated := g.rename (Name.shift k)

/-- The terms that stand for absent values have no names at all. -/
theorem Ty.rename_defaultTerm (f : Name → Name) (type : Ty) :
    type.defaultTerm.rename f = type.defaultTerm := by
  rcases type with (_ | _ | _) | _ | _
  · next p => cases p <;> rfl
  all_goals rfl

/-! ## Steps of generation -/

/-- What a step would leave behind if `k` further names had been taken before, where `f` raises
the numbers in what it gives. -/
def Draft.shift {α : Type} (k : Nat) (f : α → α) (d : Draft α) : Draft α :=
  ⟨⟨k + d.names.taken⟩, d.requests, d.outcome.map f⟩

/-- After `k` further names, the second step leaves behind what the first does, but for
numbers. -/
def Gen.Shifts {α : Type} (k : Nat) (f : α → α) (m m' : Gen α) : Prop :=
  ∀ n, m' ⟨k + n⟩ = (m ⟨n⟩).shift k f

section Shifts

variable {α β : Type} {k : Nat} {f : α → α} {f' : β → β}

theorem Gen.shifts_pure {a b : α} (same : f a = b) :
    Gen.Shifts k f (Pure.pure a : Gen α) (Pure.pure b : Gen α) := by
  subst same
  intro n
  rfl

theorem Gen.shifts_fail (e : GenerationError) : Gen.Shifts k f (Gen.fail e) (Gen.fail e) := by
  intro n
  rfl

/-- A fresh name has a higher number if more names were taken before. -/
theorem Gen.shifts_fresh (stem : Text) :
    Gen.Shifts k (Name.shift k) (Gen.fresh stem) (Gen.fresh stem) := by
  intro n
  rfl

/-- What is asked for has no number. -/
theorem Gen.shifts_request (d : Declaration) :
    Gen.Shifts k (Name.shift k) (Gen.request d) (Gen.request d) := by
  intro n
  cases d <;> rfl

theorem Gen.Shifts.bind {m m' : Gen α} {g g' : α → Gen β} (first : Gen.Shifts k f m m')
    (next : ∀ a, Gen.Shifts k f' (g a) (g' (f a))) : Gen.Shifts k f' (m >>= g) (m' >>= g') := by
  intro n
  show Gen.bind m' g' ⟨k + n⟩ = (Gen.bind m g ⟨n⟩).shift k f'
  unfold Gen.bind
  rw [first n]
  rcases m ⟨n⟩ with ⟨⟨n'⟩, ds, e | a⟩
  · rfl
  · simp only [Draft.shift, Except.map, next a n']

/-- A node takes the names of its flag and of its value before all else. -/
theorem Gen.shifts_names {rest : Name → Name → Gen α}
    (next : ∀ isNull result,
      Gen.Shifts k f (rest isNull result) (rest (isNull.shift k) (result.shift k))) :
    Gen.Shifts k f
      (do
        let isNull ← Gen.fresh "isNull"
        let result ← Gen.fresh "result"
        rest isNull result)
      (do
        let isNull ← Gen.fresh "isNull"
        let result ← Gen.fresh "result"
        rest isNull result) := by
  refine (Gen.shifts_fresh _).bind fun isNull => ?_
  exact (Gen.shifts_fresh _).bind fun result => next isNull result

end Shifts

/-! ## Leaves and casts -/

section Nodes

variable (k : Nat)

theorem Literal.term?_shifts {value : Literal} {type : Ty} {step : Gen Term}
    (found : value.term? type = some step) :
    Gen.Shifts k (Term.rename (Name.shift k)) step step := by
  rcases Literal.term?_cases found with ⟨t, constant, rfl⟩ | ⟨t, rfl⟩
  · refine Gen.shifts_pure ?_
    cases constant <;> rfl
  · exact (Gen.shifts_request (.dateConstant t)).bind fun _ => Gen.shifts_pure rfl

/-- The code of a literal has the numbers of its two names. -/
theorem Literal.generate_shifts (s : Setting) (value : Literal) (type : Ty)
    (isNull result : Name) :
    Gen.Shifts k (Block.rename (Name.shift k)) (value.generate s isNull result type)
      (value.generate s (isNull.shift k) (result.shift k) type) := by
  unfold Literal.generate
  split
  · refine Gen.shifts_pure ?_
    rw [Block.rename_append, s.rename_flag]
    rfl
  · split
    · next step found =>
      refine (Literal.term?_shifts k found).bind fun term => Gen.shifts_pure ?_
      rw [Block.rename_append, s.rename_flag]
      rfl
    · exact Gen.shifts_fail _

/-- Inputs keep their names. -/
theorem Setting.rename_fieldTerm? {s : Setting} {name : Text} {type : Ty} {term : Term}
    (found : s.fieldTerm? name type = some term) : term.rename (Name.shift k) = term := by
  unfold Setting.fieldTerm? at found
  split at found
  · obtain ⟨a, -, rfl⟩ := Option.map_eq_some_iff.1 found
    cases a <;> rfl
  · cases found

/-- The code of a field has the numbers of its two names; inputs have none. -/
theorem Setting.generateField_shifts (s : Setting) (name : Text) (type : Ty)
    (isNull result : Name) :
    Gen.Shifts k (Block.rename (Name.shift k)) (s.generateField isNull result name type)
      (s.generateField (isNull.shift k) (result.shift k) name type) := by
  unfold Setting.generateField
  split
  · next term found =>
    refine Gen.shifts_pure ?_
    rw [Block.rename_append, s.rename_flag, Block.rename, Statement.rename,
      Setting.rename_fieldTerm? k found]
    rfl
  · exact Gen.shifts_fail _

theorem Gen.parseDate_shifts (result : Name) (value : Term) :
    Gen.Shifts k (Block.rename (Name.shift k)) (Gen.parseDate result value)
      (Gen.parseDate (result.shift k) (value.rename (Name.shift k))) := by
  refine (Gen.shifts_request _).bind fun date => ?_
  refine (Gen.shifts_request _).bind fun time => ?_
  refine (Gen.shifts_request _).bind fun timestamp => ?_
  exact (Gen.shifts_fresh _).bind fun parsed => Gen.shifts_pure rfl

/-- There is a conversion for the renamed term if and only if there is one, and the two differ in
numbers. -/
theorem Gen.conversion?_shifts (result : Name) (value : Term) (source target : Ty) :
    Option.Rel (Gen.Shifts k (Block.rename (Name.shift k)))
      (Gen.conversion? result value source target)
      (Gen.conversion? (result.shift k) (value.rename (Name.shift k)) source target) := by
  unfold Gen.conversion?
  split
  · exact .some ((Gen.shifts_request _).bind fun _ => Gen.shifts_pure rfl)
  · exact .some (Gen.shifts_pure rfl)
  · exact .some (Gen.shifts_pure rfl)
  · exact .some (Gen.parseDate_shifts k result value)
  · exact .some (Gen.shifts_pure rfl)
  · exact .some (Gen.shifts_pure rfl)
  · next p q =>
    rw [← value.rename_coerce? (Name.shift k) p q]
    cases value.coerce? p q with
    | none => exact .none
    | some t => exact .some (Gen.shifts_pure rfl)
  · exact .none

end Nodes

/-! ## Expressions -/

/-- Generation after `k` further names goes the same way, with numbers that are higher by `k`. -/
theorem Expr.generate_shifts {s : Setting} {k : Nat} (fixed : s.Fixed (Name.shift k)) (e : Expr) :
    Gen.Shifts k (Generated.shift k) (e.generate s) (e.generate s) := by
  induction e with
  | naming inner label type ih => exact ih
  | literal value type =>
    refine Gen.shifts_names fun isNull result => ?_
    exact (value.generate_shifts k s type isNull result).bind fun code => Gen.shifts_pure rfl
  | field name type =>
    refine Gen.shifts_names fun isNull result => ?_
    exact (s.generateField_shifts k name type isNull result).bind fun code => Gen.shifts_pure rfl
  | binary op left right type ihl ihr =>
    refine Gen.shifts_names fun isNull result => ?_
    refine ihl.bind fun l => ihr.bind fun r => Gen.shifts_pure ?_
    simp [Generated.shift, Generated.rename, Setting.rename_compute fixed, Term.rename]
  | unary op operand type ih =>
    refine Gen.shifts_names fun isNull result => ih.bind fun c => Gen.shifts_pure ?_
    simp [Generated.shift, Generated.rename, Setting.rename_compute fixed, Term.rename]
  | isNull operand type ih =>
    refine Gen.shifts_names fun isNull result => ih.bind fun c => Gen.shifts_pure ?_
    simp [Generated.shift, Generated.rename, Setting.rename_nullTest]
  | isNotNull operand type ih =>
    refine Gen.shifts_names fun isNull result => ih.bind fun c => Gen.shifts_pure ?_
    simp [Generated.shift, Generated.rename, Setting.rename_nullTest]
  | cast operand type ih =>
    refine Gen.shifts_names fun isNull result => ?_
    split
    · exact Gen.shifts_fail _
    · refine ih.bind fun c => ?_
      -- The types decide which conversion it is, so it is the same one after other names.
      have converted := Gen.conversion?_shifts k result (.name c.result) operand.type type
      generalize Gen.conversion? result (.name c.result) operand.type type = step at converted
      change Option.Rel _ _ (Gen.conversion? _ (.name (c.shift k).result) _ _) at converted
      generalize Gen.conversion? (result.shift k) (.name (c.shift k).result) operand.type type =
        step' at converted
      cases converted with
      | none => exact Gen.shifts_fail _
      | some steps =>
        refine steps.bind fun conversion => Gen.shifts_pure ?_
        simp [Generated.shift, Generated.rename, Setting.castBlock_eq_guardedBlock,
          Setting.rename_guardedBlock fixed, Term.rename]
  | substring str start stop type iha ihb ihc =>
    refine Gen.shifts_names fun isNull result => ?_
    refine iha.bind fun a => ihb.bind fun b => ihc.bind fun c => Gen.shifts_pure ?_
    have guarded :=
      Setting.rename_guardedBlock fixed isNull result Ty.string.typeMark Ty.string.typeMark
      (.binary .or (.binary .or (.name a.isNull) (.name b.isNull)) (.name c.isNull)) str.type
      (Setting.substringBlock result (.name a.result) (.name b.result)
        (.name c.result) stop.unwrapped.literal?)
    unfold Setting.guardedBlock at guarded
    simp [Generated.shift, Generated.rename, guarded, Setting.rename_substringBlock, Term.rename]

end RowExpr
