import RowExpr.Proofs.Code.Registry
import RowExpr.Proofs.Generation.Parallel
import RowExpr.Proofs.Generation.Simulation
import RowExpr.Proofs.Text.Lines

/-!
Lines of generated code.

A term is written without line feeds as long as the names in it and the types that it is taken to
have hold none: texts and members from outside are quoted or identifiers. So every line of the
code of an expression is a line by itself, and none is blank (`Setting.Emits.tidy`). The same
holds of the declarations of a unit and of the statements that set their zones.
-/

namespace RowExpr

/-! ## Names and types -/

/-- An identifier has no unit that could end a line. -/
theorem Name.oneLine_of_isIdentifier {t : Text} (identifier : Name.isIdentifier t = true) :
    t.OneLine := by
  cases t with
  | nil => exact Text.oneLine_nil
  | cons u rest =>
    rw [Name.isIdentifier, Bool.and_eq_true, List.all_eq_true] at identifier
    intro inside
    rcases List.mem_cons.1 inside with rfl | inside
    · exact absurd identifier.1 (by decide)
    · exact absurd (identifier.2 _ inside) (by decide)

/-- A numbered name is one line if its stem is. -/
@[simp] theorem Name.oneLine_fresh {stem : Text} {k : Nat} :
    (Name.fresh stem k).text.OneLine ↔ stem.OneLine := by
  simp [Name.text]

@[simp] theorem Name.oneLine_formatter (k : FormatterKind) : (Name.formatter k).text.OneLine := by
  cases k <;> decide

theorem Declaration.oneLine_name (d : Declaration) : d.name.text.OneLine := by
  cases d with
  | formatter k => exact Name.oneLine_formatter k
  | dateConstant t =>
    rw [Declaration.name, Name.text_dateConstant]
    cases t with
    | none => decide
    | some i =>
      dsimp only [Time.tag]
      split <;> simp

/-- No type is written with a line feed, composites included. -/
@[simp] theorem Ty.oneLine_typeMark (type : Ty) : type.typeMark.OneLine := by
  rcases type with b | p | c
  · rcases b with p | _ | _
    · cases p <;> decide
    · decide
    · decide
  · cases p <;> decide
  · show Text.OneLine "unknown"
    decide

@[simp] theorem Ty.oneLine_nullableMark (type : Ty) : type.nullableMark.OneLine := by
  simp [Ty.nullableMark]

/-! ## Terms -/

@[simp] theorem InfixOperator.oneLine_symbol (op : InfixOperator) : op.symbol.OneLine := by
  cases op <;> decide

@[simp] theorem UnaryOperator.oneLine_symbol (op : UnaryOperator) : op.symbol.OneLine := by
  cases op <;> decide

@[simp] theorem Function.oneLine_text (f : Function) : f.text.OneLine := by
  cases f with
  | valueOf p => cases p <;> decide
  | _ => decide

@[simp] theorem Function₂.oneLine_text (f : Function₂) : f.text.OneLine := by
  cases f <;> decide

/-- A field can have any name: one that is no identifier is quoted, and quoting escapes line
feeds. -/
@[simp] theorem Term.oneLine_memberText (field : Text) : (Term.memberText field).OneLine := by
  unfold Term.memberText
  split
  · next identifier => simp [Name.oneLine_of_isIdentifier identifier]
  · simp

-- Terms are opened constructor by constructor from here on.
attribute [simp] Term.toText

/-! ## Terms of operators -/

section Operators

variable {t left right : Term}

theorem Term.oneLine_int (n : Int) : (Term.int n).toText.OneLine := (Double.ofInt n).oneLine_text

@[simp] theorem Term.oneLine_toWord : t.toWord.toText.OneLine ↔ t.toText.OneLine := by
  simp [Term.toWord, Term.oneLine_int]

@[simp] theorem Term.oneLine_signExtend {bits : Int} :
    (t.signExtend bits).toText.OneLine ↔ t.toText.OneLine := by
  simp [Term.signExtend, Term.oneLine_int]

/-- Wrapping a term to the range of a type adds no line feed. -/
theorem Term.oneLine_wrap? {t' : Term} {p : Primitive} (found : t.wrap? p = some t') :
    t'.toText.OneLine ↔ t.toText.OneLine := by
  cases p <;> cases found <;> simp

/-- The same for any type: one that has no range leaves the term as it is. -/
@[simp] theorem Term.oneLine_narrow {type : Ty} :
    (t.narrow type).toText.OneLine ↔ t.toText.OneLine := by
  unfold Term.narrow
  split
  · next p =>
    cases found : t.wrap? p with
    | none => rfl
    | some t' => exact Term.oneLine_wrap? found
  · rfl

variable (one : t.toText.OneLine) (oneLeft : left.toText.OneLine)
    (oneRight : right.toText.OneLine)

include one in
/-- A coercion adds no line feed, whichever two types it leads between. -/
theorem Term.oneLine_coerce? {t' : Term} {source target : Primitive}
    (found : t.coerce? source target = some t') : t'.toText.OneLine := by
  unfold Term.coerce? at found
  split at found
  · cases found
    exact one
  · split at found
    · cases found
    · have numeric : (if source = .char then Term.charCode t else t).toText.OneLine := by
        split
        · simp [one]
        · exact one
      dsimp only at found
      generalize (if source = .char then Term.charCode t else t) = u at found numeric
      cases target with
      | long | float | double | char =>
        cases found
        simp [numeric]
      | int | short | byte | boolean => exact (Term.oneLine_wrap? found).2 numeric

include one in
/-- The term of a unary operation is one line if the operand is. -/
theorem UnaryOp.oneLine_term (op : UnaryOp) (type : Ty) : (op.term type t).toText.OneLine := by
  cases op <;> simp [UnaryOp.term, one]

include oneLeft oneRight

theorem Term.oneLine_or : (Term.binary .or left right).toText.OneLine := by
  simp [oneLeft, oneRight]

/-- Each way to compare two terms is one line if the terms are. -/
theorem Term.oneLine_equality (leftType rightType : Ty) :
    (Term.equality leftType rightType left right).toText.OneLine := by
  unfold Term.equality
  split
  · simp [oneLeft, oneRight]
  · split <;> simp [oneLeft, oneRight]

/-- The term of a binary operation is one line if the operands are. -/
theorem BinaryOp.oneLine_term (op : BinaryOp) (type leftType rightType : Ty) :
    (op.term type leftType rightType left right).toText.OneLine := by
  have equality := Term.oneLine_equality oneLeft oneRight leftType rightType
  cases op with
  | mul | div | rem =>
    unfold BinaryOp.term
    dsimp only
    split <;> simp [oneLeft, oneRight]
  | _ => simp [BinaryOp.term, oneLeft, oneRight, equality]

end Operators

/-! ## Terms of leaves -/

theorem Ty.oneLine_defaultTerm (type : Ty) : type.defaultTerm.toText.OneLine := by
  have minusOne := Double.oneLine_text Term.minusOne
  rcases type with b | p | c
  · rcases b with p | _ | _
    · cases p <;> simp [Ty.defaultTerm, Basic.defaultTerm, minusOne]
    · simp [Ty.defaultTerm, Basic.defaultTerm]
    · simp [Ty.defaultTerm, Basic.defaultTerm]
  · simp [Ty.defaultTerm]
  · simp [Ty.defaultTerm]

/-- The term of a literal is one line, also if the literal is a text with line feeds. -/
theorem Literal.oneLine_term? {value : Literal} {type : Ty} {step : Gen Term} {n m : Nat}
    {term : Term} {ds : List Declaration} (found : value.term? type = some step)
    (made : step.Yields n term m ds) : term.toText.OneLine := by
  rcases Literal.term?_cases found with ⟨t, constant, rfl⟩ | ⟨t, rfl⟩
  · obtain ⟨rfl, -, -⟩ := Gen.yields_pure.1 made
    rcases constant with x | x | s | b
    · exact x.oneLine_text
    · simp [x.oneLine_text]
    · exact s.oneLine_quoted
    · cases b <;> simp
  · simp only [Gen.yields_bind, Gen.yields_request, Gen.yields_pure] at made
    obtain ⟨_, _, _, _, ⟨rfl, rfl, rfl⟩, ⟨rfl, rfl, rfl⟩, rfl⟩ := made
    exact (Declaration.dateConstant t).oneLine_name

/-- A field is read from an input by a term that is one line if the name of the input is. -/
theorem Setting.oneLine_fieldTerm? {s : Setting}
    (inputs : ∀ input ∈ s.inputs, input.name.OneLine) {name : Text} {type : Ty} {term : Term}
    (found : s.fieldTerm? name type = some term) : term.toText.OneLine := by
  unfold Setting.fieldTerm? at found
  split at found
  · next input first =>
    obtain ⟨a, -, rfl⟩ := Option.map_eq_some_iff.1 found
    have one := inputs input (List.mem_of_find?_eq_some first)
    cases a <;> simp [Accessor.term, Name.text, one]
  · cases found

/-! ## Statements -/

instance (t : Text) : Decidable t.IsLine :=
  decidable_of_iff (t.OneLine ∧ ∃ u ∈ t, Text.isBlank u = false)
    ⟨fun ⟨one, written⟩ => ⟨one, written⟩, fun line => ⟨line.one, line.written⟩⟩

/-- Text in front of a line makes a line, if it holds no line feed. -/
theorem Text.OneLine.isLine_append {s t : Text} (one : s.OneLine) (line : t.IsLine) :
    (s ++ t).IsLine := by
  obtain ⟨u, listed, black⟩ := line.written
  exact ⟨Text.oneLine_append.2 ⟨one, line.one⟩, u, List.mem_append_right _ listed, black⟩

/-- All lines of the block are lines by themselves, and none is blank. -/
def Block.Tidy (b : Block) : Prop := ∀ line ∈ Block.lines b, line.IsLine

theorem Block.lines_append (b b' : Block) :
    Block.lines (b ++ b') = Block.lines b ++ Block.lines b' := by
  induction b with
  | nil => rfl
  | cons statement b ih => rw [List.cons_append, Block.lines, ih, Block.lines, List.append_assoc]

@[simp] theorem Block.tidy_nil : Block.Tidy [] := by
  simp [Block.Tidy, Block.lines]

@[simp] theorem Block.tidy_append {b b' : Block} :
    Block.Tidy (b ++ b') ↔ Block.Tidy b ∧ Block.Tidy b' := by
  unfold Block.Tidy
  rw [Block.lines_append, List.forall_mem_append]

theorem Block.Tidy.cons {statement : Statement} {b : Block} (first : Block.Tidy [statement])
    (rest : b.Tidy) : Block.Tidy (statement :: b) :=
  Block.tidy_append.2 ⟨first, rest⟩

theorem Block.isLine_indent {lines : List Text} (code : ∀ line ∈ lines, Text.IsLine line) :
    ∀ line ∈ Block.indent lines, line.IsLine := by
  intro line listed
  obtain ⟨inner, inside, rfl⟩ := List.mem_map.1 listed
  exact Text.OneLine.isLine_append (by decide) (code inner inside)

section Statements

variable {x : Name} {t : Term} (name : x.text.OneLine) (value : t.toText.OneLine)

include name

theorem Block.tidy_reserve {mark : Text} (marked : mark.OneLine) :
    Block.Tidy [.reserve x mark] := by
  refine List.forall_mem_singleton.2 (Text.OneLine.isLine_append ?_ (by decide))
  simp [name, marked]

include value

/-- A declaration is a line, if its name, its annotation and its value are. -/
theorem Block.tidy_declare {mark : Option Text} (marked : ∀ m ∈ mark, m.OneLine) :
    Block.Tidy [.declare x mark t] := by
  rcases mark with _ | m
  · refine List.forall_mem_singleton.2 (Text.OneLine.isLine_append ?_ (by decide))
    simp [name, value]
  · refine List.forall_mem_singleton.2 (Text.OneLine.isLine_append ?_ (by decide))
    simp [name, value, marked m rfl]

theorem Block.isLine_assignment : (Block.assignment x t).IsLine := by
  refine Text.OneLine.isLine_append ?_ (by decide)
  simp [name, value]

theorem Block.tidy_assign : Block.Tidy [.assign x t] :=
  List.forall_mem_singleton.2 (Block.isLine_assignment name value)

theorem Block.tidy_attempt {otherwise : Block} (handler : otherwise.Tidy) :
    Block.Tidy [.attempt x t otherwise] := by
  unfold Block.Tidy
  rw [Block.lines, Block.lines, List.append_nil, Statement.lines]
  have tried :=
    Block.isLine_indent (List.forall_mem_singleton.2 (Block.isLine_assignment name value))
  refine List.forall_mem_cons.2
    ⟨by decide, List.forall_mem_append.2 ⟨tried, List.forall_mem_cons.2 ⟨by decide, ?_⟩⟩⟩
  exact List.forall_mem_append.2
    ⟨Block.isLine_indent handler, List.forall_mem_singleton.2 (by decide)⟩

omit name in
theorem Block.tidy_branch {yes no : Block} (left : yes.Tidy) (right : no.Tidy) :
    Block.Tidy [.branch t yes no] := by
  unfold Block.Tidy
  rw [Block.lines, Block.lines, List.append_nil, Statement.lines]
  refine List.forall_mem_cons.2 ⟨Text.OneLine.isLine_append ?_ (by decide), ?_⟩
  · simp [value]
  · refine List.forall_mem_append.2
      ⟨Block.isLine_indent left, List.forall_mem_cons.2 ⟨by decide, ?_⟩⟩
    exact List.forall_mem_append.2
      ⟨Block.isLine_indent right, List.forall_mem_singleton.2 (by decide)⟩

end Statements

/-! ## Blocks of a node -/

section Nodes

variable {s : Setting} {isNull result : Name} {flag value : Term} {mark : Text} {absentType : Ty}
  (flagName : isNull.text.OneLine) (resultName : result.text.OneLine) (marked : mark.OneLine)
  (flagged : flag.toText.OneLine) (valued : value.toText.OneLine)
  (absent : (s.defaults absentType).toText.OneLine)

include flagName flagged in
theorem Setting.tidy_flag : (s.flag isNull flag).Tidy := by
  unfold Setting.flag
  split
  · exact Block.tidy_declare flagName flagged (by simp)
  · exact Block.tidy_nil

include resultName valued marked in
theorem Block.tidy_marked : Block.Tidy [.declare result (some mark) value] :=
  Block.tidy_declare resultName valued (by simpa using marked)

include flagName resultName marked flagged absent

theorem Setting.tidy_guarded {body : Block} (tidy : body.Tidy) :
    (s.guarded isNull result mark flag absentType body).Tidy := by
  have flags : Block.Tidy [.declare isNull none flag] :=
    Block.tidy_declare flagName flagged (by simp)
  refine flags.cons ((Block.tidy_reserve resultName marked).cons ?_)
  exact Block.tidy_branch (t := .name isNull) flagName (Block.tidy_assign resultName absent) tidy

theorem Setting.tidy_guardedBlock {plainMark : Text} (plain : plainMark.OneLine) {body : Block}
    (tidy : body.Tidy) :
    (s.guardedBlock isNull result mark plainMark flag absentType body).Tidy := by
  unfold Setting.guardedBlock
  split
  · exact Setting.tidy_guarded flagName resultName marked flagged absent tidy
  · exact (Block.tidy_reserve resultName plain).cons tidy

include valued in
/-- A value is one declaration, or is computed under a guard. -/
theorem Setting.tidy_compute : (s.compute isNull result mark flag absentType value).Tidy := by
  unfold Setting.compute
  split
  · exact Setting.tidy_guarded flagName resultName marked flagged absent
      (Block.tidy_assign resultName valued)
  · exact Block.tidy_marked resultName marked valued

end Nodes

/-- A null test reads the flag of its operand, or the result if there is none. -/
theorem Setting.tidy_nullTest {s : Setting} {isNull result : Name}
    (flagName : isNull.text.OneLine) (resultName : result.text.OneLine) {operand : Generated}
    (flag : operand.isNull.text.OneLine) (value : operand.result.text.OneLine) (wanted : Bool) :
    (s.nullTest isNull result operand wanted).Tidy := by
  unfold Setting.nullTest
  refine Block.tidy_append.2
    ⟨Setting.tidy_flag flagName (by decide), Block.tidy_marked resultName (by decide) ?_⟩
  split <;> simp [flag, value]

section Bodies

variable {result : Name} {value : Term} (name : result.text.OneLine)
    (valued : value.toText.OneLine)

include name

/-- The block of a substring is tidy if its three terms are, with and without a literal end. -/
theorem Setting.tidy_substringBlock {str start stop : Term} (strings : str.toText.OneLine)
    (starts : start.toText.OneLine) (stops : stop.toText.OneLine) (literalEnd : Option Literal) :
    (Setting.substringBlock result str start stop literalEnd).Tidy := by
  have toEnd : Block.Tidy [.assign result (.tail (.paren str) start)] :=
    Block.tidy_assign name (by simp [strings, starts])
  have bounded : Block.Tidy [.assign result (.slice (.paren str) start stop)] :=
    Block.tidy_assign name (by simp [strings, starts, stops])
  unfold Setting.substringBlock
  split
  · split
    · exact toEnd
    · exact bounded
  · refine Block.tidy_branch ?_ toEnd bounded
    simp [stops, Term.oneLine_int]

theorem Gen.tidy_of_yields_pure {t : Term} {n m : Nat} {block : Block} {ds : List Declaration}
    (made : (Gen.pure [.assign result t]).Yields n block m ds) (written : t.toText.OneLine) :
    block.Tidy := by
  obtain ⟨rfl, -, -⟩ := Gen.yields_pure.1 made
  exact Block.tidy_assign name written

include valued

theorem Gen.tidy_dateBlock {parsed : Name} (other : parsed.text.OneLine) :
    (Gen.dateBlock result parsed value).Tidy := by
  have tried (k : FormatterKind) : (Term.parse (.formatter k) value).toText.OneLine := by
    simp [valued]
  have last : Block.Tidy [.assign parsed (.call .epochMillis value)] :=
    Block.tidy_assign other (by simp [valued])
  have time := Block.tidy_attempt other (tried .time) last
  have date := Block.tidy_attempt other (tried .date) time
  have timestamp := Block.tidy_attempt other (tried .timestamp) date
  exact (Block.tidy_reserve other (by decide)).cons
    (timestamp.cons (Block.tidy_assign name other))

theorem Gen.tidy_conversion {source target : Ty} {step : Gen Block} {n m : Nat} {block : Block}
    {ds : List Declaration} (found : Gen.conversion? result value source target = some step)
    (made : step.Yields n block m ds) : block.Tidy := by
  have called (f : Function) : (Term.call f value).toText.OneLine := by
    simp [valued]
  unfold Gen.conversion? at found
  split at found
  · cases found
    simp only [Gen.yields_bind, Gen.yields_request, Gen.yields_pure] at made
    obtain ⟨_, _, _, _, ⟨rfl, rfl, rfl⟩, ⟨rfl, rfl, rfl⟩, rfl⟩ := made
    refine Block.tidy_assign name ?_
    simp [Declaration.name, valued]
  · cases found
    exact Gen.tidy_of_yields_pure name made (called .string)
  · cases found
    exact Gen.tidy_of_yields_pure name made (called .makeDate)
  · cases found
    simp only [Gen.parseDate, Gen.yields_bind, Gen.yields_request, Gen.yields_fresh,
      Gen.yields_pure] at made
    obtain ⟨_, _, _, _, ⟨rfl, rfl, rfl⟩,
      ⟨_, _, _, _, ⟨rfl, rfl, rfl⟩, ⟨_, _, _, _, ⟨rfl, rfl, rfl⟩,
        ⟨_, _, _, _, ⟨rfl, rfl, rfl⟩, ⟨rfl, rfl, rfl⟩, rfl⟩, rfl⟩, rfl⟩, rfl⟩ := made
    exact Gen.tidy_dateBlock name valued (Name.oneLine_fresh.2 (by decide))
  · cases found
    exact Gen.tidy_of_yields_pure name made (by simp [valued])
  · cases found
    exact Gen.tidy_of_yields_pure name made (called (.valueOf _))
  · obtain ⟨t, legal, rfl⟩ := Option.map_eq_some_iff.1 found
    exact Gen.tidy_of_yields_pure name made (Term.oneLine_coerce? valued legal)
  · cases found

end Bodies

/-! ## Trees -/

theorem Name.oneLine_flag (n : Nat) : (Name.flag n).text.OneLine :=
  Name.oneLine_fresh.2 (by decide)

theorem Name.oneLine_result (n : Nat) : (Name.result n).text.OneLine :=
  Name.oneLine_fresh.2 (by decide)

/-- The two names that the code of an expression fills are one line. -/
theorem Setting.Emits.oneLine_names {s : Setting} {e : Expr} {n m : Nat} {g : Generated}
    {ds : List Declaration} (emits : s.Emits e n g m ds) :
    (Term.name g.isNull).toText.OneLine ∧ (Term.name g.result).toText.OneLine := by
  rw [emits.numbered.isNull, emits.numbered.result]
  exact ⟨Name.oneLine_flag n, Name.oneLine_result n⟩

/-- In a setting whose inputs and default terms hold no line feeds, all lines of the code of an
expression are lines by themselves. -/
theorem Setting.Emits.tidy {s : Setting} (inputs : ∀ input ∈ s.inputs, input.name.OneLine)
    (terms : ∀ type, (s.defaults type).toText.OneLine) {e : Expr} {n m : Nat} {g : Generated}
    {ds : List Declaration} (emits : s.Emits e n g m ds) : g.code.Tidy := by
  induction emits with
  | naming _ ih => exact ih
  | nullLiteral =>
    exact Block.tidy_append.2 ⟨Setting.tidy_flag (Name.oneLine_flag _) (by decide),
      Block.tidy_marked (Name.oneLine_result _) (Ty.oneLine_nullableMark _) (by decide)⟩
  | literal _ found made =>
    exact Block.tidy_append.2 ⟨Setting.tidy_flag (Name.oneLine_flag _) (by decide),
      Block.tidy_marked (Name.oneLine_result _) (Ty.oneLine_typeMark _)
        (Literal.oneLine_term? found made)⟩
  | @field _ _ n _ found =>
    have result := Name.oneLine_result n
    refine Block.tidy_append.2 ⟨Block.tidy_marked result (Ty.oneLine_typeMark _)
      (Setting.oneLine_fieldTerm? inputs found), Setting.tidy_flag (Name.oneLine_flag n) ?_⟩
    simp
  | binary emitsLeft emitsRight ihl ihr =>
    obtain ⟨flagLeft, resultLeft⟩ := emitsLeft.oneLine_names
    obtain ⟨flagRight, resultRight⟩ := emitsRight.oneLine_names
    refine Block.tidy_append.2 ⟨Block.tidy_append.2 ⟨ihl, ihr⟩, ?_⟩
    exact Setting.tidy_compute (Name.oneLine_flag _) (Name.oneLine_result _)
      (Ty.oneLine_typeMark _)
      (Term.oneLine_or flagLeft flagRight)
        (BinaryOp.oneLine_term resultLeft resultRight _ _ _ _) (terms _)
  | unary emits ih =>
    obtain ⟨flag, result⟩ := emits.oneLine_names
    refine Block.tidy_append.2 ⟨ih, ?_⟩
    exact Setting.tidy_compute (Name.oneLine_flag _) (Name.oneLine_result _)
      (Ty.oneLine_typeMark _) flag
      (UnaryOp.oneLine_term result _ _) (terms _)
  | isNull emits ih | isNotNull emits ih =>
    obtain ⟨flag, result⟩ := emits.oneLine_names
    exact Block.tidy_append.2 ⟨ih,
      Setting.tidy_nullTest (Name.oneLine_flag _) (Name.oneLine_result _) flag result _⟩
  | cast _ emits found made ih =>
    obtain ⟨flag, result⟩ := emits.oneLine_names
    refine Block.tidy_append.2 ⟨ih, ?_⟩
    exact Setting.tidy_guardedBlock (Name.oneLine_flag _) (Name.oneLine_result _)
      (Ty.oneLine_nullableMark _) flag
      (terms _) (Ty.oneLine_typeMark _)
        (Gen.tidy_conversion (Name.oneLine_result _) result found made)
  | substring emitsStr emitsStart emitsStop iha ihb ihc =>
    obtain ⟨flagStr, resultStr⟩ := emitsStr.oneLine_names
    obtain ⟨flagStart, resultStart⟩ := emitsStart.oneLine_names
    obtain ⟨flagStop, resultStop⟩ := emitsStop.oneLine_names
    refine Block.tidy_append.2 ⟨Block.tidy_append.2 ⟨Block.tidy_append.2 ⟨iha, ihb⟩, ihc⟩, ?_⟩
    exact Setting.tidy_guardedBlock (Name.oneLine_flag _) (Name.oneLine_result _)
      (Ty.oneLine_typeMark _)
      (Term.oneLine_or (Term.oneLine_or flagStr flagStart) flagStop) (terms _)
        (Ty.oneLine_typeMark _)
      (Setting.tidy_substringBlock (Name.oneLine_result _) resultStr resultStart resultStop _)

/-! ## Declarations -/

/-- What a registry declares is one line each. -/
theorem Declaration.isLine_text (d : Declaration) : d.text.IsLine := by
  have name := d.oneLine_name
  cases d with
  | formatter k =>
    have pattern : k.pattern.OneLine := by cases k <;> decide
    refine Text.OneLine.isLine_append ?_ (by decide)
    simp [pattern.singleQuoted]
  | dateConstant t =>
    refine Text.OneLine.isLine_append ?_ (by decide)
    rw [Declaration.name] at name
    simp [Double.oneLine_text, name]

/-- Setting a zone is one line if the identifier of the zone is. -/
theorem Init.isLine_setZone {zone : Text} (one : zone.OneLine) (k : FormatterKind) :
    ((Init.setZone k).text zone).IsLine := by
  refine Text.OneLine.isLine_append ?_ (by decide)
  simp [one.singleQuoted]

/-- The texts of a registry that lists declarations are lines, if its zone is. -/
theorem Registry.Lists.isLine {r : Registry} {ds : List Declaration} (lists : r.Lists ds)
    (zone : r.zone.OneLine) : (∀ t ∈ r.memberTexts, t.IsLine) ∧ ∀ t ∈ r.initTexts, t.IsLine := by
  refine ⟨fun t listed => ?_, fun t listed => ?_⟩
  · rw [lists.memberTexts_eq] at listed
    obtain ⟨d, -, rfl⟩ := List.mem_map.1 listed
    exact d.isLine_text
  · rw [lists.initTexts_eq] at listed
    obtain ⟨k, -, rfl⟩ := List.mem_map.1 listed
    exact Init.isLine_setZone zone k

end RowExpr
