import RowExpr.Proofs.Code.Identifier
import RowExpr.Proofs.Unit.Legible
import RowExpr.Proofs.Unit.Loading

/-!
Running code with plain names.

Names are data until they are printed, and code that is read has plain names. One scope spells
another if it holds under the texts of names what the other holds under the names
(`Scope.Spells`). In a unit names are told apart by their texts, so running a block and running
what its lines read as ends alike: at the same fault, or in scopes of which one spells the other
(`Block.run_spoken`). The same holds of the statements of a factory, so an evaluator whose code
is the reading of that of another answers as the other does (`Evaluator.run_spoken`).
-/

namespace RowExpr

/-! ## Scopes -/

/-- The second scope holds under the texts of usable names what the first holds under the
names. -/
structure Scope.Spells (inputs : List Input) (σ τ : Scope) : Prop where
  get : ∀ x, x.Usable inputs → τ.get (.plain x.text) = σ.get x
  getFormatter : ∀ x, x.Usable inputs → τ.getFormatter (.plain x.text) = σ.getFormatter x

theorem Scope.spells_empty (inputs : List Input) : Scope.Spells inputs .empty .empty :=
  ⟨fun _ _ => rfl, fun _ _ => rfl⟩

section Scopes

variable {inputs : List Input}
  (fine : ∀ input ∈ inputs,
    Input.isIdentifier input.name = true ∧ Input.isReserved input.name = false)
  {σ τ : Scope}

include fine

/-- Usable names that differ are spelt in different ways. -/
theorem Name.Usable.plain_ne {x y : Name} (left : x.Usable inputs) (right : y.Usable inputs)
    (other : y ≠ x) : Name.plain y.text ≠ .plain x.text :=
  fun same => other (right.eq_of_text fine left (Name.plain.inj same))

/-- Binding a name in one scope, and its spelling in the other. -/
theorem Scope.Spells.bind (spells : Scope.Spells inputs σ τ) {x : Name}
    (usable : x.Usable inputs) (v : Value) :
    Scope.Spells inputs (σ.bind x v) (τ.bind (.plain x.text) v) := by
  refine ⟨fun y usable' => ?_, spells.getFormatter⟩
  by_cases same : y = x
  · subst same
    rw [σ.get_bind_self, τ.get_bind_self]
  · rw [σ.get_bind_of_ne v same, τ.get_bind_of_ne v (usable.plain_ne fine usable' same)]
    exact spells.get y usable'

theorem Scope.Spells.bindFormatter (spells : Scope.Spells inputs σ τ) {x : Name}
    (usable : x.Usable inputs) (f : Formatter) :
    Scope.Spells inputs (σ.bindFormatter x f) (τ.bindFormatter (.plain x.text) f) := by
  refine ⟨spells.get, fun y usable' => ?_⟩
  by_cases same : y = x
  · subst same
    rw [Scope.getFormatter_bindFormatter_self, Scope.getFormatter_bindFormatter_self]
  · rw [σ.getFormatter_bindFormatter_of_ne f same,
      τ.getFormatter_bindFormatter_of_ne f (usable.plain_ne fine usable' same)]
    exact spells.getFormatter y usable'

/-- Inputs have plain names in both scopes. -/
theorem Scope.Spells.bindInputs (spells : Scope.Spells inputs σ τ) {names : List Text}
    (known : ∀ name ∈ names, ∃ input ∈ inputs, input.name = name) (records : List Value) :
    Scope.Spells inputs (σ.bindInputs names records) (τ.bindInputs names records) := by
  induction names generalizing σ τ records with
  | nil => exact spells
  | cons name names ih =>
    obtain ⟨⟨input, listed, rfl⟩, others⟩ := List.forall_mem_cons.1 known
    rw [Scope.bindInputs_cons, Scope.bindInputs_cons]
    exact ih (spells.bind fine (.input listed) _) others _

end Scopes

/-! ## Terms -/

theorem Double.written_finite {rank : Fin rankBound} (some : rank.val ≠ 0) (neg : Bool) :
    (Double.finite neg rank).written = .finite neg rank :=
  if_neg (ne_true_of_eq_false (beq_eq_false_iff_ne.2 some))

/-- The sign of a zero is lost in its text. -/
theorem Double.written_of_zero {rank : Fin rankBound} (zero : rank.val = 0) (neg : Bool) :
    (Double.finite neg rank).written = .zero false :=
  if_pos (beq_iff_eq.2 zero)

/-- A number that is read has the value of the number that was written. -/
theorem Double.eval_spoken [TimeZones] (x : Double) (τ : Scope) :
    x.spoken.eval τ = .ok (.number x.written) := by
  cases x with
  | nan => rfl
  | infinite neg => cases neg <;> rfl
  | finite neg rank =>
    by_cases zero : rank.val = 0
    · have unsigned : (Double.finite neg rank).isSigned = false := by
        rw [isSigned, zero]
        exact Bool.and_false neg
      rw [spoken, unsigned, if_neg Bool.false_ne_true, Term.eval_number, abs,
        written_of_zero zero, written_of_zero zero]
    · have sign : (Double.finite neg rank).isSigned = neg := by
        rw [isSigned, bne_iff_ne.2 zero, Bool.and_true]
      cases neg with
      | false => rfl
      | true =>
        rw [spoken, sign, if_pos rfl, Term.eval_unary .negate (Term.eval_number τ _), abs,
          written_finite zero, written_finite zero]
        rfl

/-- In a scope that spells another, the term that is read has the value of the term that was
written, or the same fault. -/
theorem Term.eval_spoken [TimeZones] {inputs : List Input} {σ τ : Scope}
    (spells : Scope.Spells inputs σ τ) {t : Term} (usable : ∀ x ∈ t.names, x.Usable inputs) :
    t.spoken.eval τ = t.eval σ := by
  induction t with
  | name x => exact spells.get x (usable x List.mem_cons_self)
  | number x | fractional x => exact x.eval_spoken τ
  | undefined | null | bool | text | singleText | nullUnit => rfl
  | paren t ih | ascribe t _ ih => exact ih usable
  | unary op t ih | index t _ ih | member t _ ih | invoke t _ ih | call _ t ih | charCode t ih =>
    rw [spoken, eval, eval, ih usable]
  | binary op left right ihl ihr =>
    obtain ⟨inLeft, inRight⟩ := List.forall_mem_append.1 usable
    rw [spoken, eval, eval, ihl inLeft, ihr inRight]
  | cond test yes no iht ihy ihn =>
    obtain ⟨inTest, others⟩ := List.forall_mem_append.1 usable
    obtain ⟨inYes, inNo⟩ := List.forall_mem_append.1 others
    rw [spoken, eval, eval, iht inTest, ihy inYes, ihn inNo]
  | call₂ f left right ihl ihr | tail left right ihl ihr =>
    obtain ⟨inLeft, inRight⟩ := List.forall_mem_append.1 usable
    rw [spoken, eval, eval, ihl inLeft, ihr inRight]
  | slice t start stop iht ihs ihe =>
    obtain ⟨inside, others⟩ := List.forall_mem_append.1 usable
    obtain ⟨inStart, inStop⟩ := List.forall_mem_append.1 others
    rw [spoken, eval, eval, iht inside, ihs inStart, ihe inStop]
  | format formatter t ih | parse formatter t ih =>
    obtain ⟨here, others⟩ := List.forall_mem_cons.1 usable
    rw [spoken, eval, eval, ih others, spells.getFormatter formatter here]

/-! ## Statements -/

/-- Two runs end alike: at the same fault, or in scopes of which the second spells the first. -/
inductive Scope.EndsAlike (inputs : List Input) :
    Except Fault Scope → Except Fault Scope → Prop
  | ok {σ τ : Scope} : Scope.Spells inputs σ τ → Scope.EndsAlike inputs (.ok σ) (.ok τ)
  | error (fault : Fault) : Scope.EndsAlike inputs (.error fault) (.error fault)

section Runs

variable {inputs : List Input}

/-- What comes after two runs that end alike is run from both. -/
theorem Scope.EndsAlike.bind {first second : Except Fault Scope}
    {next next' : Scope → Except Fault Scope} (alike : Scope.EndsAlike inputs first second)
    (rest : ∀ {σ τ}, Scope.Spells inputs σ τ → Scope.EndsAlike inputs (next σ) (next' τ)) :
    Scope.EndsAlike inputs (first >>= next) (second >>= next') := by
  cases alike with
  | ok spells => exact rest spells
  | error fault => exact .error fault

/-- A value that is evaluated alike is bound alike. -/
theorem Scope.Spells.endsAlike_bind
    (fine : ∀ input ∈ inputs,
      Input.isIdentifier input.name = true ∧ Input.isReserved input.name = false)
    {σ τ : Scope} (spells : Scope.Spells inputs σ τ) {x : Name} (usable : x.Usable inputs)
    {r r' : Except Fault Value} (same : r' = r) (f : Value → Value) :
    Scope.EndsAlike inputs (do let v ← r; return σ.bind x (f v))
      (do let v ← r'; return τ.bind (.plain x.text) (f v)) := by
  rw [same]
  cases r with
  | ok v => exact .ok (spells.bind fine usable (f v))
  | error fault => exact .error fault

variable [TimeZones]

mutual

/-- A statement and what it is spelt as end alike, step by step. -/
theorem Statement.run_spoken
    (fine : ∀ input ∈ inputs,
      Input.isIdentifier input.name = true ∧ Input.isReserved input.name = false)
    {statement : Statement} (usable : ∀ x ∈ statement.mentions, x.Usable inputs) {σ τ : Scope}
    (spells : Scope.Spells inputs σ τ) :
    Scope.EndsAlike inputs (statement.run σ) (statement.spoken.run τ) := by
  cases statement with
  | declare x type value =>
    rw [Statement.mentions] at usable
    obtain ⟨here, others⟩ := List.forall_mem_cons.1 usable
    rw [Statement.spoken, Statement.run, Statement.run]
    exact spells.endsAlike_bind fine here (Term.eval_spoken spells others) id
  | reserve x type =>
    rw [Statement.mentions] at usable
    rw [Statement.spoken, Statement.run, Statement.run]
    exact .ok (spells.bind fine (usable x List.mem_cons_self) _)
  | assign x value =>
    rw [Statement.mentions] at usable
    obtain ⟨here, others⟩ := List.forall_mem_cons.1 usable
    rw [Statement.spoken, Statement.run, Statement.run]
    exact spells.endsAlike_bind fine here (Term.eval_spoken spells others) id
  | branch test yes no =>
    rw [Statement.mentions] at usable
    obtain ⟨inTest, others⟩ := List.forall_mem_append.1 usable
    obtain ⟨inYes, inNo⟩ := List.forall_mem_append.1 others
    rw [Statement.spoken, Statement.run, Statement.run, Term.eval_spoken spells inTest]
    cases test.eval σ with
    | error fault => exact .error fault
    | ok v =>
      show Scope.EndsAlike inputs (if v.truthy then _ else _) (if v.truthy then _ else _)
      split
      · exact Block.run_spoken fine inYes spells
      · exact Block.run_spoken fine inNo spells
  | attempt x value otherwise =>
    rw [Statement.mentions] at usable
    obtain ⟨here, others⟩ := List.forall_mem_cons.1 usable
    obtain ⟨inValue, inHandler⟩ := List.forall_mem_append.1 others
    rw [Statement.spoken, Statement.run, Statement.run, Term.eval_spoken spells inValue]
    cases value.eval σ with
    | error fault => exact Block.run_spoken fine inHandler spells
    | ok v => exact .ok (spells.bind fine here v)

/-- Running a block and what its lines read as ends alike. -/
theorem Block.run_spoken
    (fine : ∀ input ∈ inputs,
      Input.isIdentifier input.name = true ∧ Input.isReserved input.name = false)
    {b : Block} (usable : ∀ x ∈ b.mentions, x.Usable inputs) {σ τ : Scope}
    (spells : Scope.Spells inputs σ τ) :
    Scope.EndsAlike inputs (b.run σ) (b.spoken.run τ) := by
  cases b with
  | nil =>
    rw [Block.spoken, Block.run_nil, Block.run_nil]
    exact .ok spells
  | cons statement rest =>
    rw [Block.mentions] at usable
    obtain ⟨here, later⟩ := List.forall_mem_append.1 usable
    rw [Block.spoken, Block.run_cons, Block.run_cons]
    exact (Statement.run_spoken fine here spells).bind (Block.run_spoken fine later)

end

end Runs

/-! ## Factories and evaluators -/

section Factories

variable [TimeZones] {inputs : List Input}
  (fine : ∀ input ∈ inputs,
    Input.isIdentifier input.name = true ∧ Input.isReserved input.name = false)
  {σ τ : Scope}

include fine

/-- A statement of a factory and what it is spelt as end alike. -/
theorem FactoryStatement.run_spoken {f : FactoryStatement} (legible : f.Legible inputs)
    (spells : Scope.Spells inputs σ τ) :
    Scope.EndsAlike inputs (f.run σ) (f.spoken.run τ) := by
  have usable : ∀ x ∈ f.term.names, x.Usable inputs := by
    rw [legible.closed]
    exact List.forall_mem_nil _
  have same := Term.eval_spoken spells usable
  cases f with
  | constant x value =>
    rw [spoken, run, run]
    exact spells.endsAlike_bind fine legible.usable same Value.asConstant
  | formatter x pattern =>
    have bound (t : Text) := spells.bindFormatter fine legible.usable (.ofPattern t)
    rw [term] at same
    rw [spoken, run, run, same]
    cases pattern.eval σ with
    | error fault => exact .error fault
    | ok v => cases v <;> first | exact .ok (bound _) | exact .error _
  | setZone x zone =>
    have bound (f : Formatter) (t : Text) :=
      spells.bindFormatter fine legible.usable { f with zone := t }
    rw [term] at same
    rw [spoken, run, run, same, spells.getFormatter x legible.usable]
    cases σ.getFormatter x with
    | error fault => exact .error fault
    | ok f =>
      cases zone.eval σ with
      | error fault => exact .error fault
      | ok v => cases v <;> first | exact .ok (bound f _) | exact .error _

theorem FactoryStatement.runAll_spoken {fs : List FactoryStatement}
    (legible : ∀ f ∈ fs, f.Legible inputs) (spells : Scope.Spells inputs σ τ) :
    Scope.EndsAlike inputs (runAll fs σ) (runAll (fs.map spoken) τ) := by
  induction fs generalizing σ τ with
  | nil => exact .ok spells
  | cons f fs ih =>
    obtain ⟨here, later⟩ := List.forall_mem_cons.1 legible
    exact (FactoryStatement.run_spoken fine here spells).bind (ih later)

omit fine in
/-- Terms one after another, in the order in which they are returned. -/
theorem Returned.evalAll_spoken (spells : Scope.Spells inputs σ τ) {ts : List Term}
    (usable : ∀ t ∈ ts, ∀ x ∈ t.names, x.Usable inputs) :
    Returned.evalAll τ (ts.map Term.spoken) = Returned.evalAll σ ts := by
  induction ts with
  | nil => rfl
  | cons t ts ih =>
    obtain ⟨here, others⟩ := List.forall_mem_cons.1 usable
    rw [List.map_cons, Returned.evalAll, Returned.evalAll,
      Term.eval_spoken spells here, ih others]

omit fine in
/-- What is returned has the same value, or ends with the same fault. -/
theorem Returned.eval_spoken (spells : Scope.Spells inputs σ τ) {r : Returned}
    (usable : ∀ t ∈ r.terms, ∀ x ∈ t.names, x.Usable inputs) :
    r.spoken.eval τ = r.eval σ := by
  cases r with
  | term t => exact Term.eval_spoken spells (usable t List.mem_cons_self)
  | list ts =>
    rw [terms] at usable
    rw [spoken, eval, eval, Returned.evalAll_spoken spells usable]

/-- An evaluator with the reading of a function, in a scope that spells the one of the function,
answers as the function does. -/
theorem Evaluator.run_spoken (spells : Scope.Spells inputs σ τ) {body : Block} {r : Returned}
    (inBody : ∀ x ∈ body.mentions, x.Usable inputs)
    (inReturns : ∀ t ∈ r.terms, ∀ x ∈ t.names, x.Usable inputs) (records : List Value) :
    (Evaluator.mk τ (inputs.map Input.name) body.spoken r.spoken).run records =
      (Evaluator.mk σ (inputs.map Input.name) body r).run records := by
  have known : ∀ name ∈ inputs.map Input.name, ∃ input ∈ inputs, input.name = name :=
    List.forall_mem_map.2 fun input listed => ⟨input, listed, rfl⟩
  have alike := Block.run_spoken fine inBody (spells.bindInputs fine known records)
  rw [run, run]
  dsimp only
  generalize body.run (σ.bindInputs (inputs.map Input.name) records) = ran at alike ⊢
  generalize body.spoken.run (τ.bindInputs (inputs.map Input.name) records) = ran' at alike ⊢
  cases alike with
  | ok spells => exact Returned.eval_spoken spells inReturns
  | error fault => rfl

end Factories

end RowExpr
