import RowExpr.Proofs.Expr.Nullity
import RowExpr.Proofs.Generation.Numbering

/-!
Generated code computes what its expression evaluates to.

`Generated.Agrees` relates the end of a run to the outcome of an evaluation: both
stop with the same fault, or the names of the code hold the value and the nullity
of the outcome. `Setting.Emits.agrees` proves it of the code of every expression,
by induction on its derivation. One lemma for each kind of block says what the
node adds after the code of its operands, and `Generated.Agrees.append` puts the
two together.
-/

namespace RowExpr

/-! ## Scopes that code runs in -/

/-- Every input is bound to its record; one without a record is undefined. -/
def Scope.BindsInputs (σ : Scope) : List Input → List Value → Prop
  | [], _ => True
  | input :: inputs, records =>
    σ.get (.plain input.name) = .ok (records.headD .undefined) ∧ σ.BindsInputs inputs records.tail

/-- Two scopes have the same inputs, constants and formatters; they differ in numbered
names at most. -/
structure Scope.SameGlobals (σ σ' : Scope) : Prop where
  formatters : σ'.formatters = σ.formatters
  get : ∀ x, (∀ stem k, x ≠ .fresh stem k) → σ'.get x = σ.get x

/-- A scope in which the code of an expression can be run: it binds the inputs to
their records and holds what the code has asked for. -/
structure Scope.Hosts (σ : Scope) (env : Environment) (ds : List Declaration) : Prop where
  inputs : σ.BindsInputs env.inputs env.records
  declares : σ.Declares env.zone ds

/-- A setting generates code for an environment: the two have the same inputs and
treat absent values alike. -/
structure Setting.Describes [TimeZones] (s : Setting) (env : Environment) : Prop where
  inputs : s.inputs = env.inputs
  nullCheck : s.nullCheck = env.nullCheck
  defaults : ∀ type σ, (s.defaults type).eval σ = .ok (env.defaults type)

section Hosts

variable {σ σ' : Scope} {env : Environment} {ds ds' : List Declaration}

/-- Which records are bound depends on the plain names only. -/
theorem Scope.BindsInputs.congr (same : ∀ name, σ'.get (.plain name) = σ.get (.plain name))
    {inputs : List Input} {records : List Value} (binds : σ.BindsInputs inputs records) :
    σ'.BindsInputs inputs records := by
  induction inputs generalizing records with
  | nil => trivial
  | cons input inputs ih => exact ⟨(same input.name).trans binds.1, ih binds.2⟩

theorem Scope.Hosts.mono (hosts : σ.Hosts env ds) (sub : ds' ⊆ ds) : σ.Hosts env ds' :=
  ⟨hosts.inputs, hosts.declares.mono sub⟩

/-- Numbered names do not matter to a host. -/
theorem Scope.Hosts.sameGlobals (hosts : σ.Hosts env ds) (same : σ.SameGlobals σ') :
    σ'.Hosts env ds where
  inputs := hosts.inputs.congr fun _ => same.get _ fun _ _ => Name.noConfusion
  declares := by
    refine ⟨fun k asked => ?_, fun t asked => ?_⟩
    · exact (Scope.getFormatter_congr same.formatters _).trans (hosts.declares.formatter k asked)
    · exact (same.get _ fun _ _ => Name.noConfusion).trans (hosts.declares.constant t asked)

/-- Code that binds numbered names only leaves a scope in which other code can run. -/
theorem Scope.Hosts.keeps (hosts : σ.Hosts env ds) {bound : List Name} {n m : Nat}
    (numbered : ∀ x ∈ bound, x.InRange n m) (keeps : Scope.Keeps bound σ σ') :
    σ'.Hosts env ds := by
  refine hosts.sameGlobals ⟨keeps.formatters, fun x other => keeps.get x fun inside => ?_⟩
  obtain ⟨stem, k, same, -⟩ := numbered x inside
  exact other stem k same

end Hosts

/-! ## Agreement -/

/-- After a run, the names of the code hold the value of an outcome and, if flags
are tracked, its nullity. -/
structure Generated.Holds (g : Generated) (nullCheck : Bool) (σ : Scope) (o : Outcome) :
    Prop where
  value : σ.get g.result = .ok o.value
  flag : nullCheck = true → σ.get g.isNull = .ok (.bool o.isNull)

/-- The end of a run agrees with the outcome of an evaluation. -/
inductive Generated.Agrees (g : Generated) (nullCheck : Bool) :
    Except Fault Scope → Except Fault Outcome → Prop
  | fault (f : Fault) : Generated.Agrees g nullCheck (.error f) (.error f)
  | finished {σ o} : g.Holds nullCheck σ o → Generated.Agrees g nullCheck (.ok σ) (.ok o)

section Agreement

variable {c g : Generated} {nullCheck : Bool} {σ σ' : Scope} {o : Outcome} {n m : Nat}

/-- Names that were taken later can be bound without a loss. -/
theorem Generated.Holds.keeps (holds : c.Holds nullCheck σ o) (numbered : c.Numbered n m)
    {bound : List Name} (apart : ∀ x ∈ bound, ¬ x.InRange n m) (keeps : Scope.Keeps bound σ σ') :
    c.Holds nullCheck σ' o where
  value := (keeps.get _ fun inside => apart _ inside numbered.result_inRange).trans holds.value
  flag checked := (keeps.get _ fun inside => apart _ inside numbered.isNull_inRange).trans
    (holds.flag checked)

theorem Generated.Holds.eval_result [TimeZones] (holds : c.Holds nullCheck σ o) :
    (Term.name c.result).eval σ = .ok o.value :=
  holds.value

theorem Generated.Holds.eval_isNull [TimeZones] (holds : c.Holds nullCheck σ o)
    (checked : nullCheck = true) : (Term.name c.isNull).eval σ = .ok (.bool o.isNull) :=
  holds.flag checked

/-- What a run that ends without a fault tells about the evaluation. -/
theorem Generated.Agrees.of_finished {run : Except Fault Scope} {outcome : Except Fault Outcome}
    (agrees : c.Agrees nullCheck run outcome) (ran : run = .ok σ) :
    ∃ o, outcome = .ok o ∧ c.Holds nullCheck σ o := by
  subst ran
  cases agrees with
  | finished holds => exact ⟨_, rfl, holds⟩

/-- Code of an operand, then code that goes on from its outcome. -/
theorem Generated.Agrees.append [TimeZones] {rest : Block} {first : Except Fault Outcome}
    {next : Outcome → Except Fault Outcome} (operand : c.Agrees nullCheck (c.code.run σ) first)
    (goesOn : ∀ {σ' o}, c.code.run σ = .ok σ' → first = .ok o → c.Holds nullCheck σ' o →
      g.Agrees nullCheck (rest.run σ') (next o)) :
    g.Agrees nullCheck ((c.code ++ rest).run σ) (do let o ← first; next o) := by
  rw [Block.run_append]
  cases ran : c.code.run σ with
  | error f =>
    rw [ran] at operand
    cases operand
    exact .fault f
  | ok σ' =>
    rw [ran] at operand
    cases operand with
    | finished holds => exact goesOn ran rfl holds

end Agreement

/-! ## Blocks of a node -/

theorem Name.flag_ne_result (n : Nat) : Name.flag n ≠ .result n := by
  intro same
  injection same with _ number
  omega

theorem Name.inRange_of_mem {n : Nat} :
    ∀ x ∈ [Name.flag n, Name.result n], x.InRange n (n + 2) := by
  intro x own
  rcases (by simpa using own : x = .flag n ∨ x = .result n) with rfl | rfl
  · exact Name.flag_inRange n
  · exact Name.result_inRange n

/-- An operand holds its outcome when the names of its node are bound. -/
theorem Generated.Holds.node {c : Generated} {nullCheck : Bool} {σ σ' : Scope} {o : Outcome}
    {n k m : Nat} (holds : c.Holds nullCheck σ o) (numbered : c.Numbered k m)
    (above : n + 2 ≤ k) (keeps : Scope.Keeps [.flag n, .result n] σ σ') :
    c.Holds nullCheck σ' o :=
  holds.keeps numbered (fun x own inside => (Name.inRange_of_mem x own).ne inside above rfl) keeps

/-- An operand holds its outcome after the code of a later one. -/
theorem Generated.Holds.later [TimeZones] {c d : Generated} {nullCheck : Bool} {σ σ' : Scope}
    {o : Outcome} {n m n' m' : Nat} (holds : c.Holds nullCheck σ o) (numbered : c.Numbered n m)
    (next : d.Numbered n' m') (after : m ≤ n') (ran : d.code.run σ = .ok σ') :
    c.Holds nullCheck σ' o :=
  holds.keeps numbered (fun x bound inside => inside.ne (next.targets x bound) after rfl)
    (Block.run_keeps ran)

section Nodes

variable {s : Setting} {env : Environment} {σ : Scope} {n : Nat} {code body : Block}
    {typeMark : Text}
  {flag term : Term} {absentType : Ty} {absent : Bool} {value : Except Fault Value}

/-- With flags tracked, a node whose flag is set holds a placeholder, and any other
holds what its body assigns. -/
theorem Setting.guarded_agrees [TimeZones] (describes : s.Describes env)
    (flagged : flag.eval σ = .ok (.bool absent))
    (computes : ∀ {σ'}, Scope.Keeps [.flag n, .result n] σ σ' →
      Block.Assigns body (.result n) σ' value)
    (apart : Name.flag n ∉ body.targets) :
    Generated.Agrees ⟨code, .result n, .flag n⟩ true
      ((s.guarded (.flag n) (.result n) typeMark flag absentType body).run σ)
      (env.guarded absent absentType value) := by
  have keeps : Scope.Keeps [.flag n, .result n] σ
      ((σ.bind (.flag n) (.bool absent)).bind (.result n) .undefined) :=
    (Scope.Keeps.bind σ _ _).trans (Scope.Keeps.bind _ _ _)
  have bound : ((σ.bind (.flag n) (.bool absent)).bind (.result n) .undefined).get (.flag n) =
      .ok (.bool absent) :=
    (Scope.get_bind_of_ne _ _ (Name.flag_ne_result n)).trans (Scope.get_bind_self _ _ _)
  have entered : (s.guarded (.flag n) (.result n) typeMark flag absentType body).run σ =
      Block.run (if absent then [.assign (.result n) (s.defaults absentType)] else body)
        ((σ.bind (.flag n) (.bool absent)).bind (.result n) .undefined) := by
    rw [guarded, Block.run_declare none _ flagged, Block.run_reserve, Block.run_singleton]
    exact Statement.run_branch (t := .name (.flag n)) _ _ bound
  rw [entered]
  cases absent with
  | true =>
    have assigned : Block.run [.assign (.result n) (s.defaults absentType)]
        ((σ.bind (.flag n) (.bool true)).bind (.result n) .undefined) =
        .ok (((σ.bind (.flag n) (.bool true)).bind (.result n) .undefined).bind (.result n)
          (env.defaults absentType)) :=
      (Block.run_assign [] (describes.defaults absentType _)).trans (Block.run_nil _)
    rw [if_pos rfl, assigned]
    refine .finished ⟨Scope.get_bind_self _ _ _, fun _ => ?_⟩
    exact (Scope.get_bind_of_ne _ _ (Name.flag_ne_result n)).trans bound
  | false =>
    cases computes keeps with
    | fault ran =>
      rw [if_neg Bool.false_ne_true, ran]
      exact .fault _
    | value ran assigned =>
      rw [if_neg Bool.false_ne_true, ran]
      exact .finished ⟨assigned, fun _ => ((Block.run_keeps ran).get _ apart).trans bound⟩

/-- With flags not tracked, a node holds what its code assigns. -/
theorem Block.Assigns.agrees [TimeZones] {g : Generated} {block : Block}
    (assigns : Block.Assigns block g.result σ value) :
    g.Agrees false (block.run σ) (env.guarded false absentType value) := by
  cases assigns with
  | fault ran =>
    rw [ran]
    exact .fault _
  | value ran bound =>
    rw [ran]
    exact .finished ⟨bound, Bool.noConfusion⟩

/-- A value under a guard agrees with the guarded value, if the flag and the term do where they
stand. -/
theorem Setting.compute_agrees [TimeZones] (describes : s.Describes env)
    (flagged : s.nullCheck = true → flag.eval σ = .ok (.bool absent))
    (present : s.nullCheck = false → absent = false)
    (computes : ∀ {σ'}, Scope.Keeps [.flag n, .result n] σ σ' → term.eval σ' = value) :
    Generated.Agrees ⟨code, .result n, .flag n⟩ s.nullCheck
      ((s.compute (.flag n) (.result n) typeMark flag absentType term).run σ)
      (env.guarded absent absentType value) := by
  unfold Setting.compute
  cases checked : s.nullCheck with
  | true =>
    refine guarded_agrees describes (flagged checked) (fun keeps => ?_) ?_
    · rw [← computes keeps]
      exact Block.assigns_assign _ _ _
    · simp [Statement.targets]
  | false =>
    rw [present checked, ← computes (Scope.Keeps.refl _ σ)]
    exact (Block.assigns_declare σ _ _ _).agrees

/-- The same for a block that leaves its value in the result and keeps the flag. -/
theorem Setting.guardedBlock_agrees [TimeZones] {plainMark : Text} (describes : s.Describes env)
    (flagged : s.nullCheck = true → flag.eval σ = .ok (.bool absent))
    (present : s.nullCheck = false → absent = false)
    (computes : ∀ {σ'}, Scope.Keeps [.flag n, .result n] σ σ' →
      Block.Assigns body (.result n) σ' value)
    (apart : Name.flag n ∉ body.targets) :
    Generated.Agrees ⟨code, .result n, .flag n⟩ s.nullCheck
      ((s.guardedBlock (.flag n) (.result n) typeMark plainMark flag absentType body).run σ)
      (env.guarded absent absentType value) := by
  unfold Setting.guardedBlock
  cases checked : s.nullCheck with
  | true => exact guarded_agrees describes (flagged checked) computes apart
  | false =>
    have keeps : Scope.Keeps [.flag n, .result n] σ (σ.bind (.result n) .undefined) :=
      (Scope.Keeps.bind σ _ _).mono (List.subset_cons_self _ _)
    rw [present checked]
    exact (computes keeps).reserve.agrees

end Nodes

/-! ## Leaves and null tests -/

section Leaves

variable {s : Setting} {env : Environment} {σ : Scope} {n : Nat} {code : Block} {type : Ty}

/-- Loose equality with null is true of the two absent values alone. -/
theorem Value.looseEq_null (v : Value) :
    InfixOperator.looseEq.apply v .null = .bool v.isAbsent := by
  cases v <;> simp [InfixOperator.apply, Value.strictEq, Value.sameObject, Value.isAbsent]

theorem Value.looseNe_null (v : Value) :
    InfixOperator.looseNe.apply v .null = .bool (!v.isAbsent) := by
  cases v <;> simp [InfixOperator.apply, Value.strictEq, Value.sameObject, Value.isAbsent]

/-- A flag that is known, then a declaration of the value. -/
theorem Setting.flag_declare_agrees [TimeZones] {flag term : Term} {typeMark : Option Text}
    {o : Outcome} (flagged : s.nullCheck = true → flag.eval σ = .ok (.bool o.isNull))
    (computes : ∀ {σ'}, Scope.Keeps [.flag n, .result n] σ σ' → term.eval σ' = .ok o.value) :
    Generated.Agrees ⟨code, .result n, .flag n⟩ s.nullCheck
      (Block.run (s.flag (.flag n) flag ++ [.declare (.result n) typeMark term]) σ) (.ok o) := by
  unfold Setting.flag
  cases checked : s.nullCheck with
  | true =>
    have value := computes ((Scope.Keeps.bind σ (.flag n) (.bool o.isNull)).mono
      (List.cons_subset_cons _ (List.nil_subset _)))
    have ran :
      Block.run ([.declare (.flag n) none flag] ++ [.declare (.result n) typeMark term]) σ =
        .ok ((σ.bind (.flag n) (.bool o.isNull)).bind (.result n) o.value) := by
      rw [List.singleton_append, Block.run_declare none _ (flagged checked),
        Block.run_declare typeMark _ value]
      exact Block.run_nil _
    rw [if_pos rfl, ran]
    refine .finished ⟨Scope.get_bind_self _ _ _, fun _ => ?_⟩
    exact (Scope.get_bind_of_ne _ _ (Name.flag_ne_result n)).trans (Scope.get_bind_self _ _ _)
  | false =>
    have value := computes (Scope.Keeps.refl _ σ)
    rw [if_neg Bool.false_ne_true, List.nil_append, Block.run_declare typeMark _ value,
      Block.run_nil]
    exact .finished ⟨Scope.get_bind_self _ _ _, Bool.noConfusion⟩

/-- A null test agrees: it reads the flag of its operand, or the value if there is no flag. -/
theorem Setting.nullTest_agrees [TimeZones] {c : Generated} {o : Outcome} {m : Nat}
    (describes : s.Describes env) (holds : c.Holds s.nullCheck σ o)
    (numbered : c.Numbered (n + 2) m) (wanted : Bool) :
    Generated.Agrees ⟨code, .result n, .flag n⟩ s.nullCheck
      ((s.nullTest (.flag n) (.result n) c wanted).run σ) (.ok (env.nullTest o wanted)) := by
  refine flag_declare_agrees (fun _ => rfl) fun {σ'} keeps => ?_
  have held := holds.node numbered (Nat.le_refl _) keeps
  have paren : (Term.paren (.name c.result)).eval σ' = .ok o.value := held.eval_result
  have null : Term.null.eval σ' = .ok .null := rfl
  unfold Environment.nullTest
  rw [← describes.nullCheck]
  cases checked : s.nullCheck with
  | true =>
    have flag := held.eval_isNull checked
    cases wanted with
    | true => simpa using flag
    | false => simpa [UnaryOperator.apply, Value.truthy] using Term.eval_unary .not flag
  | false =>
    cases wanted with
    | true => simpa [Value.looseEq_null] using Term.eval_binary .looseEq paren null
    | false => simpa [Value.looseNe_null] using Term.eval_binary .looseNe paren null

/-- A layout has no access to a field that it lacks. -/
theorem Composite.accessor?_eq_none {c : Composite} {name : Text}
    (lacks : c.hasField name = false) : c.accessor? name = none := by
  have missing : c.index? name = none := by
    simpa [hasField] using lacks
  match c, missing with
  | .plain layout fields, missing => rw [accessor?, missing, Option.map_none]
  | .renaming underlying names, missing => rw [accessor?, missing]

/-- The term of an access reads what the access reads. -/
theorem Accessor.eval_term [TimeZones] (a : Accessor) {x : Name} {v : Value}
    (bound : σ.get x = .ok v) (typeMark : Text) : (a.term x typeMark).eval σ = a.read v := by
  cases a <;> simp only [term, read, Term.eval, bound] <;> rfl

/-- The term of a field reads it from the first input that has it. -/
theorem Input.eval_term [TimeZones] {inputs : List Input} {records : List Value} {input : Input}
    {name : Text} {a : Accessor} (binds : σ.BindsInputs inputs records)
    (first : inputs.find? (·.type.hasField name) = some input)
    (stored : input.type.accessor? name = some a) (typeMark : Text) :
    (a.term (.plain input.name) typeMark).eval σ = Input.read name inputs records := by
  induction inputs generalizing records with
  | nil => cases first
  | cons head inputs ih =>
    rw [List.find?_cons] at first
    cases has : head.type.hasField name with
    | true =>
      rw [has] at first
      cases first
      rw [Input.read, stored]
      exact a.eval_term binds.1 typeMark
    | false =>
      rw [has] at first
      rw [Input.read, Composite.accessor?_eq_none has]
      exact ih binds.2 first

/-- The term of a field reads it from the first input that has it. -/
theorem Setting.eval_fieldTerm? [TimeZones] {name : Text} {term : Term} {ds : List Declaration}
    (describes : s.Describes env) (hosts : σ.Hosts env ds)
    (found : s.fieldTerm? name type = some term) :
    term.eval σ = Input.read name env.inputs env.records := by
  unfold Setting.fieldTerm? at found
  rw [describes.inputs] at found
  split at found
  · next input first =>
    obtain ⟨a, stored, rfl⟩ := Option.map_eq_some_iff.1 found
    exact Input.eval_term hosts.inputs first stored _
  · cases found

/-- The code of a field agrees: its flag tests the value that has been read. -/
theorem Setting.field_agrees [TimeZones] {name : Text} {term : Term} (describes : s.Describes env)
    (value : term.eval σ = Input.read name env.inputs env.records) :
    Generated.Agrees ⟨code, .result n, .flag n⟩ s.nullCheck
      (Block.run ([.declare (.result n) (some type.typeMark) term] ++
        s.flag (.flag n) (.binary .looseEq (.name (.result n)) .null)) σ)
      ((Expr.field name type).eval env) := by
  rw [Expr.eval, ← value, ← describes.nullCheck]
  cases read : term.eval σ with
  | error f =>
    rw [Block.run_append, Block.run_singleton, Statement.run, read]
    exact .fault f
  | ok v =>
    rw [List.singleton_append, Block.run_declare _ _ read]
    unfold Setting.flag
    cases checked : s.nullCheck with
    | true =>
      have bound : (Term.name (.result n)).eval (σ.bind (.result n) v) = .ok v :=
        σ.get_bind_self _ v
      have flag := Term.eval_binary .looseEq bound (b := .null) (r := .null) rfl
      rw [Value.looseEq_null] at flag
      rw [if_pos rfl, Block.run_declare none _ flag, Block.run_nil]
      refine .finished ⟨?_, fun _ => Scope.get_bind_self _ _ _⟩
      exact (Scope.get_bind_of_ne _ _ (Name.flag_ne_result n).symm).trans
        (Scope.get_bind_self _ _ _)
    | false =>
      rw [if_neg Bool.false_ne_true, Block.run_nil]
      exact .finished ⟨σ.get_bind_self _ v, Bool.noConfusion⟩

end Leaves

/-! ## Substrings -/

/-- The block of a substring ends as the substring does. A literal end decides the form of the
code, any other end is tested when it runs. -/
theorem Setting.substringBlock_assigns [TimeZones] {σ : Scope} {result : Name}
    {str start stop : Term} {a b c : Value} (strValue : str.eval σ = .ok a)
    (startValue : start.eval σ = .ok b) (stopValue : stop.eval σ = .ok c) (e : Expr) :
    Block.Assigns (Setting.substringBlock result str start stop e.unwrapped.literal?) result σ
      (a.substring b (if e.isOpenEnd c then none else some c)) := by
  have toEnd : Block.Assigns [.assign result (.tail (.paren str) start)] result σ
      (a.substring b none) := by
    have value : (Term.tail (.paren str) start).eval σ = a.substring b none := by
      rw [Term.eval, Term.eval_paren, strValue, startValue]
      rfl
    rw [← value]
    exact Block.assigns_assign σ _ _
  have bounded : Block.Assigns [.assign result (.slice (.paren str) start stop)] result σ
      (a.substring b (some c)) := by
    have value : (Term.slice (.paren str) start stop).eval σ = a.substring b (some c) := by
      rw [Term.eval, Term.eval_paren, strValue, startValue, stopValue]
      rfl
    rw [← value]
    exact Block.assigns_assign σ _ _
  -- Any end that is no number literal is tested when the code runs.
  have tested : Block.Assigns [.branch (.binary .strictEq stop (Term.int Expr.maxInt))
      [.assign result (.tail (.paren str) start)]
        [.assign result (.slice (.paren str) start stop)]] result σ
      (a.substring b
        (if c.strictEq (.number (Double.ofInt Expr.maxInt)) then none else some c)) := by
    refine .branch (Term.eval_binary .strictEq stopValue (Term.eval_int σ (by decide))) ?_
    cases isMax : c.strictEq (.number (Double.ofInt Expr.maxInt)) with
    | true => simpa [isMax, InfixOperator.apply, Value.truthy] using toEnd
    | false => simpa [isMax, InfixOperator.apply, Value.truthy] using bounded
  unfold Setting.substringBlock Expr.isOpenEnd
  rcases e.unwrapped.literal? with _ | (_ | _ | x | _ | _)
  · exact tested
  · exact tested
  · exact tested
  · cases isMax : x.eq (Double.ofInt Expr.maxInt) with
    | true => simpa [isMax] using toEnd
    | false => simpa [isMax] using bounded
  · exact tested
  · exact tested

/-! ## Expressions -/

section Expressions

variable {s : Setting} {env : Environment}

/-- The operands of a node are present if flags are not tracked. -/
theorem Setting.Describes.isNull_eq_false [TimeZones] (describes : s.Describes env) {e : Expr}
    {o : Outcome} (evaluated : e.eval env = .ok o) (unchecked : s.nullCheck = false) :
    o.isNull = false :=
  Expr.isNull_eq_false_of_unchecked (describes.nullCheck.symm.trans unchecked) evaluated

/-- A flag that joins two others is set if one of them is. -/
theorem Term.eval_or_flags [TimeZones] {σ : Scope} {l r : Term} {a b : Bool}
    (left : l.eval σ = .ok (.bool a)) (right : r.eval σ = .ok (.bool b)) :
    (Term.binary .or l r).eval σ = .ok (.bool (a || b)) := by
  rw [Term.eval_binary .or left right]
  cases a <;> rfl

/-- The code of an expression computes its outcome in every scope that can host it. -/
theorem Setting.Emits.agrees [TimeZones] (describes : s.Describes env) {e : Expr} {n m : Nat}
    {g : Generated} {ds : List Declaration} (emits : s.Emits e n g m ds) {σ : Scope}
    (hosts : σ.Hosts env ds) : g.Agrees s.nullCheck (g.code.run σ) (e.eval env) := by
  -- The induction carries the code of an operand from any scope that hosts it. What the operands
  -- hold survives the code between them and the node because their numbers differ.
  induction emits generalizing σ with
  | naming _ ih => exact ih hosts
  | nullLiteral =>
    refine flag_declare_agrees (fun checked => ?_) fun _ => rfl
    rw [← describes.nullCheck, checked]
    rfl
  | @literal value type _ _ _ _ _ present found made =>
    obtain ⟨-, evaluates⟩ := Literal.eval_term? found made
    refine flag_declare_agrees (fun checked => ?_) fun keeps => ?_
    · rw [beq_false_of_ne present, Bool.and_false]
      rfl
    · exact evaluates (hosts.keeps Name.inRange_of_mem keeps).declares
  | field found => exact field_agrees describes (eval_fieldTerm? describes hosts found)
  | @binary op left right type n l m ds r m' ds' emitsLeft emitsRight ihl ihr =>
    have numberedLeft := emitsLeft.numbered
    have numberedRight := emitsRight.numbered
    have taken := numberedLeft.taken
    rw [List.append_assoc]
    refine (ihl (hosts.mono (List.subset_append_left _ _))).append
      fun ranLeft leftRun holdsLeft => ?_
    have hostsRight := hosts.keeps numberedLeft.targets (Block.run_keeps ranLeft)
    refine (ihr (hostsRight.mono (List.subset_append_right _ _))).append
      fun ranRight rightRun holdsRight => ?_
    have keptLeft := holdsLeft.later numberedLeft numberedRight (Nat.le_refl _) ranRight
    refine compute_agrees describes (fun checked => ?_) (fun unchecked => ?_) fun keeps => ?_
    · exact Term.eval_or_flags (keptLeft.eval_isNull checked) (holdsRight.eval_isNull checked)
    · rw [describes.isNull_eq_false leftRun unchecked,
        describes.isNull_eq_false rightRun unchecked]
      rfl
    · exact op.eval_term type left.type right.type
        (keptLeft.node numberedLeft (Nat.le_refl _) keeps).eval_result
        (holdsRight.node numberedRight (by omega) keeps).eval_result
  | @unary op operand type n c m ds emits ih =>
    refine (ih hosts).append fun ran operandRun holds => ?_
    refine compute_agrees describes holds.eval_isNull (describes.isNull_eq_false operandRun)
      fun keeps => ?_
    exact op.eval_term type (holds.node emits.numbered (Nat.le_refl _) keeps).eval_result
  | isNull emits ih =>
    refine (ih hosts).append fun ran operandRun holds => ?_
    exact nullTest_agrees describes holds emits.numbered true
  | isNotNull emits ih =>
    refine (ih hosts).append fun ran operandRun holds => ?_
    exact nullTest_agrees describes holds emits.numbered false
  | @cast operand type n c m ds step conversion m' ds' legal emits found made ih =>
    have numbered := emits.numbered
    have taken := numbered.taken
    have converts := Gen.converts_of_conversion? found made
    refine (ih (hosts.mono (List.subset_append_left _ _))).append fun ran operandRun holds => ?_
    have hostsAfter := hosts.keeps numbered.targets (Block.run_keeps ran)
    refine guardedBlock_agrees describes holds.eval_isNull (describes.isNull_eq_false operandRun)
      (fun keeps => ?_) fun bound => ?_
    · refine converts.assigns (holds.node numbered (Nat.le_refl _) keeps).value ?_
        ((hostsAfter.keeps Name.inRange_of_mem keeps).mono
          (List.subset_append_right _ _)).declares
      exact numbered.result_inRange.ne ⟨_, m, rfl, Nat.le_refl m, Nat.lt_succ_self m⟩
        (Nat.le_refl m)
    · rcases converts.targets.2 _ bound with same | ⟨k, same, -⟩
      · exact Name.flag_ne_result n same
      · injection same with stem
        exact absurd stem (by decide)
  | @substring str start stop type n a m ds b m' ds' c m'' ds'' emitsStr emitsStart emitsStop
    iha ihb ihc =>
    have numberedStr := emitsStr.numbered
    have numberedStart := emitsStart.numbered
    have numberedStop := emitsStop.numbered
    have taken := numberedStr.taken
    have taken' := numberedStart.taken
    rw [List.append_assoc, List.append_assoc]
    refine (iha (hosts.mono (List.subset_append_left _ _))).append
      fun ranStr strRun holdsStr => ?_
    have hostsStart := (hosts.keeps numberedStr.targets (Block.run_keeps ranStr)).mono
      (List.subset_append_right _ _)
    refine (ihb (hostsStart.mono (List.subset_append_left _ _))).append
      fun ranStart startRun holdsStart => ?_
    have hostsStop := (hostsStart.keeps numberedStart.targets (Block.run_keeps ranStart)).mono
      (List.subset_append_right _ _)
    refine (ihc hostsStop).append fun ranStop stopRun holdsStop => ?_
    have keptStr :=
      (holdsStr.later numberedStr numberedStart (Nat.le_refl _) ranStart).later numberedStr
      numberedStop (by omega) ranStop
    have keptStart := holdsStart.later numberedStart numberedStop (Nat.le_refl _) ranStop
    refine guardedBlock_agrees describes (fun checked => ?_) (fun unchecked => ?_)
      (fun keeps => ?_)
      fun bound => ?_
    · exact Term.eval_or_flags (Term.eval_or_flags (keptStr.eval_isNull checked)
        (keptStart.eval_isNull checked)) (holdsStop.eval_isNull checked)
    · rw [describes.isNull_eq_false strRun unchecked,
        describes.isNull_eq_false startRun unchecked, describes.isNull_eq_false stopRun unchecked]
      rfl
    · exact substringBlock_assigns (keptStr.node numberedStr (Nat.le_refl _) keeps).eval_result
        (keptStart.node numberedStart (by omega) keeps).eval_result
        (holdsStop.node numberedStop (by omega) keeps).eval_result stop
    · exact Name.flag_ne_result n (mem_targets_substringBlock bound)

end Expressions

end RowExpr
