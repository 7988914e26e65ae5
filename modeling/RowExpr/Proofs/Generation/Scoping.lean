import RowExpr.Proofs.Code.Flow
import RowExpr.Proofs.Generation.Parallel

/-!
Generated code is scoped.

In a flow that has the inputs and the declarations that were asked for, and none of the
names that generation takes, the code of an expression is scoped. After it the result
holds a value, and so does the flag if absent values are tracked
(`Setting.Emits.settles`).
-/

namespace RowExpr

/-! ## Names in the terms of operators -/

theorem Term.names_name_subset {x : Name} {xs : List Name} (inside : x ∈ xs) :
    (Term.name x).names ⊆ xs :=
  List.cons_subset.2 ⟨inside, List.nil_subset _⟩

@[simp] theorem Term.names_toWord (t : Term) : t.toWord.names = t.names := by
  simp [Term.toWord, Term.int, Term.names]

@[simp] theorem Term.names_signExtend (t : Term) (bits : Int) :
    (t.signExtend bits).names = t.names := by
  simp [Term.signExtend, Term.int, Term.names]

theorem Term.names_wrap? {t t' : Term} {p : Primitive} (found : t.wrap? p = some t') :
    t'.names = t.names := by
  cases p <;> cases found <;> simp

/-- Narrowing reads nothing but the term that it narrows. -/
@[simp] theorem Term.names_narrow (t : Term) (type : Ty) : (t.narrow type).names = t.names := by
  unfold Term.narrow
  split
  · next p =>
    cases found : t.wrap? p with
    | none => rfl
    | some t' => exact Term.names_wrap? found
  · rfl

/-- A coercion reads nothing but what it coerces. -/
theorem Term.names_coerce? {t t' : Term} {source target : Primitive}
    (found : t.coerce? source target = some t') : t'.names = t.names := by
  unfold Term.coerce? at found
  split at found
  · cases found
    rfl
  · split at found
    · cases found
    · have numeric : (if source = .char then Term.charCode t else t).names = t.names := by
        split <;> rfl
      rw [← numeric]
      dsimp only at found
      generalize (if source = .char then Term.charCode t else t) = u at found
      cases target with
      | long | float | double | char =>
        cases found
        rfl
      | int | short | byte | boolean => exact Term.names_wrap? found

@[simp] theorem Term.names_equality (leftType rightType : Ty) (left right : Term) :
    (Term.equality leftType rightType left right).names = left.names ++ right.names := by
  unfold Term.equality
  split
  · rfl
  · split <;> rfl

/-- The term of a binary operation reads its operands, from left to right. -/
@[simp] theorem BinaryOp.names_term (op : BinaryOp) (type leftType rightType : Ty)
    (left right : Term) :
    (op.term type leftType rightType left right).names = left.names ++ right.names := by
  cases op with
  | mul | div | rem =>
    unfold BinaryOp.term
    dsimp only
    split <;> simp [Term.names]
  | _ => simp [BinaryOp.term, Term.names]

@[simp] theorem UnaryOp.names_term (op : UnaryOp) (type : Ty) (operand : Term) :
    (op.term type operand).names = operand.names := by
  cases op <;> simp [UnaryOp.term, Term.names]

/-! ## Names in the terms of leaves -/

/-- A literal reads nothing but the constants it asks for. -/
theorem Literal.names_term? {value : Literal} {type : Ty} {step : Gen Term} {n m : Nat}
    {term : Term} {ds : List Declaration} (found : value.term? type = some step)
    (made : step.Yields n term m ds) : term.names ⊆ ds.map Declaration.name := by
  rcases Literal.term?_cases found with ⟨t, constant, rfl⟩ | ⟨t, rfl⟩
  · obtain ⟨rfl, -, -⟩ := Gen.yields_pure.1 made
    cases constant <;> exact List.nil_subset _
  · simp only [Gen.yields_bind, Gen.yields_request, Gen.yields_pure] at made
    obtain ⟨_, _, _, _, ⟨rfl, rfl, rfl⟩, ⟨rfl, rfl, rfl⟩, rfl⟩ := made
    exact List.Subset.refl _

/-- A field reads the input that has it. -/
theorem Setting.names_fieldTerm? {s : Setting} {name : Text} {type : Ty} {term : Term}
    (found : s.fieldTerm? name type = some term) :
    ∃ input ∈ s.inputs, term.names = [.plain input.name] := by
  unfold Setting.fieldTerm? at found
  split at found
  · next input first =>
    obtain ⟨a, -, rfl⟩ := Option.map_eq_some_iff.1 found
    refine ⟨input, List.mem_of_find?_eq_some first, ?_⟩
    cases a <;> rfl
  · cases found

/-! ## Flows around a node -/

/-- None of the names with numbers from `n` up to `m` is in scope. -/
def Flow.Avoids (v : Flow) (n m : Nat) : Prop := ∀ x ∈ v.bound, ¬ x.InRange n m

/-- The inputs and the declarations that have been asked for hold a value. -/
structure Flow.Supplies (v : Flow) (inputs : List Input) (ds : List Declaration) : Prop where
  inputs : ∀ input ∈ inputs, Name.plain input.name ∈ v.assigned
  declared : ds.map Declaration.name ⊆ v.assigned

section Flows

variable {v v' : Flow} {n m : Nat} {b : Block} {inputs : List Input} {ds ds' : List Declaration}

theorem Flow.Avoids.mono {n' m' : Nat} (avoids : v.Avoids n m) (low : n ≤ n') (high : m' ≤ m) :
    v.Avoids n' m' :=
  fun x bound inside => avoids x bound (inside.mono low high)

/-- Code that declares other names leaves them out of scope. -/
theorem Flow.Avoids.after {stems : List Text} {n' m' : Nat} (avoids : v.Avoids n m)
    (valid : b.Scoped v) (fresh : Name.AllFresh stems n' m' b.declared)
    (apart : m ≤ n' ∨ m' ≤ n) : (b.after v).Avoids n m := by
  intro x bound inside
  rcases Block.bound_after valid bound with old | declared
  · exact avoids x old inside
  · have numbered := fresh.inRange x declared
    rcases apart with apart | apart
    · exact inside.ne numbered apart rfl
    · exact numbered.ne inside apart rfl

theorem Flow.Supplies.mono (supplies : v.Supplies inputs ds) (sub : ds' ⊆ ds)
    (grown : v.assigned ⊆ v'.assigned) : v'.Supplies inputs ds' :=
  ⟨fun input listed => grown (supplies.inputs input listed),
    List.Subset.trans (List.map_subset _ sub) (List.Subset.trans supplies.declared grown)⟩

/-- Code takes nothing away that has been supplied. -/
theorem Flow.Supplies.after (supplies : v.Supplies inputs ds) (b : Block) (sub : ds' ⊆ ds) :
    (b.after v).Supplies inputs ds' :=
  supplies.mono sub (Block.assigned_subset_after b v)

end Flows

/-! ## Blocks that fill a name -/

/-- The block is scoped, and the name holds a value after it. -/
structure Block.Fills (b : Block) (x : Name) (v : Flow) : Prop where
  valid : b.Scoped v
  filled : x ∈ (b.after v).assigned

section Fills

variable {v : Flow} {x y : Name} {t : Term}

/-- An assignment fills a name that was reserved. -/
theorem Block.fills_assign (reads : t.names ⊆ v.assigned) (reserved : x ∈ v.reserved) :
    Block.Fills [.assign x t] x v := by
  refine ⟨?_, ?_⟩
  · simp [Statement.Scoped, reads, reserved]
  · simp [Statement.after]

/-- A branch fills what both of its blocks fill. -/
theorem Block.Fills.branch {yes no : Block} (left : yes.Fills x v) (right : no.Fills x v)
    (reads : t.names ⊆ v.assigned) (reserved : x ∈ v.reserved) :
    Block.Fills [.branch t yes no] x v := by
  refine ⟨?_, ?_⟩
  · simp [Statement.Scoped, reads, left.valid, right.valid]
  · simp [Statement.after, left.filled, right.filled, reserved]

/-- An attempt fills its name if its handler does. -/
theorem Block.Fills.attempt {otherwise : Block} (handler : otherwise.Fills x v)
    (reads : t.names ⊆ v.assigned) (reserved : x ∈ v.reserved) :
    Block.Fills [.attempt x t otherwise] x v := by
  refine ⟨?_, ?_⟩
  · simp [Statement.Scoped, reads, reserved, handler.valid]
  · simp [Statement.after, handler.filled, reserved]

/-- A name that was filled is handed on to a reserved one. -/
theorem Block.Fills.copy {b : Block} (fills : b.Fills x v) (reserved : y ∈ v.reserved) :
    Block.Fills (b ++ [.assign y (.name x)]) y v := by
  have last :=
    Block.fills_assign (Term.names_name_subset fills.filled)
      (Block.reserved_subset_after b v reserved)
  refine ⟨(Block.scoped_append _ _ _).2 ⟨fills.valid, last.valid⟩, ?_⟩
  rw [Block.after_append]
  exact last.filled

/-- Code may reserve further names, if they are new. -/
theorem Block.Fills.reserve {b : Block} {typeMark : Text} (fills : b.Fills x (v.reserve y))
    (new : y ∉ v.bound) : Block.Fills (.reserve y typeMark :: b) x v := by
  refine ⟨?_, ?_⟩
  · simpa [Statement.Scoped, Statement.after, fills.valid] using new
  · simpa [Statement.after] using fills.filled

end Fills

/-- The block of a substring fills its result, on all of its branches. -/
theorem Setting.fills_substringBlock {v : Flow} {result : Name} {str start stop : Term}
    (literalEnd : Option Literal)
    (reads : str.names ++ (start.names ++ stop.names) ⊆ v.assigned)
    (reserved : result ∈ v.reserved) :
    (Setting.substringBlock result str start stop literalEnd).Fills result v := by
  obtain ⟨readsStr, reads⟩ := List.append_subset.1 reads
  obtain ⟨readsStart, readsStop⟩ := List.append_subset.1 reads
  have toEnd : Block.Fills [.assign result (.tail (.paren str) start)] result v :=
    Block.fills_assign (List.append_subset.2 ⟨readsStr, readsStart⟩) reserved
  have bounded : Block.Fills [.assign result (.slice (.paren str) start stop)] result v :=
    Block.fills_assign
      (List.append_subset.2 ⟨readsStr, List.append_subset.2 ⟨readsStart, readsStop⟩⟩) reserved
  unfold Setting.substringBlock
  split
  · split
    · exact toEnd
    · exact bounded
  · refine Block.Fills.branch toEnd bounded ?_ reserved
    simpa [Term.names, Term.int] using readsStop

section Conversions

variable {v : Flow} {result : Name} {value : Term} (reads : value.names ⊆ v.assigned)
    (reserved : result ∈ v.reserved)

include reads reserved

/-- The block that reads a date fills its result: either a reading has succeeded or the last one
has stopped the run. -/
theorem Gen.fills_dateBlock {parsed : Name}
    (declared : Gen.dateRequests.map Declaration.name ⊆ v.assigned) (new : parsed ∉ v.bound) :
    (Gen.dateBlock result parsed value).Fills result v := by
  have known : parsed ∈ (v.reserve parsed).reserved := List.mem_cons_self
  have tried (k : FormatterKind) (listed : Declaration.formatter k ∈ Gen.dateRequests) :
      (Term.parse (.formatter k) value).names ⊆ (v.reserve parsed).assigned :=
    List.cons_subset.2 ⟨declared (List.mem_map_of_mem listed), reads⟩
  have last : Block.Fills [.assign parsed (.call .epochMillis value)] parsed (v.reserve parsed) :=
    Block.fills_assign reads known
  have time := last.attempt (tried .time (by decide)) known
  have date := time.attempt (tried .date (by decide)) known
  have timestamp := date.attempt (tried .timestamp (by decide)) known
  exact (timestamp.copy (List.mem_cons_of_mem _ reserved)).reserve new

/-- A cast that is one assignment reads its operand only. -/
theorem Gen.fills_of_yields_pure {t : Term} {n m : Nat} {block : Block} {ds : List Declaration}
    (made : (Gen.pure [.assign result t]).Yields n block m ds) (same : t.names = value.names) :
    block.Fills result v := by
  obtain ⟨rfl, -, -⟩ := Gen.yields_pure.1 made
  exact Block.fills_assign (same ▸ reads) reserved

/-- The block of a cast reads its operand and what it asks for. -/
theorem Gen.fills_conversion {source target : Ty} {step : Gen Block} {n m : Nat} {block : Block}
    {ds : List Declaration} (found : Gen.conversion? result value source target = some step)
    (made : step.Yields n block m ds) (declared : ds.map Declaration.name ⊆ v.assigned)
    (avoids : v.Avoids n m) : block.Fills result v := by
  unfold Gen.conversion? at found
  split at found
  · cases found
    simp only [Gen.yields_bind, Gen.yields_request, Gen.yields_pure] at made
    obtain ⟨_, _, _, _, ⟨rfl, rfl, rfl⟩, ⟨rfl, rfl, rfl⟩, rfl⟩ := made
    exact Block.fills_assign (List.cons_subset.2 ⟨declared List.mem_cons_self, reads⟩) reserved
  · cases found
    exact Gen.fills_of_yields_pure reads reserved made rfl
  · cases found
    exact Gen.fills_of_yields_pure reads reserved made rfl
  · cases found
    simp only [Gen.parseDate, Gen.yields_bind, Gen.yields_request, Gen.yields_fresh,
      Gen.yields_pure] at made
    obtain ⟨_, _, _, _, ⟨rfl, rfl, rfl⟩,
      ⟨_, _, _, _, ⟨rfl, rfl, rfl⟩, ⟨_, _, _, _, ⟨rfl, rfl, rfl⟩,
        ⟨_, _, _, _, ⟨rfl, rfl, rfl⟩, ⟨rfl, rfl, rfl⟩, rfl⟩, rfl⟩, rfl⟩, rfl⟩ := made
    refine Gen.fills_dateBlock reads reserved declared fun bound => avoids _ bound ?_
    exact ⟨_, _, rfl, Nat.le_refl _, Nat.lt_succ_self _⟩
  · cases found
    exact Gen.fills_of_yields_pure reads reserved made rfl
  · cases found
    exact Gen.fills_of_yields_pure reads reserved made rfl
  · obtain ⟨t, legal, rfl⟩ := Option.map_eq_some_iff.1 found
    exact Gen.fills_of_yields_pure reads reserved made (Term.names_coerce? legal)
  · cases found

end Conversions

/-! ## Blocks of a node -/

/-- The block is scoped. After it the result holds a value, and the flag if flags are tracked. -/
structure Block.Settles (b : Block) (v : Flow) (nullCheck : Bool) (isNull result : Name) :
    Prop where
  valid : b.Scoped v
  result : result ∈ (b.after v).assigned
  flag : nullCheck = true → isNull ∈ (b.after v).assigned

/-- The code of operands comes before that of their node. -/
theorem Block.Settles.append {first rest : Block} {v : Flow} {nullCheck : Bool}
    {isNull result : Name} (valid : first.Scoped v)
    (settles : rest.Settles (first.after v) nullCheck isNull result) :
    (first ++ rest).Settles v nullCheck isNull result where
  valid := (Block.scoped_append _ _ _).2 ⟨valid, settles.valid⟩
  result := by
    rw [Block.after_append]
    exact settles.result
  flag := by
    rw [Block.after_append]
    exact settles.flag

/-- A flow inside of a node: the result is reserved, and nothing but the names of the node
has come into scope. -/
structure Flow.Inside (v v' : Flow) (n : Nat) : Prop where
  assigned : v.assigned ⊆ v'.assigned
  reserved : Name.result n ∈ v'.reserved
  bound : ∀ x ∈ v'.bound, x ∈ v.bound ∨ x.InRange n (n + 2)

/-- Inside of a node, later numbers are still vacant. -/
theorem Flow.Inside.avoids {v v' : Flow} {n k m : Nat} (inside : v.Inside v' n)
    (avoids : v.Avoids k m) (apart : n + 2 ≤ k) : v'.Avoids k m := by
  intro x bound late
  rcases inside.bound x bound with old | own
  · exact avoids x old late
  · exact own.ne late apart rfl

section Nodes

variable {s : Setting} {v : Flow} {n : Nat} (vacant : v.Avoids n (n + 2))

include vacant

theorem Flow.Avoids.flag_not_mem : Name.flag n ∉ v.bound :=
  fun bound => vacant _ bound (Name.flag_inRange n)

theorem Flow.Avoids.result_not_mem : Name.result n ∉ v.bound :=
  fun bound => vacant _ bound (Name.result_inRange n)

omit vacant in
/-- Without a guard, the result is reserved and nothing else. -/
theorem Flow.inside_reserve (v : Flow) (n : Nat) : v.Inside (v.reserve (.result n)) n := by
  refine ⟨List.Subset.refl _, List.mem_cons_self, fun x bound => ?_⟩
  simp only [Flow.mem_bound, Flow.mem_reserved_reserve, Flow.assigned_reserve] at bound
  rcases bound with old | rfl | old
  · exact .inl (by simp [old])
  · exact .inr (Name.result_inRange n)
  · exact .inl (by simp [old])

omit vacant in
/-- Under a guard, the flag has a value too. -/
theorem Flow.inside_guarded (v : Flow) (n : Nat) :
    v.Inside ((v.assign (.flag n)).reserve (.result n)) n := by
  refine ⟨List.subset_cons_self _ _, List.mem_cons_self, fun x bound => ?_⟩
  rcases (Flow.inside_reserve (v.assign (.flag n)) n).bound x bound with old | own
  · simp only [Flow.mem_bound, Flow.mem_assigned_assign, Flow.reserved_assign] at old
    rcases old with (rfl | old) | old
    · exact .inr (Name.flag_inRange n)
    · exact .inl (by simp [old])
    · exact .inl (by simp [old])
  · exact .inr own

/-- A literal settles both its names by declarations. -/
theorem Setting.settles_leaf {flag value : Term} {typeMark : Option Text}
    (readsFlag : flag.names ⊆ v.assigned) (reads : value.names ⊆ v.assigned) :
    Block.Settles (s.flag (.flag n) flag ++ [.declare (.result n) typeMark value]) v s.nullCheck
      (.flag n) (.result n) := by
  have newFlag := vacant.flag_not_mem
  have newResult := vacant.result_not_mem
  simp only [Flow.mem_bound, not_or] at newFlag newResult
  have reads' : value.names ⊆ (v.assign (.flag n)).assigned := List.subset_cons_of_subset _ reads
  unfold Setting.flag
  cases s.nullCheck with
  | true =>
    constructor <;> simp [Statement.Scoped, Statement.after, readsFlag, reads',
      newFlag, newResult]
  | false => constructor <;> simp [Statement.Scoped, Statement.after, reads, newResult]

/-- The code of a field binds its result first, and its flag reads it. -/
theorem Setting.settles_field {value : Term} {typeMark : Option Text}
    (reads : value.names ⊆ v.assigned) :
    Block.Settles ([.declare (.result n) typeMark value] ++
      s.flag (.flag n) (.binary .looseEq (.name (.result n)) .null)) v s.nullCheck (.flag n)
        (.result n) := by
  have newFlag := vacant.flag_not_mem
  have newResult := vacant.result_not_mem
  simp only [Flow.mem_bound, not_or] at newFlag newResult
  unfold Setting.flag
  cases s.nullCheck with
  | true =>
    constructor <;> simp [Statement.Scoped, Statement.after, Term.names, reads,
      newFlag, newResult]
  | false => constructor <;> simp [Statement.Scoped, Statement.after, reads, newResult]

variable {flag : Term} {absentType : Ty} (closed : (s.defaults absentType).names = [])

include closed

/-- Code under a guard settles: where it is skipped, the result is the term for an absent value.
-/
theorem Setting.settles_guarded {typeMark : Text} {body : Block}
    (readsFlag : flag.names ⊆ v.assigned)
    (fills : body.Fills (.result n) ((v.assign (.flag n)).reserve (.result n)))
    (nullCheck : Bool) :
    Block.Settles (s.guarded (.flag n) (.result n) typeMark flag absentType body) v nullCheck
      (.flag n) (.result n) := by
  have newFlag := vacant.flag_not_mem
  have newResult := vacant.result_not_mem
  simp only [Flow.mem_bound, not_or] at newFlag newResult
  have inside := Flow.inside_guarded v n
  have absent : Block.Fills [.assign (.result n) (s.defaults absentType)] (.result n)
      ((v.assign (.flag n)).reserve (.result n)) :=
    Block.fills_assign (closed ▸ List.nil_subset _) inside.reserved
  have branch := absent.branch fills (Term.names_name_subset List.mem_cons_self) inside.reserved
  have start : Block.Scoped [.declare (.flag n) none flag, .reserve (.result n) typeMark] v := by
    simp [Statement.Scoped, Statement.after, readsFlag, newFlag, newResult]
  have after : Block.after [.declare (.flag n) none flag, .reserve (.result n) typeMark] v =
      (v.assign (.flag n)).reserve (.result n) := by
    simp [Statement.after]
  have rest :
    Block.Settles [.branch (.name (.flag n)) [.assign (.result n) (s.defaults absentType)] body]
      (Block.after [.declare (.flag n) none flag, .reserve (.result n) typeMark] v) nullCheck
      (.flag n) (.result n) := by
    rw [after]
    exact ⟨branch.valid, branch.filled,
      fun _ => Block.assigned_subset_after _ _ List.mem_cons_self⟩
  exact .append start rest

/-- A block settles with or without a guard, if it fills the result inside of the node. -/
theorem Setting.settles_guardedBlock {guardedMark plainMark : Text} {body : Block}
    (readsFlag : s.nullCheck = true → flag.names ⊆ v.assigned)
    (fills : ∀ v', v.Inside v' n → body.Fills (.result n) v') :
    Block.Settles
      (s.guardedBlock (.flag n) (.result n) guardedMark plainMark flag absentType body) v
        s.nullCheck
      (.flag n) (.result n) := by
  unfold Setting.guardedBlock
  cases checked : s.nullCheck with
  | true =>
    exact Setting.settles_guarded vacant closed (readsFlag checked)
      (fills _ (Flow.inside_guarded v n)) _
  | false =>
    have inside : Block.Fills (.reserve (.result n) plainMark :: body) (.result n) v :=
      (fills _ (Flow.inside_reserve v n)).reserve vacant.result_not_mem
    exact ⟨inside.valid, inside.filled, fun impossible => Bool.noConfusion impossible⟩

/-- A value under a guard settles if the names it reads have values. -/
theorem Setting.settles_compute {typeMark : Text} {value : Term}
    (readsFlag : s.nullCheck = true → flag.names ⊆ v.assigned)
    (reads : value.names ⊆ v.assigned) :
    Block.Settles (s.compute (.flag n) (.result n) typeMark flag absentType value) v s.nullCheck
      (.flag n) (.result n) := by
  unfold Setting.compute
  cases checked : s.nullCheck with
  | true =>
    have inside := Flow.inside_guarded v n
    refine Setting.settles_guarded vacant closed (readsFlag checked) ?_ _
    exact Block.fills_assign (List.Subset.trans reads inside.assigned) inside.reserved
  | false =>
    have newResult := vacant.result_not_mem
    simp only [Flow.mem_bound, not_or] at newResult
    constructor <;> simp [Statement.Scoped, Statement.after, reads, newResult]

end Nodes

/-- A null test reads the flag of its operand or, if there is none, the result. -/
theorem Setting.settles_nullTest {s : Setting} {v : Flow} {n : Nat} {operand : Generated}
    {wanted : Bool} (vacant : v.Avoids n (n + 2)) (result : operand.result ∈ v.assigned)
    (flag : s.nullCheck = true → operand.isNull ∈ v.assigned) :
    Block.Settles (s.nullTest (.flag n) (.result n) operand wanted) v s.nullCheck (.flag n)
      (.result n) := by
  refine Setting.settles_leaf vacant (List.nil_subset _) ?_
  cases checked : s.nullCheck with
  | true => cases wanted <;> simpa [Term.names] using flag checked
  | false => cases wanted <;> simpa [Term.names] using result

/-! ## Trees -/

/-- The code of an expression is scoped, and fills its names. -/
abbrev Generated.Settles (g : Generated) (v : Flow) (nullCheck : Bool) : Prop :=
  g.code.Settles v nullCheck g.isNull g.result

/-- Numbers that generation has not taken for the expression are as vacant after its code as
before. -/
theorem Setting.Emits.avoids_after {s : Setting} {e : Expr} {n m k k' : Nat} {g : Generated}
    {ds : List Declaration} {v : Flow} (emits : s.Emits e n g m ds)
    (settles : g.Settles v s.nullCheck) (avoids : v.Avoids k k') (apart : k' ≤ n ∨ m ≤ k) :
    (g.code.after v).Avoids k k' :=
  avoids.after settles.valid emits.declared_fresh apart

/-- The names of a node stay out of scope in the code of its only operand. -/
theorem Setting.Emits.vacant_after {s : Setting} {e : Expr} {n m m' : Nat} {g : Generated}
    {ds : List Declaration} {v : Flow} (emits : s.Emits e (n + 2) g m ds)
    (settles : g.Settles v s.nullCheck) (avoids : v.Avoids n m') (grown : m ≤ m') :
    (g.code.after v).Avoids n (n + 2) := by
  have taken := emits.numbered.taken
  exact emits.avoids_after settles (avoids.mono (Nat.le_refl _) (by omega)) (.inl (Nat.le_refl _))

/-- The code of an expression settles, where the inputs and what it asks for have values and its
numbers are vacant. -/
theorem Setting.Emits.settles {s : Setting} (closed : ∀ type, (s.defaults type).names = [])
    {e : Expr} {n m : Nat} {g : Generated} {ds : List Declaration} (emits : s.Emits e n g m ds)
    {v : Flow} (supplies : v.Supplies s.inputs ds) (avoids : v.Avoids n m) :
    g.Settles v s.nullCheck := by
  induction emits generalizing v with
  | naming _ ih => exact ih supplies avoids
  | nullLiteral => exact settles_leaf avoids (List.nil_subset _) (List.nil_subset _)
  | literal _ found made =>
    obtain ⟨rfl, -⟩ := Literal.eval_term? found made
    have reads := List.Subset.trans (Literal.names_term? found made) supplies.declared
    exact settles_leaf avoids (List.nil_subset _) reads
  | field found =>
    obtain ⟨input, listed, names⟩ := Setting.names_fieldTerm? found
    refine settles_field avoids ?_
    rw [names]
    exact List.cons_subset.2 ⟨supplies.inputs input listed, List.nil_subset _⟩
  | @binary _ _ _ _ n l m ds r m' ds' emitsLeft emitsRight ihl ihr =>
    have taken := emitsLeft.numbered.taken
    have taken' := emitsRight.numbered.taken
    have left := ihl (supplies.mono (List.subset_append_left _ _) (List.Subset.refl _))
      (avoids.mono (by omega) (by omega))
    have right := ihr (supplies.after l.code (List.subset_append_right _ _))
      (emitsLeft.avoids_after left (avoids.mono (by omega) (Nat.le_refl _)) (by omega))
    have own : v.Avoids n (n + 2) := avoids.mono (Nat.le_refl _) (by omega)
    have vacant :=
      emitsRight.avoids_after right (emitsLeft.avoids_after left own (by omega)) (by omega)
    have kept := Block.assigned_subset_after r.code (l.code.after v)
    rw [List.append_assoc]
    refine .append left.valid (.append right.valid ?_)
    refine settles_compute vacant (closed _) (fun checked => ?_) ?_
    · exact List.cons_subset.2
        ⟨kept (left.flag checked), List.cons_subset.2 ⟨right.flag checked, List.nil_subset _⟩⟩
    · rw [BinaryOp.names_term]
      exact List.cons_subset.2
        ⟨kept left.result, List.cons_subset.2 ⟨right.result, List.nil_subset _⟩⟩
  | unary emits ih =>
    have operand := ih supplies (avoids.mono (by omega) (Nat.le_refl _))
    have vacant := emits.vacant_after operand avoids (Nat.le_refl _)
    refine .append operand.valid (settles_compute vacant (closed _) (fun checked => ?_) ?_)
    · exact Term.names_name_subset (operand.flag checked)
    · rw [UnaryOp.names_term]
      exact Term.names_name_subset operand.result
  | isNull emits ih | isNotNull emits ih =>
    have operand := ih supplies (avoids.mono (by omega) (Nat.le_refl _))
    have vacant := emits.vacant_after operand avoids (Nat.le_refl _)
    exact .append operand.valid (settles_nullTest vacant operand.result operand.flag)
  | @cast _ _ n c m ds _ _ m' ds' _ emits found made ih =>
    have taken := emits.numbered.taken
    have grown := (Gen.converts_of_conversion? found made).targets.1
    have operand := ih (supplies.mono (List.subset_append_left _ _) (List.Subset.refl _))
      (avoids.mono (by omega) grown)
    have vacant := emits.vacant_after operand avoids grown
    have later :=
      emits.avoids_after operand (avoids.mono (by omega) (Nat.le_refl _)) (.inr (Nat.le_refl m))
    have supplied := supplies.after c.code (List.subset_append_right ds ds')
    refine .append operand.valid
      (settles_guardedBlock vacant (closed _) (fun checked => ?_) fun v' inside => ?_)
    · exact Term.names_name_subset (operand.flag checked)
    · have reads := Term.names_name_subset (inside.assigned operand.result)
      exact Gen.fills_conversion reads inside.reserved found made
        (List.Subset.trans supplied.declared inside.assigned) (inside.avoids later (by omega))
  | @substring _ _ _ _ n a m ds b m' ds' c m'' ds'' emitsStr emitsStart emitsStop iha ihb ihc =>
    have taken := emitsStr.numbered.taken
    have taken' := emitsStart.numbered.taken
    have taken'' := emitsStop.numbered.taken
    have str := iha (supplies.mono (List.subset_append_left _ _) (List.Subset.refl _))
      (avoids.mono (by omega) (by omega))
    have supplied := supplies.after a.code (List.subset_append_right ds (ds' ++ ds''))
    have start := ihb (supplied.mono (List.subset_append_left _ _) (List.Subset.refl _))
      (emitsStr.avoids_after str (avoids.mono (by omega) (by omega)) (by omega))
    have stop := ihc (supplied.after b.code (List.subset_append_right _ _))
      (emitsStart.avoids_after start
        (emitsStr.avoids_after str (avoids.mono (by omega) (Nat.le_refl _)) (by omega))
          (by omega))
    have own : v.Avoids n (n + 2) := avoids.mono (Nat.le_refl _) (by omega)
    have vacant := emitsStop.avoids_after stop
      (emitsStart.avoids_after start (emitsStr.avoids_after str own (by omega)) (by omega))
        (by omega)
    have kept := Block.assigned_subset_after c.code (b.code.after (a.code.after v))
    have kept' := List.Subset.trans (Block.assigned_subset_after b.code (a.code.after v)) kept
    rw [List.append_assoc, List.append_assoc]
    refine .append str.valid (.append start.valid (.append stop.valid ?_))
    refine settles_guardedBlock vacant (closed _) (fun checked => ?_) fun v' inside => ?_
    · exact List.cons_subset.2
        ⟨kept' (str.flag checked), List.cons_subset.2 ⟨kept (start.flag checked),
          List.cons_subset.2 ⟨stop.flag checked, List.nil_subset _⟩⟩⟩
    · refine Setting.fills_substringBlock _ (List.Subset.trans ?_ inside.assigned) inside.reserved
      exact List.cons_subset.2 ⟨kept' str.result, List.cons_subset.2 ⟨kept start.result,
        List.cons_subset.2 ⟨stop.result, List.nil_subset _⟩⟩⟩

end RowExpr
