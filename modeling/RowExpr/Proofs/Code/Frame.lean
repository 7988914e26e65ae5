import RowExpr.Code.Execution

/-!
What execution leaves alone.

`Block.targets` collects the names that a block can bind. A run of the block
changes no other name and no formatter at all (`Block.run_keeps`), so the names of
finished code can be read after any code that follows it.
-/

namespace RowExpr

/-! ## Scopes -/

@[simp] theorem Scope.get_bind_self (σ : Scope) (x : Name) (v : Value) :
    (σ.bind x v).get x = .ok v := by
  simp [get, bind]

theorem Scope.get_bind_of_ne (σ : Scope) {x y : Name} (v : Value) (ne : y ≠ x) :
    (σ.bind x v).get y = σ.get y := by
  have other : (y == x) = false := beq_eq_false_iff_ne.2 ne
  simp only [get, bind, List.lookup_cons, other]

/-- Formatters are found by their table only, whatever the values are. -/
theorem Scope.getFormatter_congr {σ σ' : Scope} (same : σ'.formatters = σ.formatters) (x : Name) :
    σ'.getFormatter x = σ.getFormatter x := by
  rw [getFormatter, getFormatter, same]

/-! ## Sequences of statements -/

theorem Block.run_nil [TimeZones] (σ : Scope) : Block.run [] σ = .ok σ := by
  rw [Block.run]
  rfl

theorem Block.run_cons [TimeZones] (statement : Statement) (rest : Block) (σ : Scope) :
    Block.run (statement :: rest) σ = (do let σ' ← statement.run σ; Block.run rest σ') := by
  rw [Block.run]

/-- A block goes on where the part before it has ended. -/
theorem Block.run_append [TimeZones] (first rest : Block) (σ : Scope) :
    Block.run (first ++ rest) σ = (do let σ' ← Block.run first σ; Block.run rest σ') := by
  induction first generalizing σ with
  | nil => rw [List.nil_append, run_nil]; rfl
  | cons statement first ih =>
    rw [List.cons_append, run_cons, run_cons]
    cases statement.run σ with
    | error f => rfl
    | ok σ' => exact ih σ'

theorem Block.run_singleton [TimeZones] (statement : Statement) (σ : Scope) :
    Block.run [statement] σ = statement.run σ := by
  rw [run_cons]
  cases statement.run σ with
  | error f => rfl
  | ok σ' => exact run_nil σ'

/-! ## Single statements -/

section Statements

variable {σ : Scope} {x : Name} {t : Term} {v : Value}

/-- A declaration binds the value of its term. -/
theorem Block.run_declare [TimeZones] (typeMark : Option Text) (rest : Block)
    (value : t.eval σ = .ok v) :
    Block.run (.declare x typeMark t :: rest) σ = Block.run rest (σ.bind x v) := by
  rw [run_cons, Statement.run, value]
  rfl

/-- A name that is reserved is undefined until it is assigned. -/
theorem Block.run_reserve [TimeZones] (x : Name) (typeMark : Text) (rest : Block) (σ : Scope) :
    Block.run (.reserve x typeMark :: rest) σ = Block.run rest (σ.bind x .undefined) := by
  rw [run_cons, Statement.run]
  rfl

/-- An assignment binds the value of its term, as a declaration does. -/
theorem Block.run_assign [TimeZones] (rest : Block) (value : t.eval σ = .ok v) :
    Block.run (.assign x t :: rest) σ = Block.run rest (σ.bind x v) := by
  rw [run_cons, Statement.run, value]
  rfl

/-- A branch runs one of its blocks, by whether the test counts as true. -/
theorem Statement.run_branch [TimeZones] (yes no : Block) (value : t.eval σ = .ok v) :
    (Statement.branch t yes no).run σ = Block.run (if v.truthy then yes else no) σ := by
  rw [Statement.run, value]
  cases truth : v.truthy <;> simp [truth, bind, Except.bind]

end Statements

/-! ## Names that a block can bind -/

mutual

/-- The names that a statement can bind, on any path through it. -/
def Statement.targets : Statement → List Name
  | .declare x _ _ => [x]
  | .reserve x _ => [x]
  | .assign x _ => [x]
  | .branch _ yes no => Block.targets yes ++ Block.targets no
  | .attempt x _ otherwise => x :: Block.targets otherwise

/-- The names that a block can bind, on any path through it. -/
def Block.targets : Block → List Name
  | [] => []
  | statement :: rest => statement.targets ++ Block.targets rest

end

@[simp] theorem Block.targets_nil : Block.targets [] = [] := by
  rw [Block.targets]

@[simp] theorem Block.targets_cons (statement : Statement) (rest : Block) :
    Block.targets (statement :: rest) = statement.targets ++ Block.targets rest := by
  rw [Block.targets]

@[simp] theorem Block.targets_append (first rest : Block) :
    Block.targets (first ++ rest) = Block.targets first ++ Block.targets rest := by
  induction first with
  | nil => rw [targets_nil, List.nil_append, List.nil_append]
  | cons statement first ih =>
    rw [List.cons_append, targets_cons, targets_cons, ih, List.append_assoc]

/-- What a run from one scope to another keeps: the formatters, and every name outside `bound`. -/
structure Scope.Keeps (bound : List Name) (σ σ' : Scope) : Prop where
  formatters : σ'.formatters = σ.formatters
  get : ∀ x, x ∉ bound → σ'.get x = σ.get x

theorem Scope.Keeps.refl (bound : List Name) (σ : Scope) : Scope.Keeps bound σ σ :=
  ⟨rfl, fun _ _ => rfl⟩

/-- What neither of two runs binds, both together keep. -/
theorem Scope.Keeps.trans {first rest : List Name} {σ σ' σ'' : Scope}
    (left : Scope.Keeps first σ σ') (right : Scope.Keeps rest σ' σ'') :
    Scope.Keeps (first ++ rest) σ σ'' := by
  refine ⟨right.formatters.trans left.formatters, fun x outside => ?_⟩
  rw [List.mem_append, not_or] at outside
  exact (right.get x outside.2).trans (left.get x outside.1)

theorem Scope.Keeps.mono {bound more : List Name} {σ σ' : Scope} (keeps : Scope.Keeps bound σ σ')
    (sub : bound ⊆ more) : Scope.Keeps more σ σ' :=
  ⟨keeps.formatters, fun x outside => keeps.get x fun inside => outside (sub inside)⟩

/-- Binding one name keeps all others. -/
theorem Scope.Keeps.bind (σ : Scope) (x : Name) (v : Value) : Scope.Keeps [x] σ (σ.bind x v) :=
  ⟨rfl, fun _ outside => σ.get_bind_of_ne v (List.ne_of_not_mem_cons outside)⟩

/-! ## Frame -/

/-- A step of a computation that succeeded. -/
theorem of_bind_eq_ok {ε α β : Type} {m : Except ε α} {f : α → Except ε β} {b : β}
    (ran : (do let a ← m; f a) = .ok b) : ∃ a, m = .ok a ∧ f a = .ok b := by
  cases m with
  | error e => cases ran
  | ok a => exact ⟨a, rfl, ran⟩

mutual

/-- A statement keeps every name that it does not bind, and all formatters. -/
theorem Statement.run_keeps [TimeZones] {statement : Statement} {σ σ' : Scope}
    (ran : statement.run σ = .ok σ') : Scope.Keeps statement.targets σ σ' := by
  cases statement with
  | declare x type value =>
    rw [Statement.run] at ran
    obtain ⟨v, -, bound⟩ := of_bind_eq_ok ran
    cases bound
    rw [Statement.targets]
    exact .bind σ x v
  | reserve x type =>
    rw [Statement.run] at ran
    cases ran
    rw [Statement.targets]
    exact .bind σ x .undefined
  | assign x value =>
    rw [Statement.run] at ran
    obtain ⟨v, -, bound⟩ := of_bind_eq_ok ran
    cases bound
    rw [Statement.targets]
    exact .bind σ x v
  | branch test yes no =>
    rw [Statement.run] at ran
    obtain ⟨v, -, taken⟩ := of_bind_eq_ok ran
    rw [Statement.targets]
    split at taken
    · exact (Block.run_keeps taken).mono (List.subset_append_left _ _)
    · exact (Block.run_keeps taken).mono (List.subset_append_right _ _)
  | attempt x value otherwise =>
    rw [Statement.run] at ran
    rw [Statement.targets]
    split at ran
    · cases ran
      exact (Scope.Keeps.bind σ x _).mono (List.cons_subset_cons x (List.nil_subset _))
    · exact (Block.run_keeps ran).mono (List.subset_cons_self _ _)

/-- A run of a block changes nothing but the names that the block can bind. -/
theorem Block.run_keeps [TimeZones] {b : Block} {σ σ' : Scope} (ran : Block.run b σ = .ok σ') :
    Scope.Keeps b.targets σ σ' := by
  cases b with
  | nil =>
    rw [Block.run_nil] at ran
    cases ran
    exact .refl _ σ
  | cons statement rest =>
    rw [Block.run_cons] at ran
    obtain ⟨middle, first, second⟩ := of_bind_eq_ok ran
    rw [Block.targets_cons]
    exact (Statement.run_keeps first).trans (Block.run_keeps second)

end

end RowExpr
