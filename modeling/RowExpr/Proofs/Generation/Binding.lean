import RowExpr.Proofs.Code.Identifier
import RowExpr.Proofs.Generation.Numbering

/-!
The names that generated code declares.

Every declaration in the code of an expression has a name of its own, also in branches
and handlers: names are numbered, and no number is used twice. The stems are those of
flags, results and dates that are read; without null checks no flag is declared
(`Setting.Emits.declared_fresh`).
-/

namespace RowExpr

/-! ## Declared names -/

mutual

/-- The names that a statement declares, inside of it too. -/
def Statement.declared : Statement → List Name
  | .declare x _ _ => [x]
  | .reserve x _ => [x]
  | .assign _ _ => []
  | .branch _ yes no => Block.declared yes ++ Block.declared no
  | .attempt _ _ otherwise => Block.declared otherwise

/-- The names that a block declares, inside of its statements too. -/
def Block.declared : Block → List Name
  | [] => []
  | statement :: rest => statement.declared ++ Block.declared rest

end

@[simp] theorem Block.declared_nil : Block.declared [] = [] := by
  rw [Block.declared]

@[simp] theorem Block.declared_cons (statement : Statement) (rest : Block) :
    Block.declared (statement :: rest) = statement.declared ++ Block.declared rest := by
  rw [Block.declared]

/-- A block declares what its parts declare, in their order. -/
@[simp] theorem Block.declared_append (first rest : Block) :
    Block.declared (first ++ rest) = Block.declared first ++ Block.declared rest := by
  induction first with
  | nil => simp
  | cons statement first ih => simp [ih]

/-! ## Lists of numbered names -/

/-- Different numbered names, with these stems and with numbers from `n` up to `m`. -/
structure Name.AllFresh (stems : List Text) (n m : Nat) (xs : List Name) : Prop where
  nodup : xs.Nodup
  numbered : ∀ x ∈ xs, ∃ stem k, x = .fresh stem k ∧ stem ∈ stems ∧ n ≤ k ∧ k < m

section AllFresh

variable {stems : List Text} {n k m : Nat} {xs ys : List Name}

theorem Name.allFresh_nil (stems : List Text) (n m : Nat) : Name.AllFresh stems n m [] :=
  ⟨List.nodup_nil, fun _ listed => absurd listed List.not_mem_nil⟩

theorem Name.allFresh_singleton {stem : Text} (listed : stem ∈ stems) (low : n ≤ k)
    (high : k < m) : Name.AllFresh stems n m [.fresh stem k] := by
  refine ⟨List.pairwise_singleton _ _, fun x inside => ?_⟩
  exact ⟨stem, k, List.mem_singleton.1 inside, listed, low, high⟩

/-- Fresh names are told from others by their numbers alone. -/
theorem Name.AllFresh.inRange (fresh : Name.AllFresh stems n m xs) : ∀ x ∈ xs, x.InRange n m := by
  intro x listed
  obtain ⟨stem, k, same, -, low, high⟩ := fresh.numbered x listed
  exact ⟨stem, k, same, low, high⟩

/-- Where no flags are declared, no name is one. -/
theorem Name.AllFresh.flag_not_mem (fresh : Name.AllFresh stems n m xs)
    (unused : ("isNull" : Text) ∉ stems) (k : Nat) : Name.flag k ∉ xs := by
  intro listed
  obtain ⟨stem, k', same, known, -⟩ := fresh.numbered _ listed
  injection same with same
  exact unused (same ▸ known)

theorem Name.AllFresh.mono {n' m' : Nat} (fresh : Name.AllFresh stems n m xs) (low : n' ≤ n)
    (high : m ≤ m') : Name.AllFresh stems n' m' xs := by
  refine ⟨fresh.nodup, fun x listed => ?_⟩
  obtain ⟨stem, k, same, known, above, below⟩ := fresh.numbered x listed
  exact ⟨stem, k, same, known, Nat.le_trans low above, Nat.lt_of_lt_of_le below high⟩

/-- In which order names are declared does not matter. -/
theorem Name.AllFresh.perm (fresh : Name.AllFresh stems n m xs) (perm : ys.Perm xs) :
    Name.AllFresh stems n m ys :=
  ⟨perm.nodup_iff.2 fresh.nodup, fun x listed => fresh.numbered x (perm.mem_iff.1 listed)⟩

/-- Names with lower numbers, then names with higher ones. -/
theorem Name.AllFresh.append (lower : Name.AllFresh stems n k xs)
    (higher : Name.AllFresh stems k m ys) (low : n ≤ k) (high : k ≤ m) :
    Name.AllFresh stems n m (xs ++ ys) := by
  refine ⟨?_, fun x listed => ?_⟩
  · rw [List.nodup_append]
    refine ⟨lower.nodup, higher.nodup, fun x left y right => ?_⟩
    exact (lower.inRange x left).ne (higher.inRange y right) (Nat.le_refl k)
  · rcases List.mem_append.1 listed with listed | listed
    · exact (lower.mono (Nat.le_refl n) high).numbered x listed
    · exact (higher.mono low (Nat.le_refl m)).numbered x listed

end AllFresh

/-! ## Names of a node -/

/-- The stems of the names that code declares. -/
def Setting.stems (s : Setting) : List Text :=
  if s.nullCheck then Name.stems else ["result", "parsed"]

/-- Without flags, there are fewer stems. -/
theorem Setting.stems_subset (s : Setting) : s.stems ⊆ Name.stems := by
  unfold Setting.stems
  split
  · exact List.Subset.refl _
  · exact List.subset_cons_self _ _

/-- Without null checks, the stem of flags is not in use. -/
theorem Setting.isNull_not_mem_stems {s : Setting} (unchecked : s.nullCheck = false) :
    ("isNull" : Text) ∉ s.stems := by
  rw [Setting.stems, unchecked]
  decide

/-- The names that a node declares for itself. -/
def Setting.ownNames (s : Setting) (n : Nat) : List Name :=
  if s.nullCheck then [.flag n, .result n] else [.result n]

section Nodes

variable (s : Setting) (n : Nat)

theorem Setting.result_mem_stems : ("result" : Text) ∈ s.stems := by
  unfold Setting.stems
  split <;> simp [Name.stems]

theorem Setting.parsed_mem_stems : ("parsed" : Text) ∈ s.stems := by
  unfold Setting.stems
  split <;> simp [Name.stems]

/-- A node numbers its two names with the first numbers it takes. -/
theorem Setting.ownNames_fresh : Name.AllFresh s.stems n (n + 2) (s.ownNames n) := by
  have value : Name.AllFresh s.stems (n + 1) (n + 2) [.result n] :=
    Name.allFresh_singleton s.result_mem_stems (Nat.le_refl _) (Nat.lt_succ_self _)
  unfold Setting.ownNames
  split
  · next checked =>
    have known : ("isNull" : Text) ∈ s.stems := by simp [Setting.stems, Name.stems, checked]
    have flag : Name.AllFresh s.stems n (n + 1) [.flag n] :=
      Name.allFresh_singleton known (Nat.le_refl _) (Nat.lt_succ_self _)
    exact flag.append value (Nat.le_succ _) (Nat.le_succ _)
  · exact value.mono (Nat.le_succ _) (Nat.le_refl _)

/-- A literal declares its flag and its result. -/
theorem Setting.declared_leaf (flag value : Term) (typeMark : Option Text) :
    Block.declared (s.flag (.flag n) flag ++ [.declare (.result n) typeMark value]) =
      s.ownNames n := by
  unfold Setting.flag Setting.ownNames
  split <;> simp [Statement.declared]

/-- The code of a field binds its result before its flag. -/
theorem Setting.declared_field (flag value : Term) (typeMark : Option Text) :
    (Block.declared ([.declare (.result n) typeMark value] ++ s.flag (.flag n) flag)).Perm
      (s.ownNames n) := by
  unfold Setting.flag Setting.ownNames
  split
  · simpa [Statement.declared] using List.Perm.swap _ _ _
  · simp [Statement.declared]

/-- A value under a guard is declared or reserved, once in either case. -/
theorem Setting.declared_compute (typeMark : Text) (flag : Term) (absentType : Ty)
    (value : Term) :
    (s.compute (.flag n) (.result n) typeMark flag absentType value).declared = s.ownNames n := by
  unfold Setting.compute Setting.ownNames
  split <;> simp [Setting.guarded, Statement.declared]

theorem Setting.declared_nullTest (operand : Generated) (wanted : Bool) :
    (s.nullTest (.flag n) (.result n) operand wanted).declared = s.ownNames n :=
  s.declared_leaf n _ _ _

/-- A block under a guard may declare names of its own. -/
theorem Setting.declared_guardedBlock (guardedMark plainMark : Text) (flag : Term)
    (absentType : Ty) (body : Block) :
    (s.guardedBlock (.flag n) (.result n) guardedMark plainMark flag absentType body).declared =
      s.ownNames n ++ body.declared := by
  unfold Setting.guardedBlock Setting.ownNames
  split <;> simp [Setting.guarded, Statement.declared]

end Nodes

/-- The block of a substring only assigns. -/
theorem Setting.declared_substringBlock (result : Name) (str start stop : Term)
    (literalEnd : Option Literal) :
    (Setting.substringBlock result str start stop literalEnd).declared = [] := by
  unfold Setting.substringBlock
  split
  · split <;> simp [Statement.declared]
  · simp [Statement.declared]

/-- A cast declares at most the name of a date that it reads. -/
theorem Gen.Converts.declared_fresh {result : Name} {value : Term} {source target : Ty}
    {n m : Nat} {block : Block} {ds : List Declaration}
    (converts : Gen.Converts result value source target n block m ds) (s : Setting) :
    Name.AllFresh s.stems n m block.declared := by
  cases converts with
  | term _ => simpa [Statement.declared] using Name.allFresh_nil _ _ _
  | date _ _ =>
    have parsed := Name.allFresh_singleton s.parsed_mem_stems (Nat.le_refl n) (Nat.lt_succ_self n)
    simpa [Gen.dateBlock, Statement.declared] using parsed

/-! ## Trees -/

/-- Operands declare names with numbers after those of their node. -/
theorem Setting.own_after {s : Setting} {n m : Nat} {xs : List Name}
    (operands : Name.AllFresh s.stems (n + 2) m xs) (taken : n + 2 ≤ m) :
    Name.AllFresh s.stems n m (xs ++ s.ownNames n) :=
  ((s.ownNames_fresh n).append operands (by omega) taken).perm List.perm_append_comm

/-- The code of an expression declares each name once, with numbers that generation has taken for
it. By induction on the derivation: operands have the numbers after those of their node. -/
theorem Setting.Emits.declared_fresh {s : Setting} {e : Expr} {n m : Nat} {g : Generated}
    {ds : List Declaration} (emits : s.Emits e n g m ds) :
    Name.AllFresh s.stems n m g.code.declared := by
  induction emits with
  | naming _ ih => exact ih
  | @nullLiteral _ n =>
    rw [s.declared_leaf n]
    exact s.ownNames_fresh n
  | @literal _ _ n _ _ _ _ _ found made =>
    obtain ⟨rfl, -⟩ := Literal.eval_term? found made
    rw [s.declared_leaf n]
    exact s.ownNames_fresh n
  | @field _ _ n _ _ => exact (s.ownNames_fresh n).perm (s.declared_field n _ _ _)
  | binary emitsLeft emitsRight ihl ihr =>
    have taken := emitsLeft.numbered.taken
    have taken' := emitsRight.numbered.taken
    rw [Block.declared_append, Block.declared_append, s.declared_compute]
    exact Setting.own_after (ihl.append ihr (by omega) (by omega)) (by omega)
  | unary emits ih =>
    have taken := emits.numbered.taken
    rw [Block.declared_append, s.declared_compute]
    exact Setting.own_after ih (by omega)
  | isNull emits ih | isNotNull emits ih =>
    have taken := emits.numbered.taken
    rw [Block.declared_append, s.declared_nullTest]
    exact Setting.own_after ih (by omega)
  | cast _ emits found made ih =>
    have taken := emits.numbered.taken
    have converts := Gen.converts_of_conversion? found made
    rw [Block.declared_append, s.declared_guardedBlock, ← List.append_assoc]
    exact (Setting.own_after ih (by omega)).append (converts.declared_fresh s)
      (by omega) converts.targets.1
  | substring emitsStr emitsStart emitsStop iha ihb ihc =>
    have taken := emitsStr.numbered.taken
    have taken' := emitsStart.numbered.taken
    have taken'' := emitsStop.numbered.taken
    rw [Block.declared_append, Block.declared_append, Block.declared_append,
      s.declared_guardedBlock, Setting.declared_substringBlock, List.append_nil]
    have operands := (iha.append ihb (by omega) (by omega)).append ihc (by omega) (by omega)
    exact Setting.own_after operands (by omega)

end RowExpr
