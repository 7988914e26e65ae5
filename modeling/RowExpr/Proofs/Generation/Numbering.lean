import RowExpr.Proofs.Generation.Conversion

/-!
The names that generated code binds.

Generation takes numbers from a supply that only grows. The code of an expression
that was generated after `n` names and left `m` taken binds numbered names only,
with numbers from `n` up to `m` (`Setting.Emits.numbered`). So the code of one
expression leaves the names of another alone, and none of it touches an input or a
declaration.
-/

namespace RowExpr

/-- A numbered name whose number lies between `n` and `m`. -/
def Name.InRange (n m : Nat) (x : Name) : Prop := ∃ stem k, x = .fresh stem k ∧ n ≤ k ∧ k < m

theorem Name.InRange.mono {n m n' m' : Nat} {x : Name} (inside : x.InRange n m) (low : n' ≤ n)
    (high : m ≤ m') : x.InRange n' m' := by
  obtain ⟨stem, k, rfl, above, below⟩ := inside
  exact ⟨stem, k, rfl, Nat.le_trans low above, Nat.lt_of_lt_of_le below high⟩

/-- Names from two ranges that do not meet differ. -/
theorem Name.InRange.ne {n m n' m' : Nat} {x y : Name} (left : x.InRange n m)
    (right : y.InRange n' m') (apart : m ≤ n') : x ≠ y := by
  obtain ⟨stem, k, rfl, -, below⟩ := left
  obtain ⟨stem', k', rfl, above, -⟩ := right
  intro same
  injection same with _ number
  omega

theorem Name.flag_inRange (n : Nat) : (Name.flag n).InRange n (n + 2) :=
  ⟨_, n, rfl, Nat.le_refl n, by omega⟩

theorem Name.result_inRange (n : Nat) : (Name.result n).InRange n (n + 2) :=
  ⟨_, n + 1, rfl, by omega, by omega⟩

/-- Code that was generated after `n` names and left `m` taken. -/
structure Generated.Numbered (g : Generated) (n m : Nat) : Prop where
  taken : n + 2 ≤ m
  isNull : g.isNull = .flag n
  result : g.result = .result n
  targets : ∀ x ∈ g.code.targets, x.InRange n m

/-- The value of an expression is one of the names that were taken for it. -/
theorem Generated.Numbered.result_inRange {g : Generated} {n m : Nat}
    (numbered : g.Numbered n m) : g.result.InRange n m := by
  rw [numbered.result]
  exact (Name.result_inRange n).mono (Nat.le_refl n) numbered.taken

theorem Generated.Numbered.isNull_inRange {g : Generated} {n m : Nat}
    (numbered : g.Numbered n m) : g.isNull.InRange n m := by
  rw [numbered.isNull]
  exact (Name.flag_inRange n).mono (Nat.le_refl n) numbered.taken

/-! ## Targets of the blocks of a node -/

section Targets

variable {s : Setting} {isNull result x : Name}

theorem Setting.mem_targets_flag {t : Term} (bound : x ∈ (s.flag isNull t).targets) :
    x = isNull := by
  unfold Setting.flag at bound
  split at bound
  · simpa [Statement.targets] using bound
  · simp at bound

/-- A guard binds the flag and the result, and what the guarded code binds. -/
theorem Setting.mem_targets_guarded {typeMark : Text} {flag : Term} {absentType : Ty}
    {compute : Block}
    (bound : x ∈ (s.guarded isNull result typeMark flag absentType compute).targets) :
    x = isNull ∨ x = result ∨ x ∈ compute.targets := by
  simp only [Setting.guarded, Block.targets_cons, Block.targets_nil, Statement.targets,
    List.mem_append, List.mem_singleton, List.not_mem_nil, or_false] at bound
  rcases bound with same | same | same | inside
  · exact .inl same
  · exact .inr (.inl same)
  · exact .inr (.inl same)
  · exact .inr (.inr inside)

/-- A value under a guard binds nothing else. -/
theorem Setting.mem_targets_compute {typeMark : Text} {flag value : Term} {absentType : Ty}
    (bound : x ∈ (s.compute isNull result typeMark flag absentType value).targets) :
    x = isNull ∨ x = result := by
  unfold Setting.compute at bound
  split at bound
  · rcases mem_targets_guarded bound with rfl | rfl | bound
    · exact .inl rfl
    · exact .inr rfl
    · exact .inr (by simpa [Statement.targets] using bound)
  · exact .inr (by simpa [Statement.targets] using bound)

/-- With or without a guard, a block binds the names of its node and its own. -/
theorem Setting.mem_targets_guardedBlock {guardedMark plainMark : Text} {flag : Term}
    {absentType : Ty} {body : Block}
    (bound :
      x ∈ (s.guardedBlock isNull result guardedMark plainMark flag absentType body).targets) :
    x = isNull ∨ x = result ∨ x ∈ body.targets := by
  unfold Setting.guardedBlock at bound
  split at bound
  · exact mem_targets_guarded bound
  · exact .inr (by simpa [Statement.targets] using bound)

theorem Setting.mem_targets_nullTest {operand : Generated} {wanted : Bool}
    (bound : x ∈ (s.nullTest isNull result operand wanted).targets) :
    x = isNull ∨ x = result := by
  simp only [Setting.nullTest, Block.targets_append, List.mem_append] at bound
  rcases bound with bound | bound
  · exact .inl (mem_targets_flag bound)
  · exact .inr (by simpa [Statement.targets] using bound)

theorem Setting.mem_targets_substringBlock {str start stop : Term} {literalEnd : Option Literal}
    (bound : x ∈ (Setting.substringBlock result str start stop literalEnd).targets) :
    x = result := by
  unfold Setting.substringBlock at bound
  split at bound
  · split at bound <;> simpa [Statement.targets] using bound
  · simpa [Statement.targets] using bound

theorem Setting.mem_targets_substring {guardedMark plainMark : Text}
    {flag str start stop : Term} {absentType : Ty} {literalEnd : Option Literal}
    (bound :
      x ∈
        (s.guardedBlock isNull result guardedMark plainMark flag absentType
          (Setting.substringBlock result str start stop literalEnd)).targets) :
    x = isNull ∨ x = result := by
  rcases mem_targets_guardedBlock bound with same | same | bound
  · exact .inl same
  · exact .inr same
  · exact .inr (mem_targets_substringBlock bound)

end Targets

/-! ## Numbers of generated code -/

/-- A node takes two names for itself; the rest of its code may use those after them. -/
theorem Generated.numbered_node {code : Block} {n m : Nat} (taken : n + 2 ≤ m)
    (targets : ∀ x ∈ code.targets, x = .flag n ∨ x = .result n ∨ x.InRange (n + 2) m) :
    Generated.Numbered ⟨code, .result n, .flag n⟩ n m := by
  refine ⟨taken, rfl, rfl, fun x bound => ?_⟩
  rcases targets x bound with rfl | rfl | inside
  · exact (Name.flag_inRange n).mono (Nat.le_refl n) taken
  · exact (Name.result_inRange n).mono (Nat.le_refl n) taken
  · exact inside.mono (by omega) (Nat.le_refl m)

/-- A node with one operand, which binds nothing but its own names after the code of the
operand. -/
theorem Generated.Numbered.node {c : Generated} {block : Block} {n m : Nat}
    (numbered : c.Numbered (n + 2) m)
    (targets : ∀ x ∈ block.targets, x = .flag n ∨ x = .result n) :
    Generated.Numbered ⟨c.code ++ block, .result n, .flag n⟩ n m := by
  have taken := numbered.taken
  refine Generated.numbered_node (by omega) fun x bound => ?_
  rw [Block.targets_append, List.mem_append] at bound
  rcases bound with bound | bound
  · exact .inr (.inr (numbered.targets x bound))
  · exact (targets x bound).imp id .inl

/-- The code of an expression binds numbered names only, with the numbers that generation has
taken for it. -/
theorem Setting.Emits.numbered {s : Setting} {e : Expr} {n m : Nat} {g : Generated}
    {ds : List Declaration} (emits : s.Emits e n g m ds) : g.Numbered n m := by
  induction emits with
  | naming _ ih => exact ih
  | nullLiteral =>
    refine Generated.numbered_node (Nat.le_refl _) fun x bound => ?_
    rw [Block.targets_append, List.mem_append] at bound
    rcases bound with bound | bound
    · exact .inl (mem_targets_flag bound)
    · exact .inr (.inl (by simpa [Statement.targets] using bound))
  | literal _ found made =>
    obtain ⟨rfl, -⟩ := Literal.eval_term? found made
    refine Generated.numbered_node (Nat.le_refl _) fun x bound => ?_
    rw [Block.targets_append, List.mem_append] at bound
    rcases bound with bound | bound
    · exact .inl (mem_targets_flag bound)
    · exact .inr (.inl (by simpa [Statement.targets] using bound))
  | field found =>
    refine Generated.numbered_node (Nat.le_refl _) fun x bound => ?_
    rw [Block.targets_append, List.mem_append] at bound
    rcases bound with bound | bound
    · exact .inr (.inl (by simpa [Statement.targets] using bound))
    · exact .inl (mem_targets_flag bound)
  | binary _ _ ihl ihr =>
    have taken := ihl.taken
    have taken' := ihr.taken
    refine Generated.numbered_node (by omega) fun x bound => ?_
    rw [Block.targets_append, Block.targets_append, List.mem_append, List.mem_append] at bound
    rcases bound with (bound | bound) | bound
    · exact .inr (.inr ((ihl.targets x bound).mono (Nat.le_refl _) (by omega)))
    · exact .inr (.inr ((ihr.targets x bound).mono (by omega) (Nat.le_refl _)))
    · exact (mem_targets_compute bound).imp id .inl
  | unary _ ih => exact ih.node fun x bound => mem_targets_compute bound
  | isNull _ ih => exact ih.node fun x bound => mem_targets_nullTest bound
  | isNotNull _ ih => exact ih.node fun x bound => mem_targets_nullTest bound
  | cast _ _ found made ih =>
    have taken := ih.taken
    obtain ⟨grown, targets⟩ := (Gen.converts_of_conversion? found made).targets
    refine Generated.numbered_node (by omega) fun x bound => ?_
    rw [Block.targets_append, List.mem_append] at bound
    rcases bound with bound | bound
    · exact .inr (.inr ((ih.targets x bound).mono (Nat.le_refl _) (by omega)))
    · rcases mem_targets_guardedBlock bound with same | same | bound
      · exact .inl same
      · exact .inr (.inl same)
      · rcases targets x bound with same | ⟨k, rfl, above, below⟩
        · exact .inr (.inl same)
        · exact .inr (.inr ⟨_, k, rfl, by omega, below⟩)
  | substring _ _ _ iha ihb ihc =>
    have taken := iha.taken
    have taken' := ihb.taken
    have taken'' := ihc.taken
    refine Generated.numbered_node (by omega) fun x bound => ?_
    rw [Block.targets_append, Block.targets_append, Block.targets_append, List.mem_append,
      List.mem_append, List.mem_append] at bound
    rcases bound with ((bound | bound) | bound) | bound
    · exact .inr (.inr ((iha.targets x bound).mono (Nat.le_refl _) (by omega)))
    · exact .inr (.inr ((ihb.targets x bound).mono (by omega) (by omega)))
    · exact .inr (.inr ((ihc.targets x bound).mono (by omega) (Nat.le_refl _)))
    · exact (mem_targets_substring bound).imp id .inl

/-- The names of an accepted expression are determined by the names that were taken before. -/
theorem Expr.numbered_of_generate {s : Setting} {e : Expr} {n : Nat} {g : Generated}
    (made : (e.generate s ⟨n⟩).outcome = .ok g) : g.Numbered n (e.generate s ⟨n⟩).names.taken :=
  (Expr.yields_iff.1 (Gen.exists_yields made)).numbered

end RowExpr
