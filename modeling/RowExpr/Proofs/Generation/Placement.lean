import RowExpr.Proofs.Generation.Simulation

/-!
Where the code of a node stands in the code of its tree.

The code of a tree contains the code of each of its nodes in one piece, and nothing
that comes after this piece binds the flag of the node (`Setting.Emits.houses`). So
the flag keeps the nullity of the node for the rest of the run
(`Setting.Houses.flag_get`).
-/

namespace RowExpr

/-- A block has the code of a node in it as one piece. The flag of the node has a number
from `n` up to `m` and is not bound again after its code. -/
def Setting.Houses (s : Setting) (block : Block) (n m : Nat) (ds : List Declaration) (e : Expr) :
    Prop :=
  ∃ before c after k k' ds', block = before ++ (c.code ++ after) ∧
    s.Emits e k c k' ds' ∧ ds' ⊆ ds ∧
    c.isNull.InRange n m ∧ c.isNull ∉ Block.targets after

section Houses

variable {s : Setting} {block : Block} {n m n' m' : Nat} {ds ds' : List Declaration} {e : Expr}

theorem Setting.Emits.houses_self {g : Generated} (emits : s.Emits e n g m ds) :
    s.Houses g.code n m ds e :=
  ⟨[], g, [], n, m, ds, (List.append_nil _).symm, emits, List.Subset.refl _,
    emits.numbered.isNull_inRange, List.not_mem_nil⟩

/-- Code around a block does not matter if what follows binds other names. -/
theorem Setting.Houses.embed (houses : s.Houses block n m ds e) (first rest : Block)
    (apart : ∀ x ∈ rest.targets, ¬ x.InRange n m) (low : n' ≤ n) (high : m ≤ m')
    (sub : ds ⊆ ds') : s.Houses (first ++ (block ++ rest)) n' m' ds' e := by
  obtain ⟨before, c, after, k, k', asked, rfl, emits, inside, numbered, unbound⟩ := houses
  refine ⟨first ++ before, c, after ++ rest, k, k', asked, ?_, emits,
    List.Subset.trans inside sub, numbered.mono low high, fun bound => ?_⟩
  · simp only [List.append_assoc]
  · rw [Block.targets_append, List.mem_append] at bound
    rcases bound with bound | bound
    · exact unbound bound
    · exact apart _ bound numbered

end Houses

/-! ## Trees -/

/-- The code of an operand stands in the code of its node. After it come the codes of
later operands and the block of the node, which binds the names of the node. -/
theorem Setting.Houses.operand {s : Setting} {block : Block} {n k m m' : Nat}
    {ds ds' : List Declaration} {e : Expr} (houses : s.Houses block k m ds e)
    (first rest : Block) (above : n + 2 ≤ k)
    (targets : ∀ x ∈ rest.targets, x = .flag n ∨ x = .result n ∨ x.InRange m m') (high : m ≤ m')
    (sub : ds ⊆ ds') : s.Houses (first ++ (block ++ rest)) n m' ds' e := by
  refine houses.embed first rest (fun x bound inside => ?_) (by omega) high sub
  rcases targets x bound with rfl | rfl | late
  · exact (Name.flag_inRange n).ne inside above rfl
  · exact (Name.result_inRange n).ne inside above rfl
  · exact inside.ne late (Nat.le_refl m) rfl

/-- The code of a tree has the code of every node in it. -/
theorem Setting.Emits.houses {s : Setting} {e node : Expr} {n m : Nat} {g : Generated}
    {ds : List Declaration} (emits : s.Emits e n g m ds) (inside : node ∈ e.nodes) :
    s.Houses g.code n m ds node := by
  induction emits with
  | naming emits ih =>
    rcases List.mem_cons.1 inside with rfl | inside
    · exact (Setting.Emits.naming emits).houses_self
    · exact ih inside
  | nullLiteral =>
    cases List.mem_singleton.1 inside
    exact Setting.Emits.nullLiteral.houses_self
  | literal present found made =>
    cases List.mem_singleton.1 inside
    exact (Setting.Emits.literal present found made).houses_self
  | field found =>
    cases List.mem_singleton.1 inside
    exact (Setting.Emits.field found).houses_self
  | binary emitsLeft emitsRight ihl ihr =>
    rcases List.mem_cons.1 inside with rfl | inside
    · exact (Setting.Emits.binary emitsLeft emitsRight).houses_self
    · have taken := emitsLeft.numbered.taken
      have taken' := emitsRight.numbered.taken
      rw [List.append_assoc]
      rcases List.mem_append.1 inside with inside | inside
      · refine (ihl inside).operand [] _ (Nat.le_refl _) (fun x bound => ?_) (by omega)
          (List.subset_append_left _ _)
        rw [Block.targets_append, List.mem_append] at bound
        rcases bound with bound | bound
        · exact .inr (.inr (emitsRight.numbered.targets x bound))
        · exact (mem_targets_compute bound).imp id .inl
      · refine (ihr inside).operand _ _ (by omega) (fun x bound => ?_) (Nat.le_refl _)
          (List.subset_append_right _ _)
        exact (mem_targets_compute bound).imp id .inl
  | unary emits ih =>
    rcases List.mem_cons.1 inside with rfl | inside
    · exact (Setting.Emits.unary emits).houses_self
    · exact (ih inside).operand [] _ (Nat.le_refl _)
        (fun x bound => (mem_targets_compute bound).imp id .inl)
        (Nat.le_refl _) (List.Subset.refl _)
  | isNull emits ih =>
    rcases List.mem_cons.1 inside with rfl | inside
    · exact (Setting.Emits.isNull emits).houses_self
    · exact (ih inside).operand [] _ (Nat.le_refl _)
        (fun x bound => (mem_targets_nullTest bound).imp id .inl)
        (Nat.le_refl _) (List.Subset.refl _)
  | isNotNull emits ih =>
    rcases List.mem_cons.1 inside with rfl | inside
    · exact (Setting.Emits.isNotNull emits).houses_self
    · exact (ih inside).operand [] _ (Nat.le_refl _)
        (fun x bound => (mem_targets_nullTest bound).imp id .inl)
        (Nat.le_refl _) (List.Subset.refl _)
  | cast legal emits found made ih =>
    rcases List.mem_cons.1 inside with rfl | inside
    · exact (Setting.Emits.cast legal emits found made).houses_self
    · obtain ⟨grown, targets⟩ := (Gen.converts_of_conversion? found made).targets
      refine (ih inside).operand [] _ (Nat.le_refl _) (fun x bound => ?_) grown
        (List.subset_append_left _ _)
      rcases mem_targets_guardedBlock bound with same | same | bound
      · exact .inl same
      · exact .inr (.inl same)
      · rcases targets x bound with same | ⟨k, rfl, above, below⟩
        · exact .inr (.inl same)
        · exact .inr (.inr ⟨_, k, rfl, above, below⟩)
  | substring emitsStr emitsStart emitsStop iha ihb ihc =>
    rcases List.mem_cons.1 inside with rfl | inside
    · exact (Setting.Emits.substring emitsStr emitsStart emitsStop).houses_self
    · have taken := emitsStr.numbered.taken
      have taken' := emitsStart.numbered.taken
      have taken'' := emitsStop.numbered.taken
      rw [List.append_assoc]
      rcases List.mem_append.1 inside with inside | inside
      · rw [List.append_assoc]
        refine (iha inside).operand [] _ (Nat.le_refl _) (fun x bound => ?_) (by omega)
          (List.subset_append_left _ _)
        rw [Block.targets_append, Block.targets_append, List.mem_append, List.mem_append] at bound
        rcases bound with bound | bound | bound
        · exact .inr
            (.inr ((emitsStart.numbered.targets x bound).mono (Nat.le_refl _) (by omega)))
        · exact .inr (.inr ((emitsStop.numbered.targets x bound).mono (by omega) (Nat.le_refl _)))
        · exact (mem_targets_substring bound).imp id .inl
      · rcases List.mem_append.1 inside with inside | inside
        · rw [List.append_assoc]
          refine (ihb inside).operand _ _ (by omega) (fun x bound => ?_) (by omega)
            (List.subset_append_of_subset_right _ (List.subset_append_left _ _))
          rw [Block.targets_append, List.mem_append] at bound
          rcases bound with bound | bound
          · exact .inr (.inr (emitsStop.numbered.targets x bound))
          · exact (mem_targets_substring bound).imp id .inl
        · refine (ihc inside).operand _ _ (by omega) (fun x bound => ?_) (Nat.le_refl _)
            (List.subset_append_of_subset_right _ (List.subset_append_right _ _))
          exact (mem_targets_substring bound).imp id .inl

/-! ## Runs -/

/-- Once the code of a node has been run, its flag holds the nullity of the node, however
far the run has come. -/
theorem Setting.Houses.flag_get [TimeZones] {s : Setting} {env : Environment} {block : Block}
    {n m low high : Nat} {ds : List Declaration} {e : Expr} (houses : s.Houses block n m ds e)
    (describes : s.Describes env) (checked : s.nullCheck = true)
    (numbered : ∀ x ∈ block.targets, x.InRange low high) {σ : Scope} (hosts : σ.Hosts env ds) :
    ∃ before c after k, (e.generate s ⟨k⟩).outcome = .ok c ∧ block = before ++ (c.code ++ after) ∧
      ∀ part σ', part <+: after → Block.run (before ++ (c.code ++ part)) σ = .ok σ' →
        ∃ o, e.eval env = .ok o ∧ σ'.get c.isNull = .ok (.bool o.isNull) := by
  obtain ⟨before, c, after, k, k', asked, rfl, emits, sub, -, unbound⟩ := houses
  refine ⟨before, c, after, k, congrArg Draft.outcome (Expr.yields_iff.2 emits), rfl,
    fun part σ' early ran => ?_⟩
  rw [Block.run_append] at ran
  obtain ⟨σ₁, ranBefore, ran⟩ := of_bind_eq_ok ran
  rw [Block.run_append] at ran
  obtain ⟨σ₂, ranCode, ranPart⟩ := of_bind_eq_ok ran
  have hosted : σ₁.Hosts env asked := by
    refine (hosts.keeps (fun x bound => numbered x ?_) (Block.run_keeps ranBefore)).mono sub
    rw [Block.targets_append]
    exact List.mem_append_left _ bound
  obtain ⟨o, evaluated, holds⟩ := (emits.agrees describes hosted).of_finished ranCode
  refine ⟨o, evaluated, ((Block.run_keeps ranPart).get _ fun bound => unbound ?_).trans
    (holds.flag checked)⟩
  obtain ⟨rest, rfl⟩ := early
  rw [Block.targets_append]
  exact List.mem_append_left _ bound

end RowExpr
