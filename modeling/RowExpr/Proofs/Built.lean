import RowExpr.Proofs.Acceptance
import RowExpr.Proofs.Verdict

/-!
Which queries can be built.

A projection can be built exactly if there can be a session for it whose logger does not
fail, and every node of its expressions is legal (`Query.projection_built_iff`); the same
goes for the filter of a predicate of type Boolean (`Query.filter_built_iff`). Legal nodes
do not depend on what is around them, so the parts of expressions that have queries can be
put together in other ways.
-/

namespace RowExpr

/-- The inputs and options make a session, and its logger does not fail. -/
def Query.Possible [TimeZones] (inputs : List Input) (given : GivenOptions) : Prop :=
  ∃ new, Session.create inputs given = .ok new ∧ new.options.sink.reply = .ok ()

/-- Every node of the tree is legal. -/
def Expr.AllLegal (inputs : List Input) (e : Expr) : Prop := ∀ node ∈ e.nodes, node.Legal inputs

theorem Expr.allLegal_binary {inputs : List Input} {op : BinaryOp} {left right : Expr}
    {type : Ty} :
    (Expr.binary op left right type).AllLegal inputs ↔ left.AllLegal inputs ∧
      right.AllLegal inputs := by
  unfold Expr.AllLegal
  rw [Expr.nodes, List.forall_mem_cons, List.forall_mem_append]
  exact and_iff_right trivial

/-- Generation of a tree succeeds exactly if all its nodes are legal. -/
theorem Expr.generated_iff (s : Setting) (names : NameSupply) (e : Expr) :
    (∃ g, (e.generate s names).outcome = .ok g) ↔ e.AllLegal s.inputs := by
  rw [(e.generate_follows s names).accepts_iff]
  exact e.checks_pass_iff s.inputs

/-- A session compiles an expression if and only if it is legal, if the logger does not throw. -/
theorem Session.compileOrFail_iff {s : Session} (replied : s.options.sink.reply = .ok ())
    (e : Expr) : (∃ g, (s.compileOrFail e).1.outcome = .ok g) ↔ e.AllLegal s.inputs := by
  rw [s.outcome_compileOrFail e, replied]
  refine Iff.trans ?_ (e.generated_iff s.setting s.names)
  cases (e.generate s.setting s.names).outcome with
  | error err => exact ⟨nofun, nofun⟩
  | ok g => exact ⟨fun _ => ⟨g, rfl⟩, fun _ => ⟨g, rfl⟩⟩

/-- There is code for legal expressions only. -/
theorem Setting.EmitsAll.allLegal {s : Setting} {es : List Expr} {gs : List Generated}
    {n m : Nat} {ds : List Declaration} (emits : s.EmitsAll es n gs m ds) :
    ∀ e ∈ es, e.AllLegal s.inputs := by
  induction emits with
  | nil => exact List.forall_mem_nil _
  | cons first _ ih =>
    refine List.forall_mem_cons.2 ⟨?_, ih⟩
    exact (Expr.generated_iff s _ _).1 ⟨_, congrArg Draft.outcome (Expr.yields_iff.2 first)⟩

section Built

variable {inputs : List Input} {given : GivenOptions}

/-- A projection can be built if and only if its inputs and options are possible and all
expressions are legal. -/
theorem Query.projection_built_iff [TimeZones] {es : List Expr} :
    (∃ q, (Query.projection inputs es given).outcome = .ok q) ↔
      Query.Possible inputs given ∧ ∀ e ∈ es, e.AllLegal inputs := by
  constructor
  · rintro ⟨q, built⟩
    cases created : Session.create inputs given with
    | error failure =>
      have found : Session.createWith Ty.defaultTerm inputs given = .error failure := created
      unfold Query.projection Query.projectionWith at built
      rw [Report.outcome_bind, Report.outcome_ofExcept, found] at built
      cases built
    | ok new =>
      have sameInputs := (Session.of_createWith created).1
      have outcome := Query.outcome_projection created es
      rw [built] at outcome
      obtain ⟨gs, compiled, -⟩ := of_bind_eq_ok outcome.symm
      obtain ⟨-, m, ds, emits, -⟩ := (Session.sound_createWith created).compileAll compiled
      refine ⟨⟨new, created, ?_⟩, fun e listed => sameInputs ▸ emits.allLegal e listed⟩
      obtain ⟨q', ended⟩ := Query.exists_projection created compiled
      rw [built] at ended
      obtain ⟨_, replied, -⟩ := of_bind_eq_ok ended.symm
      exact replied
  · rintro ⟨⟨new, created, replied⟩, legal⟩
    have sameInputs := (Session.of_createWith created).1
    refine Query.projection_of_accepted created replied fun e listed => ?_
    exact (new.compileOrFail_iff replied e).2 (sameInputs ▸ legal e listed)

/-- The same for filters, of which the condition must be a truth value. -/
theorem Query.filter_built_iff [TimeZones] {e : Expr} (boolean : e.type = .boolean) :
    (∃ q, (Query.filter inputs e given).outcome = .ok q) ↔ Query.Possible inputs given ∧
      e.AllLegal inputs := by
  have single : (∃ q, (Query.projection inputs [e] given).outcome = .ok q) ↔
      Query.Possible inputs given ∧ e.AllLegal inputs := by
    rw [Query.projection_built_iff, List.forall_mem_singleton]
  rw [← single]
  cases created : Session.create inputs given with
  | error failure =>
    obtain ⟨filtered, projected⟩ := Query.refused_alike created boolean
    rw [filtered, projected]
  | ok new =>
    have alike := Query.filter_built_alike created boolean
    generalize (Query.filter inputs e given).outcome = filtered at alike
    generalize (Query.projection inputs [e] given).outcome = projected at alike
    cases alike with
    | error failure => exact ⟨nofun, nofun⟩
    | ok _ => exact ⟨fun _ => ⟨_, rfl⟩, fun _ => ⟨_, rfl⟩⟩

end Built

end RowExpr
