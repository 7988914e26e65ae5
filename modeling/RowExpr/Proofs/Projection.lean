import RowExpr.Proofs.Built

/-!
Projections of one expression.

The projection of one expression gives the value of the expression where it is present
(`Query.returns_iff`), and stops where its evaluation does. Expressions that can be compiled can
be joined by an operator (`Query.exists_binary`). If the type of an expression that can be
compiled can be converted, its cast can be compiled too, and wherever the expression is present
the cast gives the converted value, or the error of the conversion (`Query.exists_cast`).
-/

namespace RowExpr

/-- On the records, the projection of one expression gives this value. -/
def Query.Returns [TimeZones] (q : Query) (records : List Value) (v : Value) : Prop :=
  q.run records = .ok (.array .made [v])

/-- A projection that lists what a computation gives returns a value exactly if the computation
does. -/
theorem Query.returns_of_run [TimeZones] {q : Query} {records : List Value} {v : Value}
    {computed : Except Fault Value} (ran : q.run records = do return .array .made [← computed]) :
    q.Returns records v ↔ computed = .ok v := by
  rw [Query.Returns, ran]
  cases computed with
  | error f =>
    refine iff_of_false ?_ ?_
    · intro same
      cases same
    · intro same
      cases same
  | ok w =>
    constructor
    · intro same
      cases same
      rfl
    · intro same
      cases same
      rfl

section Single

variable [TimeZones] {inputs : List Input} {given : GivenOptions} {new : Session}
    {e : Expr} {q : Query}
  (created : Session.create inputs given = .ok new)
  (built : (Query.projection inputs [e] given).outcome = .ok q) {records : List Value}

include created built

/-- A projection of one expression gives an array of what is shown of it. -/
theorem Query.run_single : q.run records = (do
    return .array .made [(← e.eval (new.environment Ty.defaultValue records)).shown]) := by
  rw [Query.run_of_projection created built records, Expr.project_cons, Expr.shown]
  cases e.eval (new.environment Ty.defaultValue records) <;> rfl

/-- A projection gives a value that is not absent exactly if its expression is present and that
value. -/
theorem Query.returns_iff {v : Value} (present : v.isAbsent = false) :
    q.Returns records v ↔ e.eval (new.environment Ty.defaultValue records) = .ok ⟨v, false⟩ := by
  unfold Query.Returns
  rw [Query.run_single created built]
  constructor
  · intro ran
    obtain ⟨⟨value, absent⟩, evaluated, shown⟩ := of_bind_eq_ok ran
    cases absent with
    | true =>
      cases shown
      cases present
    | false =>
      cases shown
      exact evaluated
  · intro evaluated
    rw [evaluated]
    rfl

/-- A fault of the expression is the fault of the run. -/
theorem Query.run_of_eval_error {f : Fault}
    (stopped : e.eval (new.environment Ty.defaultValue records) = .error f) :
    q.run records = .error f := by
  rw [Query.run_single created built, stopped]
  rfl

end Single

section Legal

variable [TimeZones] {inputs : List Input} {given : GivenOptions} {e e' : Expr} {p : Query}
  (built : (Query.projection inputs [e] given).outcome = .ok p)

include built

/-- An expression that has been built is legal. -/
theorem Query.allLegal_of_built : e.AllLegal inputs :=
  List.forall_mem_singleton.1 (Query.projection_built_iff.1 ⟨p, built⟩).2

/-- Where one expression can be compiled, every legal one can. -/
theorem Query.exists_of_allLegal (legal : e'.AllLegal inputs) :
    ∃ q, (Query.projection inputs [e'] given).outcome = .ok q := by
  obtain ⟨possible, -⟩ := Query.projection_built_iff.1 ⟨p, built⟩
  exact Query.projection_built_iff.2 ⟨possible, List.forall_mem_singleton.2 legal⟩

end Legal

/-! ## Binary operators -/

/-- With both operands present, an operation has no other way to be absent. -/
theorem Expr.eval_binary_present [TimeZones] {env : Environment} {left right : Expr}
    {op : BinaryOp} {type : Ty} {a b : Value} (evaluatedLeft : left.eval env = .ok ⟨a, false⟩)
    (evaluatedRight : right.eval env = .ok ⟨b, false⟩) :
    (Expr.binary op left right type).eval env =
      (do return ⟨← op.eval type left.type right.type a b, false⟩) := by
  rw [Expr.eval, evaluatedLeft, evaluatedRight]
  rfl

/-- Expressions that can be compiled can be joined by an operator. Where both are present, the
operator gives its value for theirs, or its error. -/
theorem Query.exists_binary [TimeZones] {inputs : List Input} {given : GivenOptions}
    {left right : Expr} {p p' : Query}
    (builtLeft : (Query.projection inputs [left] given).outcome = .ok p)
    (builtRight : (Query.projection inputs [right] given).outcome = .ok p') (op : BinaryOp)
    (type : Ty) :
    ∃ q, (Query.projection inputs [.binary op left right type] given).outcome = .ok q ∧
      ∀ records v w, v.isAbsent = false → w.isAbsent = false → p.Returns records v →
        p'.Returns records w →
        q.run records = do return .array .made [← op.eval type left.type right.type v w] := by
  have legal : (Expr.binary op left right type).AllLegal inputs :=
    Expr.allLegal_binary.2 ⟨Query.allLegal_of_built builtLeft, Query.allLegal_of_built builtRight⟩
  obtain ⟨q, built⟩ := Query.exists_of_allLegal builtLeft legal
  obtain ⟨⟨new, created, -⟩, -⟩ := Query.projection_built_iff.1 ⟨q, built⟩
  refine ⟨q, built, ?_⟩
  intro records v w presentLeft presentRight returnsLeft returnsRight
  have evaluatedLeft := (Query.returns_iff created builtLeft presentLeft).1 returnsLeft
  have evaluatedRight := (Query.returns_iff created builtRight presentRight).1 returnsRight
  rw [Query.run_single created built, Expr.eval_binary_present evaluatedLeft evaluatedRight]
  cases op.eval type left.type right.type v w with
  | error f => rfl
  | ok u => rfl

/-! ## Casts -/

theorem Expr.allLegal_cast {inputs : List Input} {e : Expr} {type : Ty} :
    (Expr.cast e type).AllLegal inputs ↔ e.type.Castable type ∧ e.AllLegal inputs := by
  unfold Expr.AllLegal
  rw [Expr.nodes, List.forall_mem_cons, Expr.Legal]

/-- With its operand present, a cast has no other way to be absent. -/
theorem Expr.eval_cast_present [TimeZones] {env : Environment} {e : Expr} {v : Value} {type : Ty}
    (evaluated : e.eval env = .ok ⟨v, false⟩) :
    (Expr.cast e type).eval env = (do return ⟨← v.cast env.zone e.type type, false⟩) := by
  rw [Expr.eval, evaluated]
  rfl

/-- A cast can be built of an expression that can be built by itself, and casts what that one
gives. -/
theorem Query.exists_cast [TimeZones] {inputs : List Input} {given : GivenOptions} {e : Expr}
    {p : Query} {type : Ty} (built : (Query.projection inputs [e] given).outcome = .ok p)
    (castable : e.type.Castable type) :
    ∃ options q, Options.resolve given = .ok options ∧
      (Query.projection inputs [.cast e type] given).outcome = .ok q ∧
      ∀ records v, v.isAbsent = false → p.Returns records v →
        q.run records = do return .array .made [← v.cast options.timeZone e.type type] := by
  have legal : (Expr.cast e type).AllLegal inputs :=
    Expr.allLegal_cast.2 ⟨castable, Query.allLegal_of_built built⟩
  obtain ⟨q, builtCast⟩ := Query.exists_of_allLegal built legal
  obtain ⟨⟨new, created, -⟩, -⟩ := Query.projection_built_iff.1 ⟨q, builtCast⟩
  refine ⟨new.options, q, (Session.of_createWith created).2.1, builtCast, ?_⟩
  intro records v present returns
  have evaluated := (Query.returns_iff created built present).1 returns
  have zone : (new.environment Ty.defaultValue records).zone = new.options.timeZone := rfl
  rw [Query.run_single created builtCast, Expr.eval_cast_present evaluated, zone]
  cases v.cast new.options.timeZone e.type type with
  | error f => rfl
  | ok w => rfl

/-- Where an expression stops, its cast stops with the same error. -/
theorem Query.cast_stops [TimeZones] {inputs : List Input} {given : GivenOptions} {e : Expr}
    {p q : Query} {type : Ty} {records : List Value} {f : Fault}
    (built : (Query.projection inputs [e] given).outcome = .ok p)
    (builtCast : (Query.projection inputs [.cast e type] given).outcome = .ok q)
    (stopped : p.run records = .error f) : q.run records = .error f := by
  obtain ⟨⟨new, created, -⟩, -⟩ := Query.projection_built_iff.1 ⟨p, built⟩
  rw [Query.run_single created built] at stopped
  cases evaluated : e.eval (new.environment Ty.defaultValue records) with
  | error f' =>
    rw [evaluated] at stopped
    cases stopped
    refine Query.run_of_eval_error created builtCast ?_
    rw [Expr.eval, evaluated]
    rfl
  | ok outcome =>
    rw [evaluated] at stopped
    cases stopped

end RowExpr
