import RowExpr.Calendar.Offsets
import RowExpr.Proofs.Pointwise

/-!
Filters and projections agree.

A filter returns a verdict and a projection the value itself, and both look at the flag of the
predicate in their own way. On all records they stop with the same fault, or the filter accepts
exactly if the projected value is true; an absent predicate and one that holds no truth value are
rejected. Whether one of the two can be built, and why not, is the same for both
(`Query.filter_agrees_with_projection`).
-/

namespace RowExpr

/-! ## Verdicts on values -/

theorem Value.strictEq_true_iff {v : Value} :
    v.strictEq (.bool true) = true ↔ v = .bool true := by
  cases v <;> simp [Value.strictEq, Value.sameObject]

/-- An outcome is present and true exactly if it is shown as true. -/
theorem Outcome.isTrue_iff {o : Outcome} : o.isTrue = true ↔ o.shown = .bool true := by
  unfold Outcome.isTrue Outcome.shown
  cases o.isNull with
  | true => simp
  | false => simpa using Value.strictEq_true_iff

/-! ## Filters -/

theorem Ty.isBasicNamed_boolean {type : Ty} (boolean : type = .boolean) :
    type.isBasicNamed .boolean = true := by
  rw [boolean]
  rfl

/-- Without a session there is no query: inputs and options are checked for both kinds alike. -/
theorem Query.refused_alike [TimeZones] {inputs : List Input} {given : GivenOptions}
    {failure : Failure} (refused : Session.create inputs given = .error failure) {e : Expr}
    (boolean : e.type = .boolean) :
    (Query.filter inputs e given).outcome = .error failure ∧
    (Query.projection inputs [e] given).outcome = .error failure := by
  have missing : Session.createWith Ty.defaultTerm inputs given = .error failure := refused
  constructor
  · unfold Query.filter Query.filterWith
    rw [Ty.isBasicNamed_boolean boolean, Bool.not_true, if_neg Bool.false_ne_true,
      Report.outcome_bind, Report.outcome_ofExcept, missing]
    rfl
  · unfold Query.projection Query.projectionWith
    rw [Report.outcome_bind, Report.outcome_ofExcept, missing]
    rfl

section Created

variable [TimeZones] {inputs : List Input} {given : GivenOptions} {new : Session}
  (created : Session.create inputs given = .ok new)

include created

theorem Query.accepts_of_filter {e : Expr} {q : Query}
    (built : (Query.filter inputs e given).outcome = .ok q) (records : List Value) :
    q.accepts records = e.accepts (new.environment Ty.defaultValue records) := by
  obtain ⟨s, g, found, serves, returned⟩ := Query.of_filterWith built
  have same : s = new := Except.ok.inj (found.symm.trans created)
  subst same
  unfold Query.accepts
  rw [serves.run_filter (Session.eval_defaults created (.refl s)) returned records]
  rcases e.accepts (s.environment Ty.defaultValue records) with f | verdict
  · rfl
  · cases verdict <;> rfl

theorem Query.outcome_filter {e : Expr} (boolean : e.type = .boolean) :
    (Query.filter inputs e given).outcome = (do
      let g ← (new.compileOrFail e).1.outcome
      (Query.load (new.compileOrFail e).2.options.sink
        ((new.compileOrFail e).2.unit [g]
          (.term ((new.compileOrFail e).2.accepted g)))).outcome) := by
  have found : Session.createWith Ty.defaultTerm inputs given = .ok new := created
  unfold Query.filter Query.filterWith
  rw [Ty.isBasicNamed_boolean boolean, Bool.not_true, if_neg Bool.false_ne_true]
  simp only [Report.outcome_bind, Report.outcome_ofExcept, found]
  rfl

/-- The filter and the projection of a predicate are built alike. -/
theorem Query.filter_built_alike {e : Expr} (boolean : e.type = .boolean) :
    EndAlike (fun _ _ => True) (Query.filter inputs e given).outcome
      (Query.projection inputs [e] given).outcome := by
  have grows := Session.Grows.compileOrFail new e
  have sound := (Session.sound_createWith created).grows grows
  rw [Query.outcome_filter created boolean, Query.outcome_projection created,
    Session.outcome_compileAll_cons]
  cases compiled : (new.compileOrFail e).1.outcome with
  | error failure => exact .error failure
  | ok g =>
    have after : (new.compileAll [e]).2 = (new.compileOrFail e).2 :=
      Session.compileAll_cons_snd compiled []
    rw [after]
    exact Session.Twin.load ⟨rfl, rfl⟩ sound sound _ _ _ _

end Created

/-! ## Both -/

/-- The filter judges the value that the projection gives. On all records both stop with the same
fault, or the projection gives one value and the filter accepts exactly if that is true. -/
def Query.Judges [TimeZones] (filter projection : Query) : Prop :=
  ∀ records,
    EndAlike (fun verdict result => ∃ v, result = .array .made [v] ∧
      (verdict = true ↔ v = .bool true))
    (filter.accepts records) (projection.run records)

/-- For all inputs and options and every predicate of type Boolean, the filter and the projection
of the predicate alone fail with the same error, or both are built. Then, on all records, both
stop with the same fault, or the filter accepts the records exactly if the projected value is
true. -/
theorem Query.filter_agrees_with_projection [TimeZones] (inputs : List Input)
    (given : GivenOptions) {e : Expr} (boolean : e.type = .boolean) :
    EndAlike Query.Judges (Query.filter inputs e given).outcome
      (Query.projection inputs [e] given).outcome := by
  cases created : Session.create inputs given with
  | error failure =>
    obtain ⟨filtered, projected⟩ := Query.refused_alike created boolean
    rw [filtered, projected]
    exact .error failure
  | ok new =>
    refine (Query.filter_built_alike created boolean).mono
      fun p q filtered projected _ records => ?_
    rw [Query.accepts_of_filter created filtered, Query.run_of_projection created projected,
      Expr.project_cons]
    unfold Expr.accepts Expr.shown
    cases e.eval (new.environment Ty.defaultValue records) with
    | error f => exact .error f
    | ok o => exact .ok ⟨o.shown, rfl, Outcome.isTrue_iff⟩

/-- A field that is declared to be a truth value, and the conjunction of it with itself. -/
def Expr.doubled : Expr := .binary .and (.field "a" .boolean) (.field "a" .boolean) .boolean

section Host

open scoped Offsets

/-- On a record that holds a number the projection gives the number, and the filter rejects it; on
an absent value it rejects as well, and without a record both stop. -/
theorem Query.filter_agrees_with_projection_doubled :
    ∃ p q : Query,
      Expr.doubled.type = .boolean ∧
      (Query.filter Input.counted .doubled (.members [])).outcome = .ok p ∧
      (Query.projection Input.counted [.doubled] (.members [])).outcome = .ok q ∧ p.Judges q ∧
      q.run (Value.counted (.bool true)) = .ok (.array .made [.bool true]) ∧
      p.accepts (Value.counted (.bool true)) = .ok true ∧
      q.run (Value.counted (.text "yes")) = .ok (.array .made [.text "yes"]) ∧
      p.accepts (Value.counted (.text "yes")) = .ok false ∧
      p.accepts (Value.counted .null) = .ok false ∧
      ∃ f, q.run [.null] = .error f ∧ p.accepts [.null] = .error f := by
  have agree :=
    Query.filter_agrees_with_projection Input.counted (.members []) (e := .doubled) rfl
  have filtered : (Query.filter Input.counted .doubled (.members [])).outcome = .ok _ := rfl
  obtain ⟨q, projected, judges⟩ := agree.of_ok filtered
  have built : (Query.projection Input.counted [.doubled] (.members [])).outcome = .ok _ := rfl
  cases built.symm.trans projected
  exact ⟨_, _, rfl, filtered, projected, judges, rfl, rfl, rfl, rfl, rfl, _, rfl, rfl⟩

end Host

end RowExpr
