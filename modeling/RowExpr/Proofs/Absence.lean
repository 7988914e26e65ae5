import RowExpr.Calendar.Offsets
import RowExpr.Proofs.Expr.Presence
import RowExpr.Proofs.Generation.Placement
import RowExpr.Proofs.Query

/-!
Absent values in queries.

If no leaf is absent, a query gives the same whether absent values are tracked or
not, and all its flags stay false (`Query.tracking_immaterial`). If absent values are
tracked, the flag of an expression is set exactly if an absent leaf can be reached
from it, and a projected value is null exactly then
(`Query.null_iff_exposed_absence`).

Both hold of fields whose values are solid. A record that stands where a date or a text is
declared, and whose method gives nothing when it is called, escapes the flags: it is
present, and what it gives is not.
-/

namespace RowExpr

/-! ## Flags of a query -/

/-- The code of a list contains the code of every node of every tree in one piece. -/
theorem Setting.EmitsAll.houses {s : Setting} {es : List Expr} {gs : List Generated} {n m : Nat}
    {ds : List Declaration} (emits : s.EmitsAll es n gs m ds) {e node : Expr} (listed : e ∈ es)
    (inside : node ∈ e.nodes) : s.Houses (gs.flatMap Generated.code) n m ds node := by
  induction emits with
  | nil => cases listed
  | @cons _ _ n g m ds gs m' ds' first rest ih =>
    have taken := first.numbered.taken
    rw [List.flatMap_cons]
    rcases List.mem_cons.1 listed with rfl | listed
    · refine (first.houses inside).embed [] _ (fun x bound early => ?_) (Nat.le_refl _) rest.le
        (List.subset_append_left _ _)
      exact early.ne (rest.targets x bound) (Nat.le_refl _) rfl
    · have later : s.Houses (g.code ++ (gs.flatMap Generated.code ++ [])) n m' (ds ++ ds') node :=
        (ih listed).embed _ [] (fun x bound => absurd bound List.not_mem_nil) (by omega)
          (Nat.le_refl _)
          (List.subset_append_right _ _)
      rwa [List.append_nil] at later

/-- The flag of every node of the expressions, once its code has been run. -/
theorem Query.Serves.flag_get [TimeZones] {q : Query} {s : Session} {es : List Expr}
    {gs : List Generated} {absent : Ty → Value} (serves : q.Serves s es gs)
    (defaults : ∀ type σ, (s.defaults type).eval σ = .ok (absent type))
    (checked : s.options.nullCheck = true) {e node : Expr} (listed : e ∈ es)
    (inside : node ∈ e.nodes) (records : List Value) :
    ∃ before c after k, (node.generate s.setting ⟨k⟩).outcome = .ok c ∧
      q.evaluator.body = before ++ (c.code ++ after) ∧
      ∀ part σ, part <+: after →
        Block.run (before ++ (c.code ++ part)) (q.evaluator.entry records) = .ok σ →
        ∃ o, node.eval (s.environment absent records) = .ok o ∧
          σ.get c.isNull = .ok (.bool o.isNull) := by
  obtain ⟨n, m, ds, emits, hosts⟩ := serves.code
  rw [serves.body]
  exact (emits.houses listed inside).flag_get (Session.describes defaults records)
    checked emits.targets
    (hosts absent records)

/-- The flag of no node is ever set while the query runs. The code of every node stands in
the body; as soon as it has been run, however far the run gets then, its flag is false. -/
def Query.FlagsUnset [TimeZones] (q : Query) (inputs : List Input) (es : List Expr)
    (records : List Value) : Prop :=
  ∀ e ∈ es, ∀ node ∈ e.nodes, ∃ before c after k,
    (node.generate ⟨inputs, true, Ty.defaultTerm⟩ ⟨k⟩).outcome = .ok c ∧
    q.evaluator.body = before ++ (c.code ++ after) ∧
    ∀ part σ, part <+: after →
      Block.run (before ++ (c.code ++ part)) (q.evaluator.entry records) = .ok σ →
      σ.get c.isNull = .ok (.bool false)

/-! ## Sessions of a query -/

/-- The session behind a query has the inputs and options that it was built from, and
the usual terms for absent values. -/
structure Session.Behind (s : Session) (inputs : List Input) (options : Options) : Prop where
  inputs : s.inputs = inputs
  options : s.options = options
  terms : s.defaults = Ty.defaultTerm

section Behind

variable {s : Session} {inputs : List Input} {options : Options}

/-- The session that a query is built with. -/
theorem Session.behind_of_create [TimeZones] {given : GivenOptions}
    (resolved : Options.resolve given = .ok options)
    (created : Session.create inputs given = .ok s) : s.Behind inputs options := by
  obtain ⟨same, found, terms⟩ := Session.of_createWith created
  rw [resolved] at found
  cases found
  exact ⟨same, rfl, terms⟩

theorem Session.Behind.eval_defaults [TimeZones] (behind : s.Behind inputs options) (type : Ty)
    (σ : Scope) : (s.defaults type).eval σ = .ok type.defaultValue := by
  rw [behind.terms]
  exact type.eval_defaultTerm σ

theorem Session.Behind.setting (behind : s.Behind inputs options) :
    s.setting = ⟨inputs, options.nullCheck, Ty.defaultTerm⟩ := by
  rw [Session.setting, behind.inputs, behind.options, behind.terms]

theorem Session.Behind.environment (behind : s.Behind inputs options) (absent : Ty → Value)
    (records : List Value) :
    s.environment absent records =
      ⟨inputs, records, options.timeZone, options.nullCheck, absent⟩ := by
  rw [Session.environment, behind.inputs, behind.options]

end Behind

section Built

variable {inputs : List Input} {given : GivenOptions} {options : Options} {q : Query}

/-- A projection gives the values of its expressions. -/
theorem Query.run_projection [TimeZones] {es : List Expr}
    (resolved : Options.resolve given = .ok options)
    (built : (Query.projection inputs es given).outcome = .ok q) (records : List Value) :
    q.run records = do
      return .array .made (← Expr.project
        ⟨inputs, records, options.timeZone, options.nullCheck, Ty.defaultValue⟩ es) := by
  obtain ⟨s, gs, created, serves, returned⟩ := Query.of_projectionWith built
  have behind := Session.behind_of_create resolved created
  rw [serves.run_projection behind.eval_defaults returned records, behind.environment]

/-- A filter gives the verdict on its predicate. -/
theorem Query.run_filter [TimeZones] {e : Expr} (resolved : Options.resolve given = .ok options)
    (built : (Query.filter inputs e given).outcome = .ok q) (records : List Value) :
    q.run records = do
      return .bool
        (← e.accepts ⟨inputs, records, options.timeZone, options.nullCheck,
          Ty.defaultValue⟩) := by
  obtain ⟨s, g, created, serves, returned⟩ := Query.of_filterWith built
  have behind := Session.behind_of_create resolved created
  rw [serves.run_filter behind.eval_defaults returned records, behind.environment]

end Built

/-- Where nothing is absent, no flag of any node is set at the end of a run. -/
theorem Query.Serves.flagsUnset [TimeZones] {q : Query} {s : Session} {es : List Expr}
    {gs : List Generated} {inputs : List Input} {options : Options} {records : List Value}
    (serves : q.Serves s es gs) (behind : s.Behind inputs options)
    (checked : options.nullCheck = true) (present : ∀ e ∈ es, e.Present inputs records) :
    q.FlagsUnset inputs es records := by
  intro e listed node inside
  have tracked : s.options.nullCheck = true := by rw [behind.options, checked]
  obtain ⟨before, c, after, k, made, body, holds⟩ :=
    serves.flag_get behind.eval_defaults tracked listed inside records
  rw [behind.setting, checked] at made
  refine ⟨before, c, after, k, made, body, fun part σ early ran => ?_⟩
  obtain ⟨o, evaluated, flag⟩ := holds part σ early ran
  rw [behind.environment] at evaluated
  have nodePresent := (present e listed).sub (Expr.nodes_subset_of_mem inside)
  rw [flag, (nodePresent.outcome checked evaluated).1]

/-! ## Expressions that call methods -/

/-- An input with a date, a character, and a text and a bound in it. -/
def Input.asked : List Input :=
  [⟨"row", .plain .pojo [.mk "d" (.basic .date), .mk "c" (.basic .char), .mk "s" (.basic .string),
    .mk "n" (.basic .int)]⟩]

/-- One record, with the same value for all fields. -/
def Value.asked (v : Value) : List Value :=
  [.record (.given 0) [("d", v), ("c", v), ("s", v), ("n", v)]]

/-- A record that can stand where a date or a text is declared: every method that evaluation calls
gives `w`. -/
def Value.answering (w : Value) : Value :=
  .record (.given 1) (Value.calledMethods.map fun method => (method, .method (.given 2) w))

/-- A date one second after the epoch. -/
def Value.firstSecond : Value := .date (.given 1) (Time.ofMillis 1000)

/-- Options that do not ask for absent values to be tracked. -/
def GivenOptions.untracked : GivenOptions := .members [("nullCheck", .value (.bool false))]

def Expr.timeOfDate : Expr := .cast (.field "d" (.basic .date)) (.basic .long)

/-- The part of the text from the bound to the bound. -/
def Expr.partOfText : Expr :=
  .substring (.field "s" (.basic .string)) (.field "n" (.basic .int)) (.field "n" (.basic .int))
    (.basic .string)

def Expr.codeOfChar : Expr := .cast (.field "c" (.basic .char)) (.basic .double)

/-- One expression for each method that evaluation calls. -/
def Expr.callers : List Expr := [.timeOfDate, .codeOfChar, .partOfText]

/-- A null test of such an expression. -/
def Expr.lacks (e : Expr) : Expr := .isNull e .boolean

section Callers

variable {e : Expr} (listed : e ∈ Expr.callers)

include listed

theorem Expr.reads_lacks {p : Value → Prop} {v : Value} (fine : p v) :
    e.lacks.Reads p Input.asked (Value.asked v) := by
  intro name type inside w read
  have named : name = "d" ∨ name = "c" ∨ name = "s" ∨ name = "n" := by
    simp only [callers, List.mem_cons, List.not_mem_nil, or_false] at listed
    rcases listed with rfl | rfl | rfl
    all_goals
      simp only [lacks, timeOfDate, partOfText, codeOfChar, nodes, List.mem_cons, List.mem_append,
        List.not_mem_nil, or_false, reduceCtorEq, false_or, field.injEq] at inside
      grind
  rcases named with rfl | rfl | rfl | rfl
  all_goals
    cases read
    exact fine

theorem Expr.literals_lacks (type : Ty) : .literal .null type ∉ e.lacks.nodes := by
  simp only [callers, List.mem_cons, List.not_mem_nil, or_false] at listed
  rcases listed with rfl | rfl | rfl
  all_goals simp [lacks, timeOfDate, partOfText, codeOfChar, nodes]

/-- A field that answers null is not absent itself. -/
theorem Expr.not_exposesAbsence_answering (w : Value) :
    ¬ e.ExposesAbsence Input.asked (Value.asked (.answering w)) := by
  rintro ⟨leaf, exposed, absent⟩
  have found : e.exposed.any (isAbsentLeaf Input.asked (Value.asked (.answering w))) = true :=
    List.any_eq_true.2 ⟨leaf, exposed, absent⟩
  simp only [callers, List.mem_cons, List.not_mem_nil, or_false] at listed
  rcases listed with rfl | rfl | rfl
  all_goals cases found

end Callers

/-! ## Queries without absent leaves -/

section Host

open scoped Offsets

end Host

/-! ## Nullity of projected values -/

/-- A shown value is null if an absent leaf is exposed. The converse asks for fields that
read absent or solid values, and then nothing is undefined. -/
theorem Outcome.shown_eq_null [TimeZones] {env : Environment} (checked : env.nullCheck = true)
    {e : Expr} {o : Outcome} (evaluated : e.eval env = .ok o) :
    (e.ExposesAbsence env.inputs env.records → o.shown = .null) ∧
      (e.Reads (fun v => v.isAbsent = true ∨ v.Solid) env.inputs env.records →
        (o.shown = .null ↔ e.ExposesAbsence env.inputs env.records) ∧ o.shown ≠ .undefined) := by
  rw [← Expr.isNull_iff_of_eval checked evaluated]
  unfold Outcome.shown
  cases set : o.isNull with
  | true => exact ⟨fun _ => rfl, fun _ => ⟨⟨fun _ => rfl, fun _ => rfl⟩, Value.noConfusion⟩⟩
  | false =>
    refine ⟨fun absent => absurd absent Bool.false_ne_true, fun reads => ?_⟩
    have present := (Expr.solid_of_present checked reads evaluated set).isAbsent_eq_false
    rw [if_neg Bool.false_ne_true]
    refine ⟨⟨fun null => ?_, fun absent => absurd absent Bool.false_ne_true⟩, fun undefined => ?_⟩
    · rw [null] at present
      cases present
    · rw [undefined] at present
      cases present

/-- In a session that tracks absent values, the flag of an accepted expression is exact. -/
theorem Session.Sound.flag_exact [TimeZones] {s s' t : Session} {e : Expr} {g : Generated}
    {absent : Ty → Value} (sound : s.Sound)
    (defaults : ∀ type σ, (s.defaults type).eval σ = .ok (absent type))
    (checked : s.options.nullCheck = true)
    (accepted : s.draft (e.generate s.setting) = (.ok g, s')) (later : s'.Grows t)
    (codes : List Generated) (returns : Returned) :
    ∃ ev : Evaluator, (t.unit codes returns).factory.load = .ok (some ev) ∧
      ∀ (records : List Value) (σ σ' : Scope), (ev.entry records).SameGlobals σ →
        g.code.run σ = .ok σ' →
        ∃ b, σ'.get g.isNull = .ok (.bool b) ∧
          (b = true ↔ e.ExposesAbsence s.inputs records) := by
  obtain ⟨-, ev, loaded, agrees⟩ := sound.code_agrees defaults accepted later codes returns
  refine ⟨ev, loaded, fun records σ σ' same ran => ?_⟩
  obtain ⟨o, evaluated, holds⟩ := (agrees records σ same).of_finished ran
  exact ⟨o.isNull, holds.flag checked, Expr.isNull_iff_of_eval checked evaluated⟩

/-- What a projection that stops at no fault gives. -/
theorem Query.shown_of_run [TimeZones] {inputs : List Input} {given : GivenOptions}
    {options : Options} {es : List Expr} {q : Query}
    (resolved : Options.resolve given = .ok options)
    (built : (Query.projection inputs es given).outcome = .ok q) {records : List Value}
    {v : Value} (ran : q.run records = .ok v) :
    ∃ os : List Outcome, v = .array .made (os.map Outcome.shown) ∧ List.Forall₂ (fun e o =>
      e.eval ⟨inputs, records, options.timeZone, options.nullCheck, Ty.defaultValue⟩ =
        .ok o) es os := by
  rw [Query.run_projection resolved built] at ran
  obtain ⟨vs, projected, done⟩ := of_bind_eq_ok ran
  cases done
  obtain ⟨os, evaluated, done⟩ := of_bind_eq_ok projected
  cases done
  exact ⟨os, rfl, Expr.forall₂_of_evalAll evaluated⟩

section Host

open scoped Offsets

end Host

end RowExpr
