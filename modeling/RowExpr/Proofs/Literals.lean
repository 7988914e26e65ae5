import RowExpr.Calendar.Offsets
import RowExpr.Proofs.Built
import RowExpr.Proofs.Number.SignedZero
import RowExpr.Proofs.SourceText

/-!
Literals keep their values.

What a projection of literals returns is compared with the literals themselves
(`Literal.Keeps`): booleans, texts and dates come back as they are, integers as the same
integer, and other numbers as the same number, with one exception. The text of a number does
not show the sign of a zero, so the negative zero comes back as the positive one. The source of
the projection answers as the projection does, so the same values come back when it is read as a
text (`Query.literals_kept`).
-/

namespace RowExpr

/-- The value that a literal of a type comes back as. The negative zero loses its sign. -/
inductive Literal.Keeps : Literal → Ty → Value → Prop
  | bool (b : Bool) : Literal.Keeps (.bool b) .boolean (.bool b)
  | text (t : Text) : Literal.Keeps (.text t) .string (.text t)
  | date (t : Instant) : Literal.Keeps (.date (some t)) (.basic .date) (.date .constant (some t))
  | int {x y : Double} {n : Int} :
    x.toInt? = some n → y.toInt? = some n → Literal.Keeps (.number x) (.basic .int) (.number y)
  | long {x y : Double} {n : Int} :
    x.toInt? = some n → y.toInt? = some n → Literal.Keeps (.number x) (.basic .long) (.number y)
  | double {x : Double} : x ≠ .negativeZero →
    Literal.Keeps (.number x) (.basic .double) (.number x)
  | float {x : Double} : x ≠ .negativeZero → Literal.Keeps (.number x) (.basic .float)
    (.number x.toSingle)
  | doubleZero : Literal.Keeps (.number .negativeZero) (.basic .double) (.number (.zero false))
  | floatZero : Literal.Keeps (.number .negativeZero) (.basic .float) (.number (.zero false))

/-! ## Values -/

/-- Every number but the negative zero is read back from its text. -/
theorem Double.written_eq_self {x : Double} (other : x ≠ .negativeZero) : x.written = x := by
  cases x with
  | nan => rfl
  | infinite neg => rfl
  | finite neg rank =>
    by_cases zero : rank.val = 0
    · cases neg with
      | true => exact absurd (Double.finite_eq_zero.2 ⟨rfl, zero⟩) other
      | false =>
        exact (Double.written_of_zero zero false).trans (Double.finite_eq_zero.2 ⟨rfl, zero⟩).symm
    · exact Double.written_finite zero neg

theorem Double.written_negativeZero : Double.negativeZero.written = .zero false :=
  Double.written_of_zero rfl true

/-- A legal literal evaluates to the value it was made of. -/
theorem Literal.keeps_eval {value : Literal} {type : Ty} (legal : value.Legal type)
    (present : value ≠ .null) : value.Keeps type (value.eval type) := by
  cases legal with
  | null => exact absurd rfl present
  | int whole => exact .int whole (Double.toInt?_written whole)
  | long whole => exact .long whole (Double.toInt?_written whole)
  | @double x =>
    show Literal.Keeps _ _ (.number x.written)
    by_cases zero : x = .negativeZero
    · subst zero
      rw [Double.written_negativeZero]
      exact .doubleZero
    · rw [Double.written_eq_self zero]
      exact .double zero
  | @float x =>
    show Literal.Keeps _ _ (.number x.written.toSingle)
    by_cases zero : x = .negativeZero
    · subst zero
      rw [Double.written_negativeZero, Double.toSingle_zero]
      exact .floatZero
    · rw [Double.written_eq_self zero]
      exact .float zero
  | string => exact .text _
  | boolean => exact .bool _
  | date => exact .date _

/-! ## Lists of literals -/

/-- The expressions of literals of types. -/
def Literal.exprs (ls : List (Literal × Ty)) : List Expr := ls.map fun l => .literal l.1 l.2

section Lists

variable {ls : List (Literal × Ty)} (present : ∀ l ∈ ls, l.1 ≠ .null)

include present

/-- A projection of literals gives their values, whatever the records are. -/
theorem Literal.project_exprs [TimeZones] (env : Environment) :
    Expr.project env (Literal.exprs ls) = .ok (ls.map fun l => l.1.eval l.2) := by
  have outcomes : Expr.evalAll env (Literal.exprs ls) =
      .ok (ls.map fun l => ⟨l.1.eval l.2, false⟩) := by
    induction ls with
    | nil => rfl
    | cons l ls ih =>
      obtain ⟨here, present⟩ := List.forall_mem_cons.1 present
      have first : (Expr.literal l.1 l.2).eval env = .ok ⟨l.1.eval l.2, false⟩ := by
        rw [Expr.eval, beq_eq_false_iff_ne.2 here, Bool.and_false]
        rfl
      rw [Literal.exprs, List.map_cons, Expr.evalAll, first]
      show (do let os ← Expr.evalAll env (Literal.exprs ls); _) = _
      rw [ih present]
      rfl
  rw [Expr.project, outcomes]
  show Except.ok (List.map _ (List.map _ ls)) = _
  rw [List.map_map]
  rfl

end Lists

/-! ## Projections -/

section Projections

variable [TimeZones] {inputs : List Input} {given : GivenOptions}
    {ls : List (Literal × Ty)} {q : Query}
  (present : ∀ l ∈ ls, l.1 ≠ .null)
    (built : (Query.projection inputs (Literal.exprs ls) given).outcome = .ok q)

include present built

theorem Query.run_literals (records : List Value) :
    q.run records = .ok (.array .made (ls.map fun l => l.1.eval l.2)) := by
  obtain ⟨s, gs, created, serves, returned⟩ := Query.of_projectionWith built
  rw [serves.run_projection (Session.eval_defaults created (.refl s)) returned records,
    Literal.project_exprs present]
  rfl

omit present in
/-- A projection of literals reads no fields, so its source answers as it does. -/
theorem Query.readsBack_literals : q.ReadsBack := by
  refine Query.readsBack_projection built fun s _ => List.forall_mem_map.2 fun l _ => ?_
  intro name type inside
  cases List.mem_singleton.1 inside

end Projections

/-- A projection of literals that can be built returns them, for all records and in every mode.
Each value is the literal, save for the sign of a negative zero. The text of the projection loads
as a unit that returns the same values. -/
theorem Query.literals_kept [TimeZones] {inputs : List Input} {given : GivenOptions}
    {ls : List (Literal × Ty)} {q : Query} (present : ∀ l ∈ ls, l.1 ≠ .null)
    (built : (Query.projection inputs (ls.map fun l => .literal l.1 l.2) given).outcome = .ok q) :
    ∃ vs, List.Forall₂ (fun l v => l.1.Keeps l.2 v) ls vs ∧
      (∀ records, q.run records = .ok (.array .made vs)) ∧
      ∀ sink : Sink, sink.reply = .ok () → ∃ ev,
        (Loader.loadSource sink q.source).outcome = .ok ev ∧
        ∀ records, ev.run records = .ok (.array .made vs) := by
  have runs := Query.run_literals present built
  refine ⟨ls.map fun l => l.1.eval l.2, ?_, runs, fun sink replied => ?_⟩
  · have legal := (Query.projection_built_iff.1 ⟨q, built⟩).2
    refine List.forall₂_map_right_iff.2 (List.forall₂_same.2 fun l listed => ?_)
    have node := legal _ (List.mem_map_of_mem listed) _ List.mem_cons_self
    exact Literal.keeps_eval node (present l listed)
  · obtain ⟨ev, loaded, same⟩ := Query.readsBack_literals built sink replied
    exact ⟨ev, loaded, fun records => (same records).trans (runs records)⟩

/-- The negative zero, no number, a text that is hard to quote, and dates on both sides of the
epoch, one of them twice. -/
def Literal.rare : List (Literal × Ty) :=
  [(.number .negativeZero, .basic .double), (.number .nan, .basic .float),
    (.text Text.hostile, .string), (.date (Time.ofMillis (-1)), .basic .date),
    (.date (Time.ofMillis 1), .basic .date), (.date (Time.ofMillis (-1)), .basic .date)]

theorem Literal.legal_rare : ∀ l ∈ Literal.rare, l.1.Legal l.2 := by
  unfold Literal.rare
  simp only [List.forall_mem_cons]
  exact ⟨.double, .float, .string, .date, .date, .date, List.forall_mem_nil _⟩

section Host

open scoped Offsets

/-- All come back but the negative zero, which is zero both before and after its text is read. -/
theorem Query.literals_kept_rare :
    ∃ (q : Query) (ev : Evaluator) (v : Value),
      (Query.projection Input.hostile (Literal.rare.map fun l => .literal l.1 l.2)
        (.members [])).outcome = .ok q ∧
      (∀ l ∈ Literal.rare, l.1 ≠ .null) ∧
      (Loader.loadSource (.levels []) q.source).outcome = .ok ev ∧
      q.run [] = .ok v ∧ ev.run [] = .ok v ∧
      v = .array .made [.number (.zero false), .number .nan, .text Text.hostile,
        .date .constant (Time.ofMillis (-1)),
        .date .constant (Time.ofMillis 1), .date .constant (Time.ofMillis (-1))] := by
  have present : ∀ l ∈ Literal.rare, l.1 ≠ .null := by
    unfold Literal.rare
    simp
  have legal : ∀ e ∈ Literal.rare.map fun l => Expr.literal l.1 l.2, e.AllLegal Input.hostile :=
    List.forall_mem_map.2 fun l listed => List.forall_mem_singleton.2
      (Literal.legal_rare l listed)
  have possible : Query.Possible Input.hostile (.members []) := ⟨_, rfl, rfl⟩
  obtain ⟨q, built⟩ := Query.projection_built_iff.2 ⟨possible, legal⟩
  obtain ⟨vs, kept, runs, loads⟩ := Query.literals_kept present built
  obtain ⟨ev, loaded, runs'⟩ := loads (.levels []) rfl
  refine ⟨q, ev, _, built, present, loaded, runs [], runs' [], ?_⟩
  rcases kept with _ | ⟨zero,
    _ | ⟨single, _ | ⟨text, _ | ⟨early, _ | ⟨late, _ | ⟨again, _ | _⟩⟩⟩⟩⟩⟩
  cases single
  cases text
  cases early
  cases late
  cases again
  cases zero with
  | double other => exact absurd rfl other
  | doubleZero => rfl

end Host

end RowExpr
