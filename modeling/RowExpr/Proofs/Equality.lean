import RowExpr.Calendar.Offsets
import RowExpr.Proofs.Number.SignedZero
import RowExpr.Proofs.Projection
import RowExpr.Proofs.TypeSafety

/-!
Equality of expressions of basic types.

Which test an equality becomes depends on the declared types of its operands alone: strict
equality of two values, strict equality of the times of two dates, or equality of their structure.
On values of these types the three are one relation, also for operands of two different types
(`Value.equality_eq_equals`). The values that have to be left out are NaN and dates without a
time, which are not strictly equal to themselves, and the two zeros, which are strictly equal
but differ in structure. The relation is symmetric, and inequality is its negation for all
records whatsoever (`Query.equality_is_structural`).
-/

namespace RowExpr

/-- The value is neither NaN nor a date without a time. -/
def Value.isDefinite : Value → Bool
  | .number x => !x.isNaN
  | .date _ t => t.isSome
  | _ => true

/-- The values are the two zeros. -/
def Value.OppositeZeros (v w : Value) : Prop :=
  ∃ neg, v = .number (.zero neg) ∧ w = .number (.zero (!neg))

theorem Value.OppositeZeros.symm {v w : Value} (zeros : v.OppositeZeros w) :
    w.OppositeZeros v := by
  obtain ⟨neg, left, right⟩ := zeros
  refine ⟨!neg, right, ?_⟩
  rw [left, Bool.not_not]

/-- A value of a basic type is present. -/
theorem Value.isAbsent_of_kind? {v : Value} {k : Kind} (kind : v.kind? = some k) :
    v.isAbsent = false := by
  cases v with
  | undefined => cases kind
  | null => cases kind
  | _ => rfl

/-! ## Numbers and times -/

section Numbers

variable {x y : Double}

/-- Numerical equality is identity, apart from NaN and the zeros. -/
theorem Double.eq_eq_beq (definite : x.isNaN = false)
    (zeros : ∀ neg, ¬ (x = zero neg ∧ y = zero (!neg))) : x.eq y = (x == y) := by
  cases x with
  | nan => cases definite
  | infinite s => cases y <;> rfl
  | finite s r =>
    cases y with
    | nan => rfl
    | infinite t => rfl
    | finite t q =>
      refine Bool.eq_iff_iff.2 ?_
      rw [Double.eq, Bool.and_eq_true, Bool.or_eq_true, beq_iff_eq, beq_iff_eq,
        beq_iff_eq, beq_iff_eq, Double.finite.injEq]
      constructor
      · rintro ⟨rfl, same | none⟩
        · exact ⟨same, rfl⟩
        · refine ⟨not_not.1 fun other => ?_, rfl⟩
          exact zeros s
            ⟨finite_eq_zero.2 ⟨rfl, none⟩, finite_eq_zero.2 ⟨Bool.eq_not.2 (Ne.symm other), none⟩⟩
      · rintro ⟨rfl, rfl⟩
        exact ⟨rfl, .inl rfl⟩

theorem Double.isNaN_ofInt {n : Int} (small : n.natAbs < 2 ^ 53) : (ofInt n).isNaN = false := by
  obtain ⟨rank, number, -⟩ := ofInt_of_small small
  rw [number]
  rfl

/-- Times are compared by their numbers. -/
theorem Time.eq_toDouble {s t : Time} (left : s.isSome = true) (right : t.isSome = true) :
    s.toDouble.eq t.toDouble = (s == t) := by
  obtain ⟨i, rfl⟩ := Option.isSome_iff_exists.1 left
  obtain ⟨j, rfl⟩ := Option.isSome_iff_exists.1 right
  have smallLeft := i.natAbs_millis_lt
  have smallRight := j.natAbs_millis_lt
  have zeros (neg : Bool) :
      ¬ (Double.ofInt i.millis = .zero neg ∧ Double.ofInt j.millis = .zero (!neg)) := by
    rintro ⟨first, second⟩
    cases neg with
    | false => exact Double.ofInt_ne_negativeZero _ second
    | true => exact Double.ofInt_ne_negativeZero _ first
  rw [Time.toDouble, Time.toDouble, Double.eq_eq_beq (Double.isNaN_ofInt smallLeft) zeros]
  refine Bool.eq_iff_iff.2 ?_
  rw [beq_iff_eq, beq_iff_eq, Option.some.injEq]
  constructor
  · intro same
    have millis := Double.toInt?_ofInt smallLeft
    rw [same, Double.toInt?_ofInt smallRight, Option.some.injEq] at millis
    cases i
    cases j
    cases millis
    rfl
  · rintro rfl
    rfl

end Numbers

/-! ## Values -/

section Values

variable {a b : Basic} {v w : Value} {i j : Identity} {s t : Time}

/-- All basic types but dates have values that are no objects. -/
theorem Basic.of_ne_date (plain : a ≠ .date) :
    a.kind ≠ .date ∧ (Ty.basic a).hasValueIdentity = true ∧
      (Ty.basic a).isBasicNamed .date = false := by
  rcases a with p | _ | _
  · exact ⟨by cases p <;> decide, rfl, rfl⟩
  · exact ⟨by decide, rfl, rfl⟩
  · exact absurd rfl plain

/-- Dates with a time are equal if their times are, whichever objects they are. -/
theorem Value.equals_date (valid : s.isSome = true) :
    (Value.date i s).equals (.date j t) = (s == t) := by
  rw [Value.equals, valid, Bool.true_and]
  cases i with
  | given m =>
    cases j with
    | given n =>
      show ((m == n && s == t) || s == t) = (s == t)
      cases s == t
      · rw [Bool.and_false, Bool.or_false]
      · exact Bool.or_true _
    | constant => rfl
    | made => rfl
  | constant =>
    cases j with
    | given n => rfl
    | constant => exact Bool.or_self _
    | made => rfl
  | made => cases j <;> rfl

/-- A value that is no object is strictly equal to what it is equal to. -/
theorem Value.strictEq_eq_equals {k : Kind} (kind : v.kind? = some k) (plain : k ≠ .date)
    (definite : v.isDefinite = true) (zeros : ¬ v.OppositeZeros w) :
    v.strictEq w = v.equals w := by
  cases v with
  | number x =>
    cases w with
    | number y =>
      rw [Value.strictEq, Value.equals]
      refine Double.eq_eq_beq ((Bool.not_eq_true' _).mp definite) fun neg both =>
        zeros ⟨neg, ?_, ?_⟩
      · rw [both.1]
      · rw [both.2]
    | _ => rfl
  | bool b => cases w <;> rfl
  | text t => cases w <;> rfl
  | date i t =>
    cases kind
    exact absurd rfl plain
  | _ => cases kind

/-- The times of two dates are strictly equal if the dates are equal. -/
theorem Value.equality_dates (left : s.isSome = true) (right : t.isSome = true) :
    Value.equality (.basic .date) (.basic .date) (.date i s) (.date j t) =
      .ok ((Value.date i s).equals (.date j t)) := by
  rw [Value.equals_date left, ← Time.eq_toDouble left right]
  rfl

/-- The test that two types lead to is the equality of structure. -/
theorem Value.equality_eq_equals (left : v.kind? = some a.kind) (right : w.kind? = some b.kind)
    (definite : v.isDefinite = true) (definite' : w.isDefinite = true)
    (zeros : ¬ v.OppositeZeros w) :
    Value.equality (.basic a) (.basic b) v w = .ok (v.equals w) := by
  have noIdentity : (Ty.basic .date).hasValueIdentity = false := rfl
  by_cases date : a = .date
  · subst date
    by_cases date' : b = .date
    · subst date'
      obtain ⟨i, s, rfl⟩ := Value.kind?_eq_date.1 left
      obtain ⟨j, t, rfl⟩ := Value.kind?_eq_date.1 right
      exact Value.equality_dates definite definite'
    · obtain ⟨-, -, unnamed⟩ := Basic.of_ne_date date'
      unfold Value.equality
      rw [noIdentity, unnamed, Bool.false_and, Bool.and_false]
      rfl
  · obtain ⟨plain, identity, unnamed⟩ := Basic.of_ne_date date
    by_cases date' : b = .date
    · subst date'
      unfold Value.equality
      rw [noIdentity, unnamed, Bool.and_false, Bool.false_and]
      rfl
    · obtain ⟨-, identity', -⟩ := Basic.of_ne_date date'
      unfold Value.equality
      rw [identity, identity', Bool.and_true, if_pos rfl,
        Value.strictEq_eq_equals left plain definite zeros]
      rfl

/-- Equality of definite values does not depend on their order. -/
theorem Value.equals_comm {k l : Kind} (left : v.kind? = some k) (right : w.kind? = some l)
    (definite : v.isDefinite = true) (definite' : w.isDefinite = true) :
    v.equals w = w.equals v := by
  cases v with
  | number x =>
    cases w with
    | number y =>
      rw [Value.equals, Value.equals]
      exact BEq.comm
    | _ => rfl
  | bool x =>
    cases w with
    | bool y =>
      rw [Value.equals, Value.equals]
      exact BEq.comm
    | _ => rfl
  | text x =>
    cases w with
    | text y =>
      rw [Value.equals, Value.equals]
      exact BEq.comm
    | _ => rfl
  | date i s =>
    cases w with
    | date j t =>
      rw [Value.equals_date definite, Value.equals_date definite']
      exact BEq.comm
    | _ => rfl
  | _ => cases left

end Values

/-! ## Expressions -/

/-- Two outcomes are absent both, or present with opposite truth values. -/
inductive Outcome.Opposite : Outcome → Outcome → Prop
  | absent (v w : Value) : Outcome.Opposite ⟨v, true⟩ ⟨w, true⟩
  | present (c : Bool) : Outcome.Opposite ⟨.bool c, false⟩ ⟨.bool (!c), false⟩

/-- An inequality stops where the equality stops, with the same error, and is its opposite
anywhere else. -/
theorem Expr.eval_ne [TimeZones] (env : Environment) (left right : Expr) (type : Ty) :
    (∃ f, (Expr.binary .eq left right type).eval env = .error f ∧
      (Expr.binary .ne left right type).eval env = .error f) ∨
    ∃ o o', (Expr.binary .eq left right type).eval env = .ok o ∧
      (Expr.binary .ne left right type).eval env = .ok o' ∧ o.Opposite o' := by
  cases evaluatedLeft : left.eval env with
  | error f =>
    refine .inl ⟨f, ?_, ?_⟩
    · rw [Expr.eval, evaluatedLeft]
      rfl
    · rw [Expr.eval, evaluatedLeft]
      rfl
  | ok l =>
    cases evaluatedRight : right.eval env with
    | error f =>
      refine .inl ⟨f, ?_, ?_⟩
      · rw [Expr.eval, evaluatedLeft, evaluatedRight]
        rfl
      · rw [Expr.eval, evaluatedLeft, evaluatedRight]
        rfl
    | ok r =>
      have equal : (Expr.binary .eq left right type).eval env =
        env.guarded (l.isNull || r.isNull) .boolean
          (BinaryOp.eq.eval type left.type right.type l.value r.value) := by
        rw [Expr.eval, evaluatedLeft, evaluatedRight]
        rfl
      have unequal : (Expr.binary .ne left right type).eval env =
        env.guarded (l.isNull || r.isNull) .boolean
          (BinaryOp.ne.eval type left.type right.type l.value r.value) := by
        rw [Expr.eval, evaluatedLeft, evaluatedRight]
        rfl
      rw [equal, unequal, BinaryOp.eval, BinaryOp.eval]
      cases l.isNull || r.isNull with
      | true => exact .inr ⟨_, _, rfl, rfl, .absent _ _⟩
      | false =>
        cases Value.equality left.type right.type l.value r.value with
        | error f => exact .inl ⟨f, rfl, rfl⟩
        | ok c => exact .inr ⟨_, _, rfl, rfl, .present c⟩

/-! ## Projections -/

/-- On the records, one projection stops with the same error as the other, or both give null, or
they give opposite truth values. -/
def Query.Opposes [TimeZones] (q q' : Query) (records : List Value) : Prop :=
  (∃ f, q.run records = .error f ∧ q'.run records = .error f) ∨
    (q.Returns records .null ∧ q'.Returns records .null) ∨
    ∃ c, q.Returns records (.bool c) ∧ q'.Returns records (.bool (!c))

/-- Where equality gives a truth value, inequality gives the other. -/
theorem Query.Opposes.returns [TimeZones] {q q' : Query} {records : List Value}
    (opposes : q.Opposes q' records) {c : Bool} (returns : q.Returns records (.bool c)) :
    q'.Returns records (.bool (!c)) := by
  rcases opposes with ⟨f, stopped, -⟩ | ⟨absent, -⟩ | ⟨c', present, opposite⟩
  · cases returns.symm.trans stopped
  · cases returns.symm.trans absent
  · cases returns.symm.trans present
    exact opposite

/-- Inequality opposes equality on all records. -/
theorem Query.opposes_ne [TimeZones] {inputs : List Input} {given : GivenOptions}
    {left right : Expr} {type : Ty} {q q' : Query}
    (built : (Query.projection inputs [.binary .eq left right type] given).outcome = .ok q)
    (built' : (Query.projection inputs [.binary .ne left right type] given).outcome = .ok q')
    (records : List Value) : q.Opposes q' records := by
  obtain ⟨⟨new, created, -⟩, -⟩ := Query.projection_built_iff.1 ⟨q, built⟩
  have equal := @Query.run_single _ _ _ _ _ _ created built records
  have unequal := @Query.run_single _ _ _ _ _ _ created built' records
  rcases Expr.eval_ne (new.environment Ty.defaultValue records) left right type with
    ⟨f, stopped, stopped'⟩ | ⟨o, o', evaluated, evaluated', opposite⟩
  · rw [stopped] at equal
    rw [stopped'] at unequal
    exact .inl ⟨f, equal, unequal⟩
  · rw [evaluated] at equal
    rw [evaluated'] at unequal
    cases opposite with
    | absent v w => exact .inr (.inl ⟨equal, unequal⟩)
    | present c => exact .inr (.inr ⟨c, equal, unequal⟩)

/-- Equality is one relation, for all inputs and options and all operands of basic types that can
be compiled. The two equalities, in either order, and the inequality can then be compiled too. On
all records the inequality is the negation of the equality, absent where it is absent. On records
on which the operands give values of the kinds of their types, neither NaN nor a date without a
time, nor the two zeros, each equality is the equality of structure of the two values. -/
theorem Query.equality_is_structural [TimeZones] {inputs : List Input} {given : GivenOptions}
    {left right : Expr} {p p' : Query} {a b : Basic}
    (builtLeft : (Query.projection inputs [left] given).outcome = .ok p)
    (builtRight : (Query.projection inputs [right] given).outcome = .ok p')
    (typedLeft : left.type = .basic a) (typedRight : right.type = .basic b) (type : Ty) :
    ∃ equal swapped unequal : Query,
      (Query.projection inputs [.binary .eq left right type] given).outcome = .ok equal ∧
      (Query.projection inputs [.binary .eq right left type] given).outcome = .ok swapped ∧
      (Query.projection inputs [.binary .ne left right type] given).outcome = .ok unequal ∧
      (∀ records, equal.Opposes unequal records) ∧
      ∀ records v w, p.Returns records v → p'.Returns records w →
        v.kind? = some a.kind → w.kind? = some b.kind → v.isDefinite = true →
        w.isDefinite = true →
        ¬ v.OppositeZeros w →
        equal.Returns records (.bool (v.equals w)) ∧
        swapped.Returns records (.bool (v.equals w)) ∧
          unequal.Returns records (.bool (!v.equals w)) := by
  obtain ⟨equal, builtEqual, compares⟩ := Query.exists_binary builtLeft builtRight .eq type
  obtain ⟨swapped, builtSwapped, compares'⟩ := Query.exists_binary builtRight builtLeft .eq type
  obtain ⟨unequal, builtUnequal, -⟩ := Query.exists_binary builtLeft builtRight .ne type
  have opposes := Query.opposes_ne builtEqual builtUnequal
  refine ⟨equal, swapped, unequal, builtEqual, builtSwapped, builtUnequal, opposes, ?_⟩
  intro records v w returns returns' kind kind' definite definite' zeros
  have present := Value.isAbsent_of_kind? kind
  have present' := Value.isAbsent_of_kind? kind'
  have equals : equal.Returns records (.bool (v.equals w)) := by
    rw [Query.returns_of_run (compares records v w present present' returns returns'),
      typedLeft, typedRight, BinaryOp.eval,
      Value.equality_eq_equals kind kind' definite definite' zeros]
    rfl
  refine ⟨equals, ?_, (opposes records).returns equals⟩
  rw [Query.returns_of_run (compares' records w v present' present returns' returns),
    typedLeft, typedRight, BinaryOp.eval,
    Value.equality_eq_equals kind' kind definite' definite (mt Value.OppositeZeros.symm zeros),
    Value.equals_comm kind' kind definite' definite]
  rfl

def Input.moments : List Input :=
  [⟨"row", .plain .pojo [.mk "d" (.basic .date), .mk "e" (.basic .date), .mk "t" .string]⟩]

/-- Two dates of one time, and a text. -/
def Value.moments : List Value :=
  [.record (.given 0)
    [("d", .date (.given 1) (Time.ofMillis (-1))), ("e", .date (.given 2) (Time.ofMillis (-1))),
      ("t", .text "-1")]]

section Host

open scoped Offsets

/-- Two dates are equal although they are two objects, and none is equal to a text, in either
order. -/
theorem Query.equality_is_structural_moments :
    ∃ d e t equal swapped unequal equal' swapped' unequal' : Query,
      (Query.projection Input.moments [.field "d" (.basic .date)] (.members [])).outcome = .ok d ∧
      (Query.projection Input.moments [.field "e" (.basic .date)] (.members [])).outcome = .ok e ∧
      (Query.projection Input.moments [.field "t" .string] (.members [])).outcome = .ok t ∧
      (Query.projection Input.moments
        [.binary .eq (.field "d" (.basic .date)) (.field "e" (.basic .date)) .boolean]
        (.members [])).outcome = .ok equal ∧
      (Query.projection Input.moments
        [.binary .eq (.field "e" (.basic .date)) (.field "d" (.basic .date)) .boolean]
        (.members [])).outcome = .ok swapped ∧
      (Query.projection Input.moments
        [.binary .ne (.field "d" (.basic .date)) (.field "e" (.basic .date)) .boolean]
        (.members [])).outcome = .ok unequal ∧
      (Query.projection Input.moments
        [.binary .eq (.field "d" (.basic .date)) (.field "t" .string) .boolean]
        (.members [])).outcome = .ok equal' ∧
      (Query.projection Input.moments
        [.binary .eq (.field "t" .string) (.field "d" (.basic .date)) .boolean]
        (.members [])).outcome = .ok swapped' ∧
      (Query.projection Input.moments
        [.binary .ne (.field "d" (.basic .date)) (.field "t" .string) .boolean]
        (.members [])).outcome = .ok unequal' ∧
      equal.Returns Value.moments (.bool true) ∧ swapped.Returns Value.moments (.bool true) ∧
      unequal.Returns Value.moments (.bool false) ∧ equal'.Returns Value.moments (.bool false) ∧
      swapped'.Returns Value.moments (.bool false) ∧
      unequal'.Returns Value.moments (.bool true) := by
  obtain ⟨d, builtD, returnsD⟩ : ∃ d : Query,
      (Query.projection Input.moments [.field "d" (.basic .date)] (.members [])).outcome = .ok d ∧
      d.Returns Value.moments (.date (.given 1) (Time.ofMillis (-1))) := ⟨_, rfl, rfl⟩
  obtain ⟨e, builtE, returnsE⟩ : ∃ e : Query,
      (Query.projection Input.moments [.field "e" (.basic .date)] (.members [])).outcome = .ok e ∧
      e.Returns Value.moments (.date (.given 2) (Time.ofMillis (-1))) := ⟨_, rfl, rfl⟩
  obtain ⟨t, builtT, returnsT⟩ : ∃ t : Query,
      (Query.projection Input.moments [.field "t" .string] (.members [])).outcome = .ok t ∧
      t.Returns Value.moments (.text "-1") := ⟨_, rfl, rfl⟩
  have noZeros (w : Value) (i : Identity) (time : Time) :
      ¬ (Value.date i time).OppositeZeros w := by
    intro zeros
    obtain ⟨_, number, -⟩ := zeros
    cases number
  obtain ⟨equal, swapped, unequal, builtEqual, builtSwapped, builtUnequal, -, compares⟩ :=
    Query.equality_is_structural builtD builtE rfl rfl .boolean
  obtain ⟨equal', swapped', unequal', builtEqual', builtSwapped', builtUnequal', -, compares'⟩ :=
    Query.equality_is_structural builtD builtT rfl rfl .boolean
  obtain ⟨returns, returns', returns''⟩ :=
    compares _ _ _ returnsD returnsE rfl rfl rfl rfl (noZeros _ _ _)
  obtain ⟨differs, differs', differs''⟩ :=
    compares' _ _ _ returnsD returnsT rfl rfl rfl rfl (noZeros _ _ _)
  exact ⟨d, e, t, equal, swapped, unequal, equal', swapped', unequal', builtD, builtE, builtT,
    builtEqual, builtSwapped, builtUnequal, builtEqual', builtSwapped', builtUnequal', returns,
    returns', returns'', differs, differs', differs''⟩

end Host

end RowExpr
