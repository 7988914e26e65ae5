import RowExpr.Calendar.Offsets
import RowExpr.Proofs.Generation.Parallel
import RowExpr.Proofs.Query

/-!
Placeholders cannot be observed.

A node that counts as absent holds a placeholder, and the code of its parent can read
it by name. But whatever looks at the value of an operand looks at its flag first, so
nothing that a query gives depends on the placeholders: with another term for the
absent values of each type, it is built or refused as before, and gives the same
values and faults on all records (`Query.placeholders_unobservable`).
-/

namespace RowExpr

/-! ## Trees -/

/-- Two outcomes that nobody can tell apart: they are absent alike and, if they are present,
have the same value. -/
structure Outcome.Alike (o o' : Outcome) : Prop where
  isNull : o.isNull = o'.isNull
  value : o'.isNull = false → o.value = o'.value

section Outcomes

variable {o o' : Outcome}

/-- Outcomes that are alike are shown alike: what stands for an absent value is not shown. -/
theorem Outcome.Alike.shown (alike : o.Alike o') : o.shown = o'.shown := by
  unfold Outcome.shown
  rw [alike.isNull]
  cases absent : o'.isNull with
  | true => simp
  | false => simpa using alike.value absent

theorem Outcome.Alike.isTrue (alike : o.Alike o') : o.isTrue = o'.isTrue := by
  unfold Outcome.isTrue
  rw [alike.isNull]
  cases absent : o'.isNull with
  | true => simp
  | false => simp [alike.value absent]

end Outcomes

section Trees

variable (env : Environment) (absent : Ty → Value)

/-- A node that is computed from the values of its operands only if these are present. -/
theorem Environment.guarded_alike {flag : Bool} {value value' : Except Fault Value} (type : Ty)
    (same : flag = false → value = value') :
    EndAlike Outcome.Alike (env.guarded flag type value)
      ({ env with defaults := absent }.guarded flag type value') := by
  cases flag with
  | true => exact .ok ⟨rfl, fun present => absurd present (by simp)⟩
  | false =>
    rw [same rfl]
    cases value' with
    | error f => exact .error f
    | ok v => exact .ok ⟨rfl, fun _ => rfl⟩

/-- If absent values are not tracked a null test looks at the value of its operand, but
then no operand is absent. -/
theorem Environment.nullTest_alike {o o' : Outcome} (alike : o.Alike o')
    (present : env.nullCheck = false → o'.isNull = false) (wanted : Bool) :
    (env.nullTest o wanted).Alike ({ env with defaults := absent }.nullTest o' wanted) := by
  refine ⟨rfl, fun _ => ?_⟩
  unfold Environment.nullTest
  cases checked : env.nullCheck with
  | true => simp [alike.isNull]
  | false => simp [alike.value (present checked)]

/-- The outcome of a tree does not depend on the values that absent nodes hold, apart from
the value that an absent root holds itself. -/
theorem Expr.eval_alike [TimeZones] (e : Expr) :
    EndAlike Outcome.Alike (e.eval env) (e.eval { env with defaults := absent }) := by
  have present {c : Expr} {o : Outcome}
    (evaluated : c.eval { env with defaults := absent } = .ok o)
      (unchecked : env.nullCheck = false) : o.isNull = false :=
    @Expr.isNull_eq_false_of_unchecked { env with defaults := absent } _ unchecked c o evaluated
  induction e with
  | naming inner label type ih => exact ih
  | literal value type => exact .ok ⟨rfl, fun _ => rfl⟩
  | field name type =>
    simp only [Expr.eval]
    cases Input.read name env.inputs env.records with
    | error f => exact .error f
    | ok v => exact .ok ⟨rfl, fun _ => rfl⟩
  | binary op left right type ihl ihr =>
    refine ihl.bind fun l l' _ _ leftAlike => ihr.bind fun r r' _ _ rightAlike => ?_
    rw [leftAlike.isNull, rightAlike.isNull]
    refine env.guarded_alike absent _ fun unset => ?_
    obtain ⟨leftPresent, rightPresent⟩ := Bool.or_eq_false_iff.1 unset
    rw [leftAlike.value leftPresent, rightAlike.value rightPresent]
  | unary op operand type ih =>
    refine ih.bind fun c c' _ _ alike => ?_
    rw [alike.isNull]
    refine env.guarded_alike absent _ fun unset => ?_
    rw [alike.value unset]
  | isNull operand type ih =>
    exact ih.bind fun c c' _ evaluated alike =>
      .ok (env.nullTest_alike absent alike (present evaluated) true)
  | isNotNull operand type ih =>
    exact ih.bind fun c c' _ evaluated alike =>
      .ok (env.nullTest_alike absent alike (present evaluated) false)
  | cast operand type ih =>
    refine ih.bind fun c c' _ _ alike => ?_
    rw [alike.isNull]
    refine env.guarded_alike absent _ fun unset => ?_
    rw [alike.value unset]
  | substring str start stop type iha ihb ihc =>
    refine iha.bind fun a a' _ _ strAlike => ihb.bind fun b b' _ _ startAlike =>
      ihc.bind fun c c' _ _ stopAlike => ?_
    rw [strAlike.isNull, startAlike.isNull, stopAlike.isNull]
    refine env.guarded_alike absent _ fun unset => ?_
    obtain ⟨early, stopPresent⟩ := Bool.or_eq_false_iff.1 unset
    obtain ⟨strPresent, startPresent⟩ := Bool.or_eq_false_iff.1 early
    rw [strAlike.value strPresent, startAlike.value startPresent, stopAlike.value stopPresent]

/-- What is shown of trees does not depend on placeholders at all. -/
theorem Expr.project_placeholders [TimeZones] (es : List Expr) :
    Expr.project { env with defaults := absent } es = Expr.project env es := by
  induction es with
  | nil => rfl
  | cons e es ih =>
    have alike := e.eval_alike env absent
    simp only [Expr.project, Expr.evalAll] at ih ⊢
    generalize e.eval env = first at alike
    generalize e.eval { env with defaults := absent } = first' at alike
    generalize Expr.evalAll env es = rest at ih
    generalize Expr.evalAll { env with defaults := absent } es = rest' at ih
    cases alike with
    | error f => rfl
    | ok related =>
      rcases rest with f | os <;> rcases rest' with f' | os'
      · cases ih
        rfl
      · cases ih
      · cases ih
      · have shown : os'.map Outcome.shown = os.map Outcome.shown := by
          injection ih
        show Except.ok (Outcome.shown _ :: os'.map Outcome.shown) =
          .ok (Outcome.shown _ :: os.map Outcome.shown)
        rw [shown, related.shown]

/-- A filter does not look at the terms for absent values. -/
theorem Expr.accepts_placeholders [TimeZones] (e : Expr) :
    e.accepts { env with defaults := absent } = e.accepts env := by
  have alike := e.eval_alike env absent
  simp only [Expr.accepts]
  generalize e.eval env = outcome at alike
  generalize e.eval { env with defaults := absent } = outcome' at alike
  cases alike with
  | error f => rfl
  | ok related =>
    show Except.ok (Outcome.isTrue _) = .ok (Outcome.isTrue _)
    rw [related.isTrue]

end Trees

/-! ## Sessions -/

/-- Two sessions with the same inputs and options; they may have taken different names, be
asked for different declarations and have different terms for absent values. -/
structure Session.Twin (s s' : Session) : Prop where
  inputs : s.inputs = s'.inputs
  options : s.options = s'.options

section Sessions

variable {s s' : Session}

theorem Session.Twin.grows {t t' : Session} (twin : s.Twin s') (grows : s.Grows t)
    (grows' : s'.Grows t') : t.Twin t' where
  inputs := by rw [grows.inputs, grows'.inputs, twin.inputs]
  options := by rw [grows.options, grows'.options, twin.options]

/-- Twins accept the same expressions, and refuse the others with the same error. -/
theorem Session.Twin.compileOrFail (twin : s.Twin s') (e : Expr) :
    EndAlike (fun _ _ => True) (s.compileOrFail e).1.outcome (s'.compileOrFail e).1.outcome := by
  have inputs : s.setting.inputs = s'.setting.inputs := twin.inputs
  have ended : EndAlike (fun _ _ => True) (e.generate s.setting s.names).outcome
      (e.generate s'.setting s'.names).outcome :=
    (e.generate_parallel inputs s.names.taken s'.names.taken).endAlike
  rw [s.outcome_compileOrFail e, s'.outcome_compileOrFail e, twin.options]
  generalize (e.generate s.setting s.names).outcome = outcome at ended
  generalize (e.generate s'.setting s'.names).outcome = outcome' at ended
  cases s'.options.sink.reply with
  | error failure => exact .error failure
  | ok _ =>
    cases ended with
    | error err => exact .error _
    | ok _ => exact .ok trivial

theorem Session.Grows.compileOrFail (s : Session) (e : Expr) : s.Grows (s.compileOrFail e).2 := by
  have after : (s.compileOrFail e).2 = (s.draft (e.generate s.setting)).2 := s.compile_snd e
  rw [after]
  exact .draft s _

/-- Twins accept the same expressions. -/
theorem Session.Twin.compileAll (twin : s.Twin s') (es : List Expr) :
    EndAlike (fun _ _ => True) (s.compileAll es).1.outcome (s'.compileAll es).1.outcome := by
  induction es generalizing s s' with
  | nil => exact .ok trivial
  | cons e es ih =>
    rw [Session.outcome_compileAll_cons, Session.outcome_compileAll_cons]
    refine (twin.compileOrFail e).bind fun g g' _ _ _ => ?_
    exact (ih (twin.grows (.compileOrFail s e) (.compileOrFail s' e))).bind
      fun gs gs' _ _ _ => .ok trivial

end Sessions

/-! ## Queries -/

/-- A unit of a sound session loads, unless the logger fails. -/
theorem Session.Sound.outcome_load [TimeZones] {t : Session} (sound : t.Sound) (sink : Sink)
    (codes : List Generated) (returns : Returned) :
    ∃ q, (Query.load sink (t.unit codes returns)).outcome = (do
      sink.reply
      return q) := by
  obtain ⟨ev, loaded, -⟩ := sound.load_unit sound.registry codes returns
  refine ⟨⟨(t.unit codes returns).source, ev⟩, ?_⟩
  unfold Query.load Loader.loadUnit Loader.loadFactory
  simp only [loaded, Report.outcome_bind, Sink.outcome_emit]
  cases sink.reply <;> rfl

/-- The units of twins load or fail alike. -/
theorem Session.Twin.load [TimeZones] {s s' : Session} (twin : s.Twin s') (sound : s.Sound)
    (sound' : s'.Sound) (codes codes' : List Generated) (returns returns' : Returned) :
    EndAlike (fun _ _ => True) (Query.load s.options.sink (s.unit codes returns)).outcome
      (Query.load s'.options.sink (s'.unit codes' returns')).outcome := by
  obtain ⟨q, loaded⟩ := sound.outcome_load s.options.sink codes returns
  obtain ⟨q', loaded'⟩ := sound'.outcome_load s'.options.sink codes' returns'
  rw [loaded, loaded', twin.options]
  cases s'.options.sink.reply with
  | error failure => exact .error failure
  | ok _ => exact .ok trivial

section Tables

variable (table table' : Ty → Term) (inputs : List Input) (given : GivenOptions)

/-- Whether a session can be created does not depend on its terms for absent values. -/
theorem Session.createWith_alike [TimeZones] :
    EndAlike Session.Twin (Session.createWith table inputs given)
      (Session.createWith table' inputs given) := by
  unfold Session.createWith
  cases (Input.check (inputs.map Input.name)).mapError Failure.generation with
  | error e => exact .error e
  | ok _ =>
    cases Options.resolve given with
    | error e => exact .error e
    | ok options => exact .ok ⟨rfl, rfl⟩

theorem Query.projectionWith_alike [TimeZones] (es : List Expr) :
    EndAlike (fun _ _ => True) (Query.projectionWith table inputs es given).outcome
      (Query.projectionWith table' inputs es given).outcome := by
  unfold Query.projectionWith
  simp only [Report.outcome_bind, Report.outcome_ofExcept]
  refine (Session.createWith_alike table table' inputs given).bind
    fun s s' created created' twin => ?_
  refine (twin.compileAll es).bind fun gs gs' compiled compiled' _ => ?_
  obtain ⟨grows, -⟩ := (Session.sound_createWith created).compileAll compiled
  obtain ⟨grows', -⟩ := (Session.sound_createWith created').compileAll compiled'
  exact (twin.grows grows grows').load ((Session.sound_createWith created).grows grows)
    ((Session.sound_createWith created').grows grows') _ _ _ _

theorem Query.filterWith_alike [TimeZones] (e : Expr) :
    EndAlike (fun _ _ => True) (Query.filterWith table inputs e given).outcome
      (Query.filterWith table' inputs e given).outcome := by
  unfold Query.filterWith
  split
  · exact .error _
  · simp only [Report.outcome_bind, Report.outcome_ofExcept]
    refine (Session.createWith_alike table table' inputs given).bind
      fun s s' created created' twin => ?_
    refine (twin.compileOrFail e).bind fun g g' _ _ _ => ?_
    have grows := Session.Grows.compileOrFail s e
    have grows' := Session.Grows.compileOrFail s' e
    exact (twin.grows grows grows').load ((Session.sound_createWith created).grows grows)
      ((Session.sound_createWith created').grows grows') _ _ _ _

end Tables

/-- Two queries that give the same value or stop with the same fault on all records. -/
def Query.SameRuns [TimeZones] (q q' : Query) : Prop := ∀ records, q.run records = q'.run records

section Environments

variable {s s' : Session} (twin : s.Twin s') (absent absent' : Ty → Value) (records : List Value)

include twin

theorem Session.Twin.environment :
    s'.environment absent' records = { s.environment absent records with defaults :=
      absent' } := by
  rw [Session.environment, Session.environment, twin.inputs, twin.options]

theorem Session.Twin.project [TimeZones] (es : List Expr) :
    Expr.project (s'.environment absent' records) es =
      Expr.project (s.environment absent records) es := by
  rw [twin.environment absent absent' records]
  exact Expr.project_placeholders _ absent' es

theorem Session.Twin.accepts [TimeZones] (e : Expr) :
    Expr.accepts (s'.environment absent' records) e =
      Expr.accepts (s.environment absent records) e := by
  rw [twin.environment absent absent' records]
  exact Expr.accepts_placeholders _ absent' e

end Environments

/-- Sessions that are created with different terms for absent values are twins. -/
theorem Session.twin_of_createWith [TimeZones] {table table' : Ty → Term} {inputs : List Input}
    {given : GivenOptions} {s s' : Session}
    (created : Session.createWith table inputs given = .ok s)
    (created' : Session.createWith table' inputs given = .ok s') : s.Twin s' := by
  obtain ⟨t, found, twin⟩ := (Session.createWith_alike table table' inputs given).of_ok created
  rw [created'] at found
  cases found
  exact twin

section Denoting

variable [TimeZones] {table table' : Ty → Term} {absent absent' : Ty → Value}
    {inputs : List Input} {given : GivenOptions}
  (denotes : ∀ type σ, (table type).eval σ = .ok (absent type))
  (denotes' : ∀ type σ, (table' type).eval σ = .ok (absent' type))

include denotes denotes'

/-- Two projections that differ in the terms for absent values give the same on all records. -/
theorem Query.projectionWith_sameRuns {es : List Expr} {q q' : Query}
    (built : (Query.projectionWith table inputs es given).outcome = .ok q)
    (built' : (Query.projectionWith table' inputs es given).outcome = .ok q') :
    q.SameRuns q' := by
  obtain ⟨s, gs, created, serves, returned⟩ := Query.of_projectionWith built
  obtain ⟨s', gs', created', serves', returned'⟩ := Query.of_projectionWith built'
  obtain ⟨-, -, terms⟩ := Session.of_createWith created
  obtain ⟨-, -, terms'⟩ := Session.of_createWith created'
  intro records
  have run := serves.run_projection (fun type σ => terms ▸ denotes type σ) returned records
  have run' := serves'.run_projection (fun type σ => terms' ▸ denotes' type σ) returned' records
  rw [run, run', (Session.twin_of_createWith created created').project absent absent' records es]

theorem Query.filterWith_sameRuns {e : Expr} {q q' : Query}
    (built : (Query.filterWith table inputs e given).outcome = .ok q)
    (built' : (Query.filterWith table' inputs e given).outcome = .ok q') : q.SameRuns q' := by
  obtain ⟨s, g, created, serves, returned⟩ := Query.of_filterWith built
  obtain ⟨s', g', created', serves', returned'⟩ := Query.of_filterWith built'
  obtain ⟨-, -, terms⟩ := Session.of_createWith created
  obtain ⟨-, -, terms'⟩ := Session.of_createWith created'
  intro records
  have run := serves.run_filter (fun type σ => terms ▸ denotes type σ) returned records
  have run' := serves'.run_filter (fun type σ => terms' ▸ denotes' type σ) returned' records
  rw [run, run', (Session.twin_of_createWith created created').accepts absent absent' records e]

end Denoting

/-- The terms that stand for absent values can be replaced by any others that denote a value:
every projection and every filter is refused with the same error as before, or built as
before and then gives the same values and stops with the same faults on all records. -/
theorem Query.placeholders_unobservable [TimeZones] {table : Ty → Term} {absent : Ty → Value}
    (denotes : ∀ type σ, (table type).eval σ = .ok (absent type)) (inputs : List Input)
    (given : GivenOptions) :
    (∀ es : List Expr, EndAlike Query.SameRuns (Query.projection inputs es given).outcome
      (Query.projectionWith table inputs es given).outcome) ∧
    ∀ e : Expr, EndAlike Query.SameRuns (Query.filter inputs e given).outcome
      (Query.filterWith table inputs e given).outcome := by
  constructor
  · intro es
    refine (Query.projectionWith_alike _ _ inputs given es).mono fun q q' built built' _ => ?_
    exact Query.projectionWith_sameRuns Ty.eval_defaultTerm denotes built built'
  · intro e
    refine (Query.filterWith_alike _ _ inputs given e).mono fun q q' built built' _ => ?_
    exact Query.filterWith_sameRuns Ty.eval_defaultTerm denotes built built'

/-- A record with a count, which may be absent. -/
def Input.counted : List Input := [⟨"row", .plain .pojo [.mk "a" (.basic (.primitive .int))]⟩]

def Value.counted (v : Value) : List Value := [.record (.given 0) [("a", v)]]

def Expr.negated : Expr :=
  .unary .negate (.field "a" (.basic (.primitive .int))) (.basic (.primitive .int))

def Expr.aboveNegated : Expr :=
  .binary .gt (.field "a" (.basic (.primitive .int))) .negated .boolean

section Host

open scoped Offsets

/-- The negation of an absent number, with a text in the place of every absent value: it is
shown as null, and a comparison with it does not hold. -/
theorem Query.placeholders_unobservable_negatedNull :
    ∃ q q' p p' : Query,
      (Query.projection Input.counted [.negated] (.members [])).outcome = .ok q ∧
      (Query.projectionWith (fun _ => .text "none") Input.counted [.negated]
        (.members [])).outcome = .ok q' ∧
      (Query.filter Input.counted .aboveNegated (.members [])).outcome = .ok p ∧
      (Query.filterWith (fun _ => .text "none") Input.counted .aboveNegated
        (.members [])).outcome = .ok p' ∧
      q.SameRuns q' ∧ p.SameRuns p' ∧
      q'.run (Value.counted .null) = .ok (.array .made [.null]) ∧
      p'.run (Value.counted .null) = .ok (.bool false) := by
  have denotes : ∀ (type : Ty) σ, ((fun _ => .text "none" : Ty → Term) type).eval σ =
      .ok (.text "none") :=
    fun _ _ => rfl
  obtain ⟨projections, filters⟩ :=
    Query.placeholders_unobservable denotes Input.counted (.members [])
  have built : (Query.projection Input.counted [.negated] (.members [])).outcome = .ok _ := rfl
  have filtered : (Query.filter Input.counted .aboveNegated (.members [])).outcome = .ok _ := rfl
  obtain ⟨q', built', same⟩ := (projections [.negated]).of_ok built
  obtain ⟨p', filtered', sameVerdict⟩ := (filters .aboveNegated).of_ok filtered
  refine ⟨_, q', _, p', built, built', filtered, filtered', same, sameVerdict, ?_, ?_⟩
  · rw [← same]
    rfl
  · rw [← sameVerdict]
    rfl

end Host

end RowExpr
