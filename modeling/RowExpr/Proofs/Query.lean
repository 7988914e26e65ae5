import Mathlib.Data.List.Forall2
import RowExpr.Proofs.Correctness

/-!
Projections and filters compute what their expressions evaluate to.

The body of a query is the code of its expressions, one after the other. Each code
binds names of its own, so after the whole body all expressions still hold their
outcomes (`Setting.EmitsAll.agrees`), and the value returned is the list of them
(`Query.run_projection`) or the verdict on the only one (`Query.accepts_filter`).
-/

namespace RowExpr

/-! ## Lists of expressions -/

/-- Generation of expressions in order, as `Setting.Emits` is for one. -/
inductive Setting.EmitsAll (s : Setting) :
    List Expr → Nat → List Generated → Nat → List Declaration → Prop
  | nil {n} : s.EmitsAll [] n [] n []
  | cons {e es n g m ds gs m' ds'} :
    s.Emits e n g m ds → s.EmitsAll es m gs m' ds' →
    s.EmitsAll (e :: es) n (g :: gs) m' (ds ++ ds')

/-- The end of a run of several codes agrees with the outcomes of an evaluation. -/
inductive Generated.AgreeAll (gs : List Generated) (nullCheck : Bool) :
    Except Fault Scope → Except Fault (List Outcome) → Prop
  | fault (f : Fault) : Generated.AgreeAll gs nullCheck (.error f) (.error f)
  | finished {σ os} :
    List.Forall₂ (fun g o => g.Holds nullCheck σ o) gs os →
    Generated.AgreeAll gs nullCheck (.ok σ) (.ok os)

section Lists

variable {s : Setting} {env : Environment} {es : List Expr} {gs : List Generated} {n m : Nat}
  {ds : List Declaration}

theorem Setting.EmitsAll.le (emits : s.EmitsAll es n gs m ds) : n ≤ m := by
  induction emits with
  | nil => exact Nat.le_refl _
  | cons first _ ih =>
    have taken := first.numbered.taken
    omega

/-- The code of a list of expressions binds numbered names only. -/
theorem Setting.EmitsAll.targets (emits : s.EmitsAll es n gs m ds) :
    ∀ x ∈ Block.targets (gs.flatMap Generated.code), x.InRange n m := by
  induction emits with
  | nil => exact fun x bound => absurd bound List.not_mem_nil
  | cons first rest ih =>
    intro x bound
    have taken := first.numbered.taken
    rw [List.flatMap_cons, Block.targets_append, List.mem_append] at bound
    rcases bound with bound | bound
    · exact (first.numbered.targets x bound).mono (Nat.le_refl _) rest.le
    · exact (ih x bound).mono (by omega) (Nat.le_refl _)

/-- The first code holds its outcome after the others, whose names have other numbers. -/
theorem Generated.AgreeAll.cons [TimeZones] {g : Generated} {o : Outcome} {nullCheck : Bool}
    {σ : Scope} {k : Nat} {outcomes : Except Fault (List Outcome)}
    (others : AgreeAll gs nullCheck (Block.run (gs.flatMap code) σ) outcomes)
    (numbered : g.Numbered n m) (targets : ∀ x ∈ Block.targets (gs.flatMap code), x.InRange m k)
    (holds : g.Holds nullCheck σ o) :
    AgreeAll (g :: gs) nullCheck (Block.run (gs.flatMap code) σ)
      (do let os ← outcomes; return o :: os) := by
  cases ran : Block.run (gs.flatMap code) σ with
  | error f =>
    rw [ran] at others
    cases others
    exact .fault f
  | ok σ' =>
    rw [ran] at others
    cases others with
    | finished held =>
      refine .finished (.cons (holds.keeps numbered ?_ (Block.run_keeps ran)) held)
      exact fun x bound inside => inside.ne (targets x bound) (Nat.le_refl m) rfl

/-- The codes of expressions, run one after the other, compute the outcomes of all. -/
theorem Setting.EmitsAll.agrees [TimeZones] (describes : s.Describes env)
    (emits : s.EmitsAll es n gs m ds) {σ : Scope} (hosts : σ.Hosts env ds) :
    Generated.AgreeAll gs s.nullCheck (Block.run (gs.flatMap Generated.code) σ)
      (Expr.evalAll env es) := by
  induction emits generalizing σ with
  | nil => exact .finished .nil
  | @cons e es n g m ds gs m' ds' first rest ih =>
    have agrees := first.agrees describes (hosts.mono (List.subset_append_left _ _))
    rw [List.flatMap_cons, Block.run_append, Expr.evalAll]
    generalize e.eval env = outcome at agrees
    cases ran : g.code.run σ with
    | error f =>
      rw [ran] at agrees
      cases agrees
      exact .fault f
    | ok σ₁ =>
      rw [ran] at agrees
      cases agrees with
      | finished holds =>
        have hostsRest := hosts.keeps first.numbered.targets (Block.run_keeps ran)
        exact (ih (hostsRest.mono (List.subset_append_right _ _))).cons first.numbered
          rest.targets holds

end Lists

/-! ## Compiling a list -/

/-- A compile call that reports code has accepted the expression, whatever was logged. -/
theorem Session.of_compile {s : Session} {e : Expr} {g : Generated}
    (compiled : (s.compile e).1.outcome = .ok (.ok g)) :
    s.draft (e.generate s.setting) = (.ok g, (s.compile e).2) := by
  rw [s.compile_snd e]
  unfold Session.compile at compiled
  split at compiled
  · next drafted =>
    obtain ⟨-, -, done⟩ := Report.of_bind_eq_ok compiled
    cases done
    rw [drafted]
  · obtain ⟨-, -, done⟩ := Report.of_bind_eq_ok compiled
    cases done

/-- A session that has compiled an expression has accepted it, whatever was logged. -/
theorem Session.of_compileOrFail {s : Session} {e : Expr} {g : Generated}
    (compiled : (s.compileOrFail e).1.outcome = .ok g) :
    s.draft (e.generate s.setting) = (.ok g, (s.compileOrFail e).2) := by
  obtain ⟨answer, reported, lifted⟩ := Report.of_bind_eq_ok compiled
  rw [Report.outcome_ofExcept] at lifted
  cases answer with
  | error err => cases lifted
  | ok made =>
    cases lifted
    exact Session.of_compile reported

/-- A session that has compiled expressions has been asked for what their code needs, and for
nothing else. -/
theorem Session.registry_compileAll {s : Session} {es : List Expr} {gs : List Generated}
    (compiled : (s.compileAll es).1.outcome = .ok gs) :
    s.Grows (s.compileAll es).2 ∧ ∃ m ds, s.setting.EmitsAll es s.names.taken gs m ds ∧
      (s.compileAll es).2.registry = s.registry.ensureAll ds := by
  induction es generalizing s gs with
  | nil =>
    cases compiled
    exact ⟨.refl s, _, [], .nil, rfl⟩
  | cons e es ih =>
    rw [Session.outcome_compileAll_cons] at compiled
    obtain ⟨g, first, compiled⟩ := of_bind_eq_ok compiled
    obtain ⟨others, rest, done⟩ := of_bind_eq_ok compiled
    cases done
    have drafted := Session.of_compileOrFail first
    have outcome : (e.generate s.setting ⟨s.names.taken⟩).outcome = .ok g :=
      congrArg Prod.fst drafted
    have after : (s.draft (e.generate s.setting)).2 = (s.compileOrFail e).2 :=
      congrArg Prod.snd drafted
    have grown := Session.Grows.draft s (e.generate s.setting)
    obtain ⟨grows, m, ds, emits, registry⟩ := ih rest
    rw [← after] at grows emits registry
    rw [grown.setting] at emits
    rw [Session.compileAll_cons_snd first, ← after]
    refine ⟨grown.trans grows, m, _,
      .cons (Expr.yields_iff.1 (Gen.exists_yields outcome)) emits, ?_⟩
    rw [registry, Registry.ensureAll_append]
    rfl

/-- What a session that accepts expressions has done. -/
theorem Session.Sound.compileAll {s : Session} (sound : s.Sound) {es : List Expr}
    {gs : List Generated} (compiled : (s.compileAll es).1.outcome = .ok gs) :
    s.Grows (s.compileAll es).2 ∧ ∃ m ds, s.setting.EmitsAll es s.names.taken gs m ds ∧
      (s.compileAll es).2.registry.Covers ds := by
  obtain ⟨grows, m, ds, emits, registry⟩ := Session.registry_compileAll compiled
  refine ⟨grows, m, ds, emits, ?_⟩
  rw [registry]
  exact sound.registry.ensureAll ds

/-! ## Queries -/

/-- A query runs the code that a session has generated for expressions. -/
structure Query.Serves (q : Query) (s : Session) (es : List Expr) (gs : List Generated) :
    Prop where
  body : q.evaluator.body = gs.flatMap Generated.code
  code : ∃ n m ds, s.setting.EmitsAll es n gs m ds ∧
    ∀ absent records, (q.evaluator.entry records).Hosts (s.environment absent records) ds

/-- What is returned for an expression does not depend on what else has been compiled. -/
theorem Session.Grows.projected {s s' : Session} (grows : s.Grows s') :
    s'.projected = s.projected := by
  unfold Session.projected
  rw [grows.options]

theorem Session.Grows.accepted {s s' : Session} (grows : s.Grows s') (g : Generated) :
    s'.accepted g = s.accepted g := by
  unfold Session.accepted
  rw [grows.options]

/-- The evaluator of a query is the one that its unit loads as. -/
theorem Query.of_load [TimeZones] {sink : Sink} {u : GeneratedUnit} {q : Query}
    (loaded : (Query.load sink u).outcome = .ok q) : u.factory.load = .ok (some q.evaluator) := by
  obtain ⟨ev, found, done⟩ := Report.of_bind_eq_ok loaded
  cases done
  obtain ⟨-, -, found⟩ := Report.of_bind_eq_ok found
  unfold Loader.loadFactory at found
  split at found
  · next ran =>
    cases found
    exact ran
  · cases found
  · obtain ⟨-, -, failed⟩ := Report.of_bind_eq_ok found
    cases failed

/-- A query that is loaded from what a sound session has compiled runs that code. -/
theorem Session.Sound.serves [TimeZones] {s t : Session} (sound : s.Sound) (grows : s.Grows t)
    {es : List Expr} {gs : List Generated} {n m : Nat} {ds : List Declaration}
    (emits : s.setting.EmitsAll es n gs m ds) (covers : t.registry.Covers ds)
    {returns : Returned} {sink : Sink} {q : Query}
    (loaded : (Query.load sink (t.unit gs returns)).outcome = .ok q) :
    q.Serves s es gs ∧ q.evaluator.returns = returns := by
  obtain ⟨ev, found, body, returned, hosts⟩ := (sound.grows grows).load_unit covers gs returns
  rw [Query.of_load loaded] at found
  cases found
  refine ⟨⟨body, n, m, ds, emits, fun absent records => ?_⟩, returned⟩
  rw [← Session.environment_grows grows]
  exact hosts absent records

section Queries

variable {defaults : Ty → Term} {inputs : List Input} {given : GivenOptions} {q : Query}

/-- How a projection comes about: a session is created, compiles all expressions and loads the
unit. -/
theorem Query.steps_of_projectionWith [TimeZones] {es : List Expr}
    (built : (Query.projectionWith defaults inputs es given).outcome = .ok q) :
    ∃ s gs sink, Session.createWith defaults inputs given = .ok s ∧
      (s.compileAll es).1.outcome = .ok gs ∧
      (Query.load sink ((s.compileAll es).2.unit gs
        (.list (gs.map (s.compileAll es).2.projected)))).outcome = .ok q := by
  obtain ⟨s, created, built⟩ := Report.of_bind_eq_ok built
  rw [Report.outcome_ofExcept] at created
  obtain ⟨gs, compiled, loaded⟩ := Report.of_bind_eq_ok built
  exact ⟨s, gs, _, created, compiled, loaded⟩

/-- How a filter comes about: the same with a list of one expression. -/
theorem Query.steps_of_filterWith [TimeZones] {e : Expr}
    (built : (Query.filterWith defaults inputs e given).outcome = .ok q) :
    ∃ s g sink, Session.createWith defaults inputs given = .ok s ∧
      (s.compileAll [e]).1.outcome = .ok [g] ∧
      (Query.load sink ((s.compileAll [e]).2.unit [g]
        (.term ((s.compileAll [e]).2.accepted g)))).outcome = .ok q := by
  unfold Query.filterWith at built
  split at built
  · cases built
  · obtain ⟨s, created, built⟩ := Report.of_bind_eq_ok built
    rw [Report.outcome_ofExcept] at created
    obtain ⟨g, first, loaded⟩ : ∃ g, (s.compileOrFail e).1.outcome = .ok g ∧
        (Query.load (s.compileOrFail e).2.options.sink ((s.compileOrFail e).2.unit [g]
          (.term ((s.compileOrFail e).2.accepted g)))).outcome = .ok q :=
      Report.of_bind_eq_ok built
    have after : (s.compileAll [e]).2 = (s.compileOrFail e).2 :=
      Session.compileAll_cons_snd first []
    refine ⟨s, g, (s.compileOrFail e).2.options.sink, created, ?_, ?_⟩
    · rw [Session.outcome_compileAll_cons, first]
      rfl
    · rw [after]
      exact loaded

theorem Query.of_projectionWith [TimeZones] {es : List Expr}
    (built : (Query.projectionWith defaults inputs es given).outcome = .ok q) :
    ∃ s gs, Session.createWith defaults inputs given = .ok s ∧ q.Serves s es gs ∧
      q.evaluator.returns = .list (gs.map s.projected) := by
  obtain ⟨s, gs, sink, created, compiled, loaded⟩ := Query.steps_of_projectionWith built
  have sound := Session.sound_createWith created
  obtain ⟨grows, m, ds, emits, covers⟩ := sound.compileAll compiled
  obtain ⟨serves, returned⟩ := sound.serves grows emits covers loaded
  refine ⟨s, gs, created, serves, returned.trans ?_⟩
  rw [grows.projected]

theorem Query.of_filterWith [TimeZones] {e : Expr}
    (built : (Query.filterWith defaults inputs e given).outcome = .ok q) :
    ∃ s g, Session.createWith defaults inputs given = .ok s ∧ q.Serves s [e] [g] ∧
      q.evaluator.returns = .term (s.accepted g) := by
  obtain ⟨s, g, sink, created, compiled, loaded⟩ := Query.steps_of_filterWith built
  have sound := Session.sound_createWith created
  obtain ⟨grows, m, ds, emits, covers⟩ := sound.compileAll compiled
  obtain ⟨serves, returned⟩ := sound.serves grows emits covers loaded
  exact ⟨s, g, created, serves, returned.trans (congrArg Returned.term (grows.accepted g))⟩

end Queries

/-! ## What queries compute -/

section Results

variable {s : Session} {g : Generated} {σ : Scope} {o : Outcome}

/-- The term that is returned for an expression shows its outcome: null if the value is absent. -/
theorem Session.eval_projected [TimeZones] (holds : g.Holds s.options.nullCheck σ o)
    (present : s.options.nullCheck = false → o.isNull = false) :
    (s.projected g).eval σ = .ok o.shown := by
  unfold Session.projected Outcome.shown
  cases checked : s.options.nullCheck with
  | true =>
    rw [if_pos rfl, Term.eval, holds.eval_isNull checked]
    cases absent : o.isNull with
    | true => rfl
    | false => exact holds.eval_result
  | false =>
    rw [present checked]
    exact holds.eval_result

/-- The term of a filter tells whether the outcome is a present value that counts as true. -/
theorem Session.eval_accepted [TimeZones] (holds : g.Holds s.options.nullCheck σ o)
    (present : s.options.nullCheck = false → o.isNull = false) :
    (s.accepted g).eval σ = .ok (.bool o.isTrue) := by
  have isTrue :=
    Term.eval_binary .strictEq holds.eval_result (b := .bool true) (r := .bool true) rfl
  unfold Session.accepted Outcome.isTrue
  cases checked : s.options.nullCheck with
  | true =>
    have flag := Term.eval_unary .not (holds.eval_isNull checked)
    rw [if_pos rfl, Term.eval_binary .and flag isTrue]
    cases o.isNull <;> rfl
  | false =>
    rw [present checked]
    exact isTrue

end Results

theorem Expr.forall₂_of_evalAll [TimeZones] {env : Environment} {es : List Expr}
    {os : List Outcome} (evaluated : Expr.evalAll env es = .ok os) :
    List.Forall₂ (fun e o => e.eval env = .ok o) es os := by
  induction es generalizing os with
  | nil =>
    cases evaluated
    exact .nil
  | cons e es ih =>
    obtain ⟨o, first, evaluated⟩ := of_bind_eq_ok evaluated
    obtain ⟨rest, others, done⟩ := of_bind_eq_ok evaluated
    cases done
    exact .cons first (ih others)

/-- Without null checks, no outcome is marked as absent. -/
theorem Expr.isNull_eq_false_of_evalAll [TimeZones] {env : Environment}
    (unchecked : env.nullCheck = false) {es : List Expr} {os : List Outcome}
    (evaluated : Expr.evalAll env es = .ok os) : ∀ o ∈ os, o.isNull = false := by
  have each := Expr.forall₂_of_evalAll evaluated
  clear evaluated
  induction each with
  | nil => exact fun o inside => absurd inside List.not_mem_nil
  | cons first _ ih =>
    exact List.forall_mem_cons.2 ⟨Expr.isNull_eq_false_of_unchecked unchecked first, ih⟩

theorem Session.evalAll_projected [TimeZones] {s : Session} {σ : Scope} {gs : List Generated}
    {os : List Outcome}
    (holds : List.Forall₂ (fun g o => g.Holds s.options.nullCheck σ o) gs os)
    (present : s.options.nullCheck = false → ∀ o ∈ os, o.isNull = false) :
    Returned.evalAll σ (gs.map s.projected) = .ok (os.map Outcome.shown) := by
  induction holds with
  | nil => rfl
  | cons first _ ih =>
    have head :=
      Session.eval_projected first fun unchecked => present unchecked _ List.mem_cons_self
    have tail := ih fun unchecked o inside => present unchecked o (List.mem_cons_of_mem _ inside)
    rw [List.map_cons, Returned.evalAll, head, tail]
    rfl

section Serves

variable {q : Query} {s : Session} {absent : Ty → Value}

/-- A run enters the inputs, runs the body and evaluates what is returned. -/
theorem Query.run_eq [TimeZones] (q : Query) (records : List Value) :
    q.run records = (do
      let σ ← q.evaluator.body.run (q.evaluator.entry records)
      q.evaluator.returns.eval σ) :=
  rfl

/-- The body of a query ends as the evaluation of its expressions does, on all records. -/
theorem Query.Serves.agrees [TimeZones] {es : List Expr} {gs : List Generated}
    (serves : q.Serves s es gs)
    (defaults : ∀ type σ, (s.defaults type).eval σ = .ok (absent type)) (records : List Value) :
    Generated.AgreeAll gs s.options.nullCheck (q.evaluator.body.run (q.evaluator.entry records))
      (Expr.evalAll (s.environment absent records) es) := by
  obtain ⟨n, m, ds, emits, hosts⟩ := serves.code
  rw [serves.body]
  exact emits.agrees (Session.describes defaults records) (hosts absent records)

/-- A projection gives the values of its expressions, or the fault of the first that ends in
one. -/
theorem Query.Serves.run_projection [TimeZones] {es : List Expr} {gs : List Generated}
    (serves : q.Serves s es gs)
    (defaults : ∀ type σ, (s.defaults type).eval σ = .ok (absent type))
    (returned : q.evaluator.returns = .list (gs.map s.projected)) (records : List Value) :
    q.run records =
      do return .array .made (← Expr.project (s.environment absent records) es) := by
  have agrees := serves.agrees defaults records
  rw [Query.run_eq, Expr.project]
  generalize q.evaluator.body.run (q.evaluator.entry records) = run at agrees
  cases evaluated : Expr.evalAll (s.environment absent records) es with
  | error f =>
    rw [evaluated] at agrees
    cases agrees
    rfl
  | ok os =>
    rw [evaluated] at agrees
    cases agrees with
    | @finished σ _ holds =>
      have values := Session.evalAll_projected holds fun unchecked =>
        Expr.isNull_eq_false_of_evalAll unchecked evaluated
      show q.evaluator.returns.eval σ = _
      rw [returned, Returned.eval, values]
      rfl

/-- A filter gives the verdict on its predicate, or the fault that it ends in. -/
theorem Query.Serves.run_filter [TimeZones] {e : Expr} {g : Generated}
    (serves : q.Serves s [e] [g])
    (defaults : ∀ type σ, (s.defaults type).eval σ = .ok (absent type))
    (returned : q.evaluator.returns = .term (s.accepted g)) (records : List Value) :
    q.run records = do return .bool (← e.accepts (s.environment absent records)) := by
  have agrees := serves.agrees defaults records
  rw [Query.run_eq, Expr.accepts]
  rw [Expr.evalAll] at agrees
  generalize q.evaluator.body.run (q.evaluator.entry records) = run at agrees
  cases evaluated : e.eval (s.environment absent records) with
  | error f =>
    rw [evaluated] at agrees
    cases agrees
    rfl
  | ok o =>
    rw [evaluated] at agrees
    cases agrees with
    | @finished σ _ holds =>
      obtain ⟨held, -⟩ := List.forall₂_cons.1 holds
      show q.evaluator.returns.eval σ = _
      rw [returned]
      exact Session.eval_accepted held fun unchecked =>
        Expr.isNull_eq_false_of_unchecked unchecked evaluated

end Serves

end RowExpr
