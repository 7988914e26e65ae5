import RowExpr.Calendar.Offsets
import RowExpr.Proofs.Placeholder

/-!
Projections of lists are pointwise.

The expressions of a projection are compiled in one session and run in one body, but none
has an effect on another: the projection of a list gives the values that the projections of
its members give, or stops with the fault of the first that stops. If a member is refused,
so is the list, with the error of the first such member (`Query.projection_pointwise`).
-/

namespace RowExpr

/-! ## Trees -/

/-- What a projection shows of a tree. -/
def Expr.shown [TimeZones] (env : Environment) (e : Expr) : Except Fault Value :=
  do return (← e.eval env).shown

/-- Values are computed from left to right, and the first fault ends the projection. -/
theorem Expr.project_cons [TimeZones] (env : Environment) (e : Expr) (es : List Expr) :
    Expr.project env (e :: es) = (do
      let v ← e.shown env
      let vs ← Expr.project env es
      return v :: vs) := by
  unfold Expr.project Expr.shown
  rw [Expr.evalAll]
  cases e.eval env with
  | error f => rfl
  | ok o => cases Expr.evalAll env es <;> rfl

/-! ## Compiling a list -/

section Lists

variable {s new : Session}

/-- Expressions that are accepted one by one are accepted one after the other. -/
theorem Session.Twin.compileAll_accepted (twin : new.Twin s) {es : List Expr}
    (accepted : ∀ e ∈ es, ∃ g, (new.compileOrFail e).1.outcome = .ok g) :
    ∃ gs, (s.compileAll es).1.outcome = .ok gs := by
  induction es generalizing s with
  | nil => exact ⟨[], rfl⟩
  | cons e es ih =>
    obtain ⟨g, made⟩ := accepted e List.mem_cons_self
    -- The session has taken names for the expressions before, but it is still a twin of the new
    -- one.
    obtain ⟨g', made', -⟩ := (twin.compileOrFail e).of_ok made
    obtain ⟨gs, rest⟩ := ih (twin.grows (.refl new) (.compileOrFail s e)) fun e listed =>
      accepted e (List.mem_cons_of_mem _ listed)
    refine ⟨g' :: gs, ?_⟩
    rw [Session.outcome_compileAll_cons, made', rest]
    rfl

/-- The first expression that is refused decides the failure of the list. -/
theorem Session.Twin.compileAll_refused (twin : new.Twin s) {before after : List Expr}
    {e : Expr} {failure : Failure}
    (accepted : ∀ c ∈ before, ∃ g, (new.compileOrFail c).1.outcome = .ok g)
    (refused : (new.compileOrFail e).1.outcome = .error failure) :
    (s.compileAll (before ++ e :: after)).1.outcome = .error failure := by
  induction before generalizing s with
  | nil =>
    rw [List.nil_append, Session.outcome_compileAll_cons, (twin.compileOrFail e).of_error refused]
    rfl
  | cons c before ih =>
    obtain ⟨g, made⟩ := accepted c List.mem_cons_self
    obtain ⟨g', made', -⟩ := (twin.compileOrFail c).of_ok made
    have rest := ih (twin.grows (.refl new) (.compileOrFail s c)) fun e listed =>
      accepted e (List.mem_cons_of_mem _ listed)
    rw [List.cons_append, Session.outcome_compileAll_cons, made', rest]
    rfl

end Lists

/-! ## Projections -/

/-- What a projection of a list gives on records, by what the projections of its members give:
each of them gives one value or stops with a fault. -/
structure Query.Pointwise [TimeZones] (q : Query) (singles : List Query) (records : List Value) :
    Prop where
  single : ∀ p ∈ singles,
    (∃ v, p.run records = .ok (.array .made [v])) ∨ ∃ f, p.run records = .error f
  values : ∀ vs, List.Forall₂ (fun p v => p.run records = .ok (.array .made [v])) singles vs →
    q.run records = .ok (.array .made vs)
  fault : ∀ before p after f, singles = before ++ p :: after →
    (∀ c ∈ before, ∃ v, c.run records = .ok (.array .made [v])) → p.run records = .error f →
    q.run records = .error f

/-- The query gives on records what is shown of the tree. -/
def Query.Shows [TimeZones] (env : Environment) (records : List Value) (e : Expr) (p : Query) :
    Prop :=
  p.run records = do return .array .made [← e.shown env]

section Runs

variable {env : Environment} {records : List Value} {e : Expr} {p : Query} {es : List Expr}
    {singles : List Query}

theorem Query.Shows.shown_of_value [TimeZones] {v : Value} (shows : p.Shows env records e)
    (ran : p.run records = .ok (.array .made [v])) : e.shown env = .ok v := by
  rw [Query.Shows, ran] at shows
  obtain ⟨w, shown, same⟩ := of_bind_eq_ok shows.symm
  cases same
  exact shown

theorem Query.Shows.shown_of_fault [TimeZones] {f : Fault} (shows : p.Shows env records e)
    (ran : p.run records = .error f) : e.shown env = .error f := by
  rw [Query.Shows, ran] at shows
  cases shown : e.shown env with
  | error f' =>
    rw [shown] at shows
    cases shows
    rfl
  | ok v =>
    rw [shown] at shows
    cases shows

/-- If each expression gives a value, the projection gives all of them. -/
theorem Expr.project_of_values [TimeZones] {vs : List Value}
    (shows : List.Forall₂ (Query.Shows env records) es singles)
    (values : List.Forall₂ (fun p v => p.run records = .ok (.array .made [v])) singles vs) :
    Expr.project env es = .ok vs := by
  induction shows generalizing vs with
  | nil =>
    cases values
    rfl
  | cons first _ ih =>
    cases values with
    | cons value others =>
      rw [Expr.project_cons, first.shown_of_value value, ih others]
      rfl

/-- If one stops after others that give values, the projection stops with its fault. -/
theorem Expr.project_of_fault [TimeZones] {before after : List Query} {f : Fault}
    (shows : List.Forall₂ (Query.Shows env records) es (before ++ p :: after))
    (values : ∀ c ∈ before, ∃ v, c.run records = .ok (.array .made [v]))
    (stopped : p.run records = .error f) : Expr.project env es = .error f := by
  induction before generalizing es with
  | nil =>
    obtain ⟨e, es, first, -, rfl⟩ := List.forall₂_cons_right_iff.1 shows
    rw [Expr.project_cons, first.shown_of_fault stopped]
    rfl
  | cons c before ih =>
    obtain ⟨e, es, first, rest, rfl⟩ := List.forall₂_cons_right_iff.1 shows
    obtain ⟨v, value⟩ := values c List.mem_cons_self
    have others := ih rest fun c listed => values c (List.mem_cons_of_mem _ listed)
    rw [Expr.project_cons, first.shown_of_value value, others]
    rfl

/-- A query that projects trees is pointwise in queries that show one each. -/
theorem Query.pointwise_of_shows [TimeZones] {q : Query}
    (shows : List.Forall₂ (Query.Shows env records) es singles)
    (run : q.run records = do return .array .made (← Expr.project env es)) :
    q.Pointwise singles records where
  single := by
    intro p listed
    clear run
    induction shows with
    | nil => cases listed
    | @cons e p' es singles first _ ih =>
      rcases List.mem_cons.1 listed with rfl | later
      · rw [first]
        cases e.shown env with
        | error f => exact .inr ⟨f, rfl⟩
        | ok v => exact .inl ⟨v, rfl⟩
      · exact ih later
  values := by
    intro vs values
    rw [run, Expr.project_of_values shows values]
    rfl
  fault := by
    rintro before p after f rfl values stopped
    rw [run, Expr.project_of_fault shows values stopped]
    rfl

end Runs

section Created

variable [TimeZones] {inputs : List Input} {given : GivenOptions} {new : Session}
  (created : Session.create inputs given = .ok new)

include created

theorem Query.run_of_projection {es : List Expr} {q : Query}
    (built : (Query.projection inputs es given).outcome = .ok q) (records : List Value) :
    q.run records =
      do return .array .made (← Expr.project (new.environment Ty.defaultValue records) es) := by
  obtain ⟨s, gs, found, serves, returned⟩ := Query.of_projectionWith built
  have same : s = new := Except.ok.inj (found.symm.trans created)
  subst same
  exact serves.run_projection (Session.eval_defaults created (.refl s)) returned records

/-- Building a projection compiles the list and loads the unit. -/
theorem Query.outcome_projection (es : List Expr) :
    (Query.projection inputs es given).outcome = (do
      let gs ← (new.compileAll es).1.outcome
      (Query.load (new.compileAll es).2.options.sink
        ((new.compileAll es).2.unit gs
          (.list (gs.map (new.compileAll es).2.projected)))).outcome) := by
  have found : Session.createWith Ty.defaultTerm inputs given = .ok new := created
  unfold Query.projection Query.projectionWith
  simp only [Report.outcome_bind, Report.outcome_ofExcept, found]
  rfl

/-- What can be compiled can be projected, unless the logger fails. -/
theorem Query.exists_projection {es : List Expr} {gs : List Generated}
    (compiled : (new.compileAll es).1.outcome = .ok gs) :
    ∃ q, (Query.projection inputs es given).outcome = (do
      new.options.sink.reply
      return q) := by
  have sound := Session.sound_createWith created
  obtain ⟨grows, -⟩ := sound.compileAll compiled
  rw [Query.outcome_projection created, compiled, grows.options]
  exact (sound.grows grows).outcome_load _ _ _

/-- A logger that throws makes every projection fail, the empty one too. -/
theorem Query.projection_of_failing_logger {message : Text}
    (failing : new.options.sink = .logger (some message)) (es : List Expr) :
    (Query.projection inputs es given).outcome = .error (.plain message) := by
  have replied : new.options.sink.reply = .error (.plain message) := by
    rw [failing]
    rfl
  cases es with
  | nil =>
    have nothing : (new.compileAll []).1.outcome = .ok [] := rfl
    obtain ⟨q, ended⟩ := Query.exists_projection created nothing
    rw [ended, replied]
    rfl
  | cons e es =>
    rw [Query.outcome_projection created, Session.outcome_compileAll_cons,
      Session.outcome_compileOrFail, replied]
    rfl

/-- Expressions that are accepted can be projected together. -/
theorem Query.projection_of_accepted {es : List Expr} (replied : new.options.sink.reply = .ok ())
    (accepted : ∀ e ∈ es, ∃ g, (new.compileOrFail e).1.outcome = .ok g) :
    ∃ q, (Query.projection inputs es given).outcome = .ok q := by
  obtain ⟨gs, compiled⟩ := Session.Twin.compileAll_accepted ⟨rfl, rfl⟩ accepted
  obtain ⟨q, ended⟩ := Query.exists_projection created compiled
  rw [replied] at ended
  exact ⟨q, ended⟩

theorem Query.projections_of_accepted {es : List Expr}
    (replied : new.options.sink.reply = .ok ())
    (accepted : ∀ e ∈ es, ∃ g, (new.compileOrFail e).1.outcome = .ok g) :
    ∃ singles, List.Forall₂ (fun e p => (Query.projection inputs [e] given).outcome = .ok p)
      es singles := by
  induction es with
  | nil => exact ⟨[], .nil⟩
  | cons e es ih =>
    obtain ⟨first, others⟩ := List.forall_mem_cons.1 accepted
    obtain ⟨p, built⟩ :=
      Query.projection_of_accepted created replied (List.forall_mem_singleton.2 first)
    obtain ⟨singles, rest⟩ := ih others
    exact ⟨p :: singles, .cons built rest⟩

/-- The first expression that is refused ends the building of a list, with its own error. -/
theorem Query.projection_of_refused {before after : List Expr} {e : Expr} {failure : Failure}
    (accepted : ∀ c ∈ before, ∃ g, (new.compileOrFail c).1.outcome = .ok g)
    (refused : (new.compileOrFail e).1.outcome = .error failure) :
    (Query.projection inputs (before ++ e :: after) given).outcome = .error failure := by
  rw [Query.outcome_projection created,
    Session.Twin.compileAll_refused ⟨rfl, rfl⟩ accepted refused]
  rfl

/-- A projection of a list gives what the projections of its members give. -/
theorem Query.pointwise_of_built {es : List Expr} {q : Query} {singles : List Query}
    (built : (Query.projection inputs es given).outcome = .ok q)
    (each : List.Forall₂ (fun e p => (Query.projection inputs [e] given).outcome = .ok p)
      es singles)
    (records : List Value) : q.Pointwise singles records := by
  refine Query.pointwise_of_shows (each.imp fun e p single => ?_)
    (Query.run_of_projection created built records)
  rw [Query.Shows, Query.run_of_projection created single records, Expr.project_cons]
  cases e.shown (new.environment Ty.defaultValue records) <;> rfl

end Created

/-- The session accepts the expression. -/
def Session.Accepts (s : Session) (e : Expr) : Prop := ∃ g, (s.compile e).1.outcome = .ok (.ok g)

/-- The session refuses the expression with this error. -/
def Session.Refuses (s : Session) (e : Expr) (err : GenerationError) : Prop :=
  (s.compile e).1.outcome = .ok (.error err)

theorem Session.Accepts.compileOrFail {s : Session} {e : Expr} (accepts : s.Accepts e) :
    ∃ g, (s.compileOrFail e).1.outcome = .ok g := by
  obtain ⟨g, reported⟩ := accepts
  exact ⟨g, Session.compileOrFail_of_compile reported⟩

/-- Projection is pointwise, for all inputs and options and all lists of expressions, the
empty one too. Options or inputs that are refused, and a logger that fails, make every
projection fail in the same way. Otherwise every expression is accepted or refused by a new
session. If all are accepted, the projection of the list and those of its members are built,
and on all records the first gives what the others give. If not, the projection fails with
the error of the first expression that is refused, and so does the projection of that
expression alone. -/
theorem Query.projection_pointwise [TimeZones] (inputs : List Input) (given : GivenOptions) :
    (∀ failure, Session.create inputs given = .error failure →
      ∀ es, (Query.projection inputs es given).outcome = .error failure) ∧
    ∀ new, Session.create inputs given = .ok new →
      (∀ message, new.options.sink = .logger (some message) →
        ∀ es, (Query.projection inputs es given).outcome = .error (.plain message)) ∧
      ((∀ message, new.options.sink ≠ .logger (some message)) →
        (∀ e, new.Accepts e ∨ ∃ err, new.Refuses e err) ∧
        (∀ es, (∀ e ∈ es, new.Accepts e) →
          ∃ q singles, (Query.projection inputs es given).outcome = .ok q ∧
            List.Forall₂
              (fun e p => (Query.projection inputs [e] given).outcome = .ok p) es singles ∧
            ∀ records, q.Pointwise singles records) ∧
        ∀ before e after err, (∀ c ∈ before, new.Accepts c) → new.Refuses e err →
          (Query.projection inputs (before ++ e :: after) given).outcome =
            .error (.generation err) ∧
          (Query.projection inputs [e] given).outcome = .error (.generation err)) := by
  refine ⟨fun failure refused es => ?_,
    fun new created => ⟨fun message failing es => ?_, fun quiet => ⟨?_, ?_, ?_⟩⟩⟩
  · have found : Session.createWith Ty.defaultTerm inputs given = .error failure := refused
    unfold Query.projection Query.projectionWith
    rw [Report.outcome_bind, Report.outcome_ofExcept, found]
    rfl
  · exact Query.projection_of_failing_logger created failing es
  · intro e
    have reported := new.outcome_compile e
    rw [Sink.reply_of_quiet quiet] at reported
    cases outcome : (e.generate new.setting new.names).outcome with
    | error err =>
      rw [outcome] at reported
      exact .inr ⟨err, reported⟩
    | ok g =>
      rw [outcome] at reported
      exact .inl ⟨g, reported⟩
  · intro es accepted
    have replied := Sink.reply_of_quiet quiet
    have compiled : ∀ e ∈ es, ∃ g, (new.compileOrFail e).1.outcome = .ok g :=
      fun e listed => (accepted e listed).compileOrFail
    obtain ⟨q, built⟩ := Query.projection_of_accepted created replied compiled
    obtain ⟨singles, each⟩ := Query.projections_of_accepted created replied compiled
    exact ⟨q, singles, built, each, Query.pointwise_of_built created built each⟩
  · intro before e after err accepted refused
    have failed := Session.compileOrFail_of_compile refused
    constructor
    · exact Query.projection_of_refused created
        (fun c listed => (accepted c listed).compileOrFail) failed
    · rw [← List.nil_append [e]]
      exact Query.projection_of_refused created (List.forall_mem_nil _) failed

def Expr.greeting : Expr := .literal (.text "hello") .string

def Expr.count : Expr := .field "a" (.basic (.primitive .int))

section Host

open scoped Offsets

/-- A text and a field. With no record to read the field from, the projection of both stops as
that of the field does. -/
theorem Query.projection_pointwise_missingRecord :
    ∃ q p p' : Query, ∃ f,
      (Query.projection Input.counted [.greeting, .count] (.members [])).outcome = .ok q ∧
      (Query.projection Input.counted [.greeting] (.members [])).outcome = .ok p ∧
      (Query.projection Input.counted [.count] (.members [])).outcome = .ok p' ∧
      q.run (Value.counted (.bool true)) = .ok (.array .made [.text "hello", .bool true]) ∧
      p.run [.null] = .ok (.array .made [.text "hello"]) ∧
      p'.run [.null] = .error f ∧ q.run [.null] = .error f ∧
      ∃ err,
        (Query.projection Input.counted [.greeting, .field "stray" .string]
          (.members [])).outcome =
          .error (.generation err) ∧
        (Query.projection Input.counted [.field "stray" .string] (.members [])).outcome =
          .error (.generation err) := by
  obtain ⟨new, created, quiet, greets, counts, err, strays⟩ : ∃ new,
      Session.create Input.counted (.members []) = .ok new ∧
      (∀ message, new.options.sink ≠ .logger (some message)) ∧ new.Accepts .greeting ∧
      new.Accepts .count ∧
      ∃ err, new.Refuses (.field "stray" .string) err :=
    ⟨_, rfl, (fun _ same => by cases same), ⟨_, rfl⟩, ⟨_, rfl⟩, _, rfl⟩
  obtain ⟨-, projections⟩ := Query.projection_pointwise Input.counted (.members [])
  obtain ⟨-, pointwise⟩ := projections new created
  obtain ⟨-, accepted, refused⟩ := pointwise quiet
  have both : ∀ e ∈ [Expr.greeting, Expr.count], new.Accepts e :=
    List.forall_mem_cons.2 ⟨greets, List.forall_mem_singleton.2 counts⟩
  obtain ⟨q, singles, built, each, runs⟩ := accepted _ both
  have greeting : (Query.projection Input.counted [.greeting] (.members [])).outcome = .ok _ :=
    rfl
  have count : (Query.projection Input.counted [.count] (.members [])).outcome = .ok _ := rfl
  obtain ⟨p, rest, first, others, rfl⟩ := List.forall₂_cons_left_iff.1 each
  obtain ⟨p', none, second, last, rfl⟩ := List.forall₂_cons_left_iff.1 others
  cases List.forall₂_nil_left_iff.1 last
  cases greeting.symm.trans first
  cases count.symm.trans second
  refine ⟨q, _, _, _, built, first, second, ?_, rfl, rfl, ?_, err, ?_⟩
  · exact (runs _).values _ (.cons rfl (.cons rfl .nil))
  · exact (runs _).fault [_] _ [] _ rfl (List.forall_mem_singleton.2 ⟨_, rfl⟩) rfl
  · exact refused [.greeting] (.field "stray" .string) [] err
      (List.forall_mem_singleton.2 greets) strays

end Host

end RowExpr
