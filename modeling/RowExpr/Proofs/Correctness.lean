import RowExpr.Calendar.Offsets
import RowExpr.Proofs.Expr.Fault
import RowExpr.Proofs.Session
import RowExpr.Proofs.Unit.Loading
import RowExpr.Query

/-!
Correctness of generated code in a session.

An expression that a session accepts gets code that can be put into any unit built
from the session later on. The unit loads, and wherever in it the code is run, it
ends as the evaluation of the expression does (`Session.code_computes_outcome`).
-/

namespace RowExpr

/-! ## Faults of accepted expressions -/

theorem Input.read_ends {inputs : List Input} {input : Input} {name : Text} {a : Accessor}
    (first : inputs.find? (·.type.hasField name) = some input)
    (stored : input.type.accessor? name = some a) (records : List Value) :
    EndsInRuntime (Input.read name inputs records) := by
  induction inputs generalizing records with
  | nil => cases first
  | cons head inputs ih =>
    rw [Input.read]
    split
    · next b _ => exact b.read_ends _
    · next lacks =>
      rw [List.find?_cons] at first
      split at first
      · cases first
        rw [stored] at lacks
        cases lacks
      · exact ih first records.tail

/-- The evaluation of an accepted expression never misses a name. -/
theorem Setting.Emits.eval_ends [TimeZones] {s : Setting} {env : Environment}
    (describes : s.Describes env) {e : Expr} {n m : Nat} {g : Generated} {ds : List Declaration}
    (emits : s.Emits e n g m ds) : EndsInRuntime (e.eval env) := by
  induction emits with
  | naming _ ih => exact ih
  | nullLiteral => trivial
  | literal _ _ _ => trivial
  | @field name type _ _ found =>
    unfold Setting.fieldTerm? at found
    rw [describes.inputs] at found
    split at found
    · next input first =>
      obtain ⟨a, stored, -⟩ := Option.map_eq_some_iff.1 found
      exact (Input.read_ends first stored env.records).bind fun _ _ _ => trivial
    · cases found
  | binary _ _ ihl ihr =>
    refine ihl.bind fun l _ _ => ihr.bind fun r _ _ => ?_
    exact env.guarded_ends _ _ (BinaryOp.eval_ends _ _ _ _ _ _).inRuntime
  | unary _ ih => exact ih.bind fun c _ _ => env.guarded_ends _ _ trivial
  | isNull _ ih => exact ih.bind fun c _ _ => trivial
  | isNotNull _ ih => exact ih.bind fun c _ _ => trivial
  | cast _ _ _ _ ih =>
    exact ih.bind fun c _ _ => env.guarded_ends _ _ (c.value.cast_ends _ _ _).inRuntime
  | substring _ _ _ iha ihb ihc =>
    refine iha.bind fun a _ _ => ihb.bind fun b _ _ => ihc.bind fun c _ _ => ?_
    exact env.guarded_ends _ _ (a.value.substring_ends _ _).inRuntime

/-! ## Code in a session -/

/-- What the trees of a session are evaluated in: its inputs and options, records, and
the values that stand for absent ones. -/
def Session.environment (s : Session) (absent : Ty → Value) (records : List Value) :
    Environment where
  inputs := s.inputs
  records := records
  zone := s.options.timeZone
  nullCheck := s.options.nullCheck
  defaults := absent

theorem Session.describes [TimeZones] {s : Session} {absent : Ty → Value}
    (defaults : ∀ type σ, (s.defaults type).eval σ = .ok (absent type)) (records : List Value) :
    s.setting.Describes (s.environment absent records) :=
  ⟨rfl, rfl, defaults⟩

theorem Session.environment_grows {s s' : Session} (grows : s.Grows s') (absent : Ty → Value)
    (records : List Value) : s'.environment absent records = s.environment absent records := by
  rw [environment, environment, grows.inputs, grows.options]

/-- What a session that accepts an expression has done. -/
theorem Session.Sound.draft {s s' : Session} (sound : s.Sound) {e : Expr} {g : Generated}
    (accepted : s.draft (e.generate s.setting) = (.ok g, s')) :
    s.Grows s' ∧ ∃ ds, s.setting.Emits e s.names.taken g s'.names.taken ds ∧
      s'.registry.Covers ds := by
  have outcome : (e.generate s.setting ⟨s.names.taken⟩).outcome = .ok g :=
    congrArg Prod.fst accepted
  have after : (s.draft (e.generate s.setting)).2 = s' := congrArg Prod.snd accepted
  subst after
  exact ⟨.draft s _, _, Expr.yields_iff.1 (Gen.exists_yields outcome), sound.registry.ensureAll _⟩

/-- The scope in which an evaluator runs its body. -/
def Evaluator.entry (ev : Evaluator) (records : List Value) : Scope :=
  ev.scope.bindInputs ev.inputs records

/-- A unit of a sound session loads. Its evaluator has the code and the return of the
unit, and hosts code that asks for what the session has been asked for. -/
theorem Session.Sound.load_unit [TimeZones] {t : Session} (sound : t.Sound)
    {ds : List Declaration} (covers : t.registry.Covers ds) (codes : List Generated)
    (returns : Returned) :
    ∃ ev : Evaluator, (t.unit codes returns).factory.load = .ok (some ev) ∧
      ev.body = codes.flatMap Generated.code ∧ ev.returns = returns ∧
      ∀ absent records, (ev.entry records).Hosts (t.environment absent records) ds := by
  obtain ⟨known, lists, inside⟩ := covers
  obtain ⟨scope, loaded, declares⟩ := (t.unit codes returns).load_factory lists
  refine ⟨_, loaded, rfl, rfl, fun absent records => ?_⟩
  have zoned : scope.Declares t.options.timeZone known := sound.zone ▸ declares
  exact (Scope.Declares.hosts_bindInputs (t.environment absent records) zoned sound.names).mono
    inside

/-- The terms of a session that was created without terms of its own. -/
theorem Session.eval_defaults [TimeZones] {inputs : List Input} {given : GivenOptions}
    {new s : Session} (created : Session.create inputs given = .ok new) (grows : new.Grows s)
    (type : Ty) (σ : Scope) : (s.defaults type).eval σ = .ok type.defaultValue := by
  have terms : s.defaults = Ty.defaultTerm :=
    grows.defaults.trans (Session.of_createWith created).2.2
  rw [terms]
  exact type.eval_defaultTerm σ

/-- The code of an accepted expression has a derivation, and in a unit that is built
later it agrees with the evaluation of the expression. -/
theorem Session.Sound.code_agrees [TimeZones] {s s' t : Session} {e : Expr} {g : Generated}
    {absent : Ty → Value} (sound : s.Sound)
    (defaults : ∀ type σ, (s.defaults type).eval σ = .ok (absent type))
    (accepted : s.draft (e.generate s.setting) = (.ok g, s')) (later : s'.Grows t)
    (codes : List Generated) (returns : Returned) :
    (∃ n m ds, s.setting.Emits e n g m ds) ∧
      ∃ ev : Evaluator, (t.unit codes returns).factory.load = .ok (some ev) ∧
        ∀ (records : List Value) (σ : Scope), (ev.entry records).SameGlobals σ →
          g.Agrees s.options.nullCheck (g.code.run σ)
            (e.eval (s.environment absent records)) := by
  obtain ⟨drafted, ds, emits, covers⟩ := sound.draft accepted
  have grows : s.Grows t := drafted.trans later
  obtain ⟨ev, loaded, -, -, hosts⟩ :=
    (sound.grows grows).load_unit (later.covers covers) codes returns
  refine ⟨⟨_, _, ds, emits⟩, ev, loaded, fun records σ same => ?_⟩
  have hosted := (hosts absent records).sameGlobals same
  rw [Session.environment_grows grows] at hosted
  exact emits.agrees (Session.describes defaults records) hosted

/-- Code that a session has generated for an expression does what the expression says,
in every unit that is built from the session then or later, for all records and wherever
in the unit it is run: it stops with the fault that the evaluation of the expression ends
in, or leaves its value and, if absent values are tracked, its nullity in the names it was
given. The only faults are those of the run time. -/
theorem Session.code_computes_outcome [TimeZones] {inputs : List Input} {given : GivenOptions}
    {new s s' t : Session} {e : Expr} {g : Generated}
    (created : Session.create inputs given = .ok new) (reached : new.Leads s)
    (accepted : s.draft (e.generate s.setting) = (.ok g, s')) (later : s'.Leads t)
    (codes : List Generated) (returns : Returned) :
    ∃ ev : Evaluator, (t.unit codes returns).factory.load = .ok (some ev) ∧
      ∀ (records : List Value) (σ : Scope), (ev.entry records).SameGlobals σ →
        g.Agrees s.options.nullCheck (g.code.run σ)
          (e.eval (s.environment Ty.defaultValue records)) ∧
        ∀ f, e.eval (s.environment Ty.defaultValue records) = .error f → f.IsRuntime := by
  have sound : s.Sound := (Session.sound_createWith created).grows reached.grows
  have defaults := Session.eval_defaults created reached.grows
  obtain ⟨⟨n, m, ds, emits⟩, ev, loaded, agrees⟩ :=
    sound.code_agrees defaults accepted later.grows codes returns
  refine ⟨ev, loaded, fun records σ same => ⟨agrees records σ same, fun f stopped => ?_⟩⟩
  have ends := emits.eval_ends (Session.describes defaults records)
  rw [stopped] at ends
  exact ends

section Host

open scoped Offsets

/-- The code of a cast that reads a date, with its chain of handlers, in a new session. -/
theorem Session.code_computes_outcome_dateOfField :
    ∃ (new s : Session) (g : Generated),
      Session.create [⟨"row", .plain .row [.mk "d" .string]⟩] (.members []) = .ok new ∧
      new.draft ((Expr.cast (.field "d" .string) (.basic .date)).generate new.setting) =
        (.ok g, s) ∧
      ∃ ev : Evaluator, (s.unit [g] (.term (.name g.result))).factory.load = .ok (some ev) ∧
        ∀ (records : List Value) (σ : Scope), (ev.entry records).SameGlobals σ →
          g.Agrees new.options.nullCheck (g.code.run σ)
            ((Expr.cast (.field "d" .string) (.basic .date)).eval
              (new.environment Ty.defaultValue records)) ∧
          ∀ f, (Expr.cast (.field "d" .string) (.basic .date)).eval
            (new.environment Ty.defaultValue records) =
            .error f → f.IsRuntime := by
  have created : Session.create [⟨"row", .plain .row [.mk "d" .string]⟩] (.members []) = .ok _ :=
    rfl
  exact ⟨_, _, _, created, rfl, Session.code_computes_outcome created .refl rfl .refl _ _⟩

end Host

end RowExpr
