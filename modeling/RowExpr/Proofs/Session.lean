import Mathlib.Logic.Relation
import RowExpr.Proofs.Code.Registry
import RowExpr.Proofs.Generation.Emission
import RowExpr.Proofs.Schema.Composite
import RowExpr.Session

/-!
The history of a session.

`Session.Leads` relates a session to what any uses of it make of it. A session only
grows: its inputs and options stay, and declarations are added to its registry but
never taken away (`Session.Leads.grows`). A session that was created stays
sound (`Session.Sound`): its inputs have different names, and its registry lists
declarations in the zone of the options.

What a compile call reports is the outcome of generation, unless the logger fails
(`Session.outcome_compile`).
-/

namespace RowExpr

/-! ## Uses of a session -/

/-- One use of a session: it compiles an expression, with or without success, or
gives out a name, or is asked for a declaration. -/
inductive Session.Step : Session → Session → Prop
  | compile (s : Session) (e : Expr) : Session.Step s (s.compile e).2
  | fresh (s : Session) (stem : Text) : Session.Step s (s.fresh stem).2
  | declare (s : Session) (d : Declaration) :
    Session.Step s { s with registry := s.registry.ensure d }

/-- Any number of uses, one after the other. -/
def Session.Leads : Session → Session → Prop := Relation.ReflTransGen Session.Step

/-- What every use of a session leaves as it is, and how it changes the rest. -/
structure Session.Grows (s s' : Session) : Prop where
  inputs : s'.inputs = s.inputs
  options : s'.options = s.options
  defaults : s'.defaults = s.defaults
  registry : ∃ asked, s'.registry = s.registry.ensureAll asked

theorem Session.Grows.refl (s : Session) : s.Grows s :=
  ⟨rfl, rfl, rfl, [], rfl⟩

theorem Session.Grows.trans {s s' s'' : Session} (first : s.Grows s') (rest : s'.Grows s'') :
    s.Grows s'' := by
  obtain ⟨asked, early⟩ := first.registry
  obtain ⟨more, late⟩ := rest.registry
  refine ⟨rest.inputs.trans first.inputs, rest.options.trans first.options,
    rest.defaults.trans first.defaults, asked ++ more, ?_⟩
  rw [late, early, Registry.ensureAll_append]

/-- Generation finds the same setting after every use. -/
theorem Session.Grows.setting {s s' : Session} (grows : s.Grows s') : s'.setting = s.setting := by
  rw [Session.setting, Session.setting, grows.inputs, grows.options, grows.defaults]

/-- A step of generation changes the names that are taken and what has been asked for. -/
theorem Session.Grows.draft {α : Type} (s : Session) (step : Gen α) : s.Grows (s.draft step).2 :=
  ⟨rfl, rfl, rfl, _, rfl⟩

/-- Compiling leaves the session as the step of generation does, whatever is logged. -/
theorem Session.compile_snd (s : Session) (e : Expr) :
    (s.compile e).2 = (s.draft (e.generate s.setting)).2 := by
  unfold Session.compile
  split
  · next drafted => rw [drafted]
  · next drafted => rw [drafted]

/-- Every single use of a session lets it grow. -/
theorem Session.Step.grows {s s' : Session} (step : Session.Step s s') : s.Grows s' := by
  cases step with
  | compile e =>
    rw [Session.compile_snd]
    exact .draft s _
  | fresh stem => exact ⟨rfl, rfl, rfl, [], rfl⟩
  | declare d => exact ⟨rfl, rfl, rfl, [d], rfl⟩

theorem Session.Leads.grows {s s' : Session} (leads : s.Leads s') : s.Grows s' := by
  induction leads with
  | refl => exact .refl s
  | tail _ step ih => exact ih.trans step.grows

/-! ## Sound sessions -/

/-- A session whose inputs have different names and whose registry lists declarations
in the zone of its options. -/
structure Session.Sound (s : Session) : Prop where
  names : (s.inputs.map Input.name).Nodup
  zone : s.registry.zone = s.options.timeZone
  registry : s.registry.Covers []

/-- A name that can be that of an input after others. -/
theorem Input.of_problem?_eq_none {seen : List Text} {name : Text}
    (fine : Input.problem? seen name = none) :
    Input.isIdentifier name = true ∧ Input.isReserved name = false ∧ name ∉ seen := by
  unfold Input.problem? at fine
  split at fine
  · cases fine
  · split at fine
    · cases fine
    · split at fine
      · cases fine
      · simp_all

/-- The check of inputs refuses a name that occurs twice. -/
theorem Input.distinct_of_checkAfter {seen names : List Text}
    (checked : Input.checkAfter seen names = .ok ()) : Text.Distinct seen names := by
  induction names generalizing seen with
  | nil => exact Text.distinct_nil seen
  | cons name names ih =>
    rw [Input.checkAfter] at checked
    split at checked
    · cases checked
    · next fine => exact .cons (Input.of_problem?_eq_none fine).2.2 (ih checked)

/-- A session that could be created has inputs with names that can be used. -/
theorem Session.check_of_createWith [TimeZones] {defaults : Ty → Term} {inputs : List Input}
    {given : GivenOptions} {s : Session}
    (created : Session.createWith defaults inputs given = .ok s) :
    Input.check (inputs.map Input.name) = .ok () := by
  unfold Session.createWith at created
  cases checked : Input.check (inputs.map Input.name) with
  | error e =>
    rw [checked] at created
    cases created
  | ok _ => rfl

/-- A session that has been created is sound. -/
theorem Session.sound_createWith [TimeZones] {defaults : Ty → Term} {inputs : List Input}
    {given : GivenOptions} {s : Session}
    (created : Session.createWith defaults inputs given = .ok s) : s.Sound := by
  have checked := Session.check_of_createWith created
  unfold Session.createWith at created
  obtain ⟨-, -, created⟩ := of_bind_eq_ok created
  obtain ⟨options, -, made⟩ := of_bind_eq_ok created
  cases made
  exact ⟨(Input.distinct_of_checkAfter checked).nodup, rfl, [], Registry.lists_empty _,
    List.nil_subset _⟩

/-- A sound session stays sound, whatever it is used for. -/
theorem Session.Sound.grows {s s' : Session} (sound : s.Sound) (grows : s.Grows s') :
    s'.Sound := by
  obtain ⟨asked, registry⟩ := grows.registry
  refine ⟨?_, ?_, ?_⟩
  · rw [grows.inputs]
    exact sound.names
  · rw [registry, Registry.zone_ensureAll, grows.options]
    exact sound.zone
  · rw [registry]
    exact (sound.registry.ensureAll asked).mono (List.nil_subset _)

/-- What has been asked for once stays declared. -/
theorem Session.Grows.covers {s s' : Session} (grows : s.Grows s') {ds : List Declaration}
    (covers : s.registry.Covers ds) : s'.registry.Covers ds := by
  obtain ⟨asked, registry⟩ := grows.registry
  rw [registry]
  exact (covers.ensureAll asked).mono (List.subset_append_left _ _)

/-- What is created with given terms for absent values keeps inputs, options and terms. -/
theorem Session.of_createWith [TimeZones] {defaults : Ty → Term} {inputs : List Input}
    {given : GivenOptions} {s : Session}
    (created : Session.createWith defaults inputs given = .ok s) :
    s.inputs = inputs ∧ Options.resolve given = .ok s.options ∧ s.defaults = defaults := by
  unfold Session.createWith at created
  obtain ⟨-, -, created⟩ := of_bind_eq_ok created
  obtain ⟨options, resolved, made⟩ := of_bind_eq_ok created
  cases made
  exact ⟨rfl, resolved, rfl⟩

/-! ## Reports -/

theorem Report.outcome_bind {α β : Type} (r : Report α) (f : α → Report β) :
    (r >>= f).outcome = (do let a ← r.outcome; (f a).outcome) := by
  show (Report.bind r f).outcome = _
  unfold Report.bind
  cases r.outcome <;> rfl

/-- If steps in a row succeed, each of them has. -/
theorem Report.of_bind_eq_ok {α β : Type} {r : Report α} {f : α → Report β} {b : β}
    (ok : (r >>= f).outcome = .ok b) : ∃ a, r.outcome = .ok a ∧ (f a).outcome = .ok b := by
  rw [Report.outcome_bind] at ok
  exact RowExpr.of_bind_eq_ok ok

theorem Report.outcome_ofExcept {α : Type} (r : Except Failure α) :
    (Report.ofExcept r).outcome = r := by
  cases r <;> rfl

/-- How every call of a sink ends, whatever it is told: only a logger can fail. -/
def Sink.reply : Sink → Except Failure Unit
  | .logger (some message) => .error (.plain message)
  | _ => .ok ()

/-- An event ends as the logger replies to it. -/
theorem Sink.outcome_emit (sink : Sink) (event : Event) :
    (sink.emit event).outcome = sink.reply := by
  rcases sink with enabled | (_ | message)
  · unfold Sink.emit Sink.entry?
    cases Sink.isEnabled (.levels enabled) event.level <;> rfl
  · rfl
  · rfl

/-- Only a logger that throws can make a call fail. -/
theorem Sink.reply_of_quiet {sink : Sink} (quiet : ∀ message, sink ≠ .logger (some message)) :
    sink.reply = .ok () := by
  unfold Sink.reply
  split
  · next message => exact absurd rfl (quiet message)
  · rfl

/-- A compile call reports the outcome of generation, unless the logger fails. -/
theorem Session.outcome_compile (s : Session) (e : Expr) :
    (s.compile e).1.outcome = (do
      s.options.sink.reply
      return (e.generate s.setting s.names).outcome) := by
  unfold Session.compile Session.draft
  cases made : (e.generate s.setting s.names).outcome with
  | ok g =>
    simp only [made, Report.outcome_bind, Sink.outcome_emit]
    rfl
  | error err =>
    simp only [made, Report.outcome_bind, Sink.outcome_emit]
    rfl

/-- A compile call fails if the logger does, and else as generation does. -/
theorem Session.outcome_compileOrFail (s : Session) (e : Expr) :
    (s.compileOrFail e).1.outcome = (do
      s.options.sink.reply
      (e.generate s.setting s.names).outcome.mapError .generation) := by
  unfold Session.compileOrFail
  simp only [Report.outcome_bind, Report.outcome_ofExcept, s.outcome_compile e]
  cases s.options.sink.reply <;> rfl

/-- An answer of a compile call, as it is reported when a refusal is a failure. -/
theorem Session.compileOrFail_of_compile {s : Session} {e : Expr}
    {answer : Except GenerationError Generated}
    (reported : (s.compile e).1.outcome = .ok answer) :
    (s.compileOrFail e).1.outcome = answer.mapError .generation := by
  unfold Session.compileOrFail
  simp only [Report.outcome_bind, Report.outcome_ofExcept, reported]
  rfl

/-- The first expression that fails ends the list. -/
theorem Session.outcome_compileAll_cons (s : Session) (e : Expr) (es : List Expr) :
    (s.compileAll (e :: es)).1.outcome = (do
      let g ← (s.compileOrFail e).1.outcome
      let gs ← ((s.compileOrFail e).2.compileAll es).1.outcome
      return g :: gs) := by
  rw [Session.compileAll]
  cases first : (s.compileOrFail e).1.outcome with
  | error f =>
    simp only [first]
    rfl
  | ok g =>
    simp only [first]
    cases ((s.compileOrFail e).2.compileAll es).1.outcome <;> rfl

/-- The session goes on from where the first expression has left it. -/
theorem Session.compileAll_cons_snd {s : Session} {e : Expr} {g : Generated}
    (first : (s.compileOrFail e).1.outcome = .ok g) (es : List Expr) :
    (s.compileAll (e :: es)).2 = ((s.compileOrFail e).2.compileAll es).2 := by
  rw [Session.compileAll]
  simp only [first]

end RowExpr
