import RowExpr.Options

/-!
Sessions. A session holds the inputs and options of one unit, its supply of names
and the declarations asked for so far. Every step gives the session after it: a
step that fails keeps the names and declarations it had already taken.
-/

namespace RowExpr

structure Session where
  inputs : List Input
  options : Options
  /-- The term that stands for an absent value of a type. -/
  defaults : Ty → Term
  names : NameSupply
  registry : Registry

/-- A new session with its own terms for absent values. The names of the inputs are checked before
the options. -/
def Session.createWith [TimeZones] (defaults : Ty → Term) (inputs : List Input)
    (given : GivenOptions) : Except Failure Session := do
  (Input.check (inputs.map Input.name)).mapError .generation
  let options ← Options.resolve given
  return { inputs, options, defaults, names := .full, registry := .empty options.timeZone }

/-- A new session. -/
def Session.create [TimeZones] (inputs : List Input) (given : GivenOptions) :
    Except Failure Session :=
  createWith Ty.defaultTerm inputs given

def Session.setting (s : Session) : Setting :=
  { inputs := s.inputs, nullCheck := s.options.nullCheck, defaults := s.defaults }

/-- A new name of this stem. -/
def Session.fresh (s : Session) (stem : Text) : Name × Session :=
  let (x, names) := s.names.fresh stem
  (x, { s with names })

/-- Runs a step of generation in the session. -/
def Session.draft {α : Type} (s : Session) (step : Gen α) : Except GenerationError α × Session :=
  let d := step s.names
  (d.outcome, { s with names := d.names, registry := s.registry.ensureAll d.requests })

/-- What a session tells about the code of an expression. -/
def Session.generatedEvent (s : Session) (e : Expr) (g : Generated) : Event where
  level := .debug
  message := ("Generated code for " : Text) ++ e.text
  details := some (.record .made [
    ("resultTerm", .text g.result.text),
    ("nullTerm", if s.options.nullCheck then .text g.isNull.text else .undefined),
    ("members", .number (Double.ofInt s.registry.members.length)),
    ("inits", .number (Double.ofInt s.registry.inits.length))])
  error := none

/-- What a session tells about an error. -/
def Session.failedEvent (e : GenerationError) : Event where
  level := .error
  message := e.message
  details := none
  error := some (.error e)

/-- Generates the code of an expression and logs the outcome. The report fails only if the logger
does. -/
def Session.compile (s : Session) (e : Expr) :
    Report (Except GenerationError Generated) × Session :=
  match s.draft (e.generate s.setting) with
  | (.ok g, s) => (do s.options.sink.emit (s.generatedEvent e g); return .ok g, s)
  | (.error err, s) => (do s.options.sink.emit (failedEvent err); return .error err, s)

/-- Generates the code of an expression; an error makes the report fail. -/
def Session.compileOrFail (s : Session) (e : Expr) : Report Generated × Session :=
  let (report, s) := s.compile e
  (do Report.ofExcept ((← report).mapError .generation), s)

/-- Generates the code of expressions in order, up to the first that fails. -/
def Session.compileAll (s : Session) : List Expr → Report (List Generated) × Session
  | [] => (Report.pure [], s)
  | e :: es =>
    let (report, s) := s.compileOrFail e
    match report.outcome with
    | .ok g =>
      let (rest, s) := s.compileAll es
      (⟨report.log ++ rest.log, rest.outcome.map (g :: ·)⟩, s)
    | .error err => (⟨report.log, .error err⟩, s)

end RowExpr
