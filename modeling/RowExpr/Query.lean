import RowExpr.Session
import RowExpr.Unit.Loader

/-!
Filters and projections: functions on records that are generated from
expressions. `Query.projection` gives the list of the values of its expressions,
`Query.filter` tells whether its predicate is true; an absent value is null in a
projection and not true in a filter.
-/

namespace RowExpr

/-- A generated function and the text it was loaded from. -/
structure Query where
  source : Text
  evaluator : Evaluator

/-- The unit of generated code in a session. -/
def Session.unit (s : Session) (codes : List Generated) (returns : Returned) : GeneratedUnit where
  inputs := s.inputs.map Input.name
  registry := s.registry
  body := codes.flatMap Generated.code
  returns := returns

/-- The term of a projected value. -/
def Session.projected (s : Session) (g : Generated) : Term :=
  if s.options.nullCheck then .cond (.name g.isNull) .null (.name g.result) else .name g.result

/-- The term that tells whether a predicate is true. -/
def Session.accepted (s : Session) (g : Generated) : Term :=
  let isTrue := Term.binary .strictEq (.name g.result) (.bool true)
  if s.options.nullCheck then .binary .and (.unary .not (.name g.isNull)) isTrue else isTrue

/-- Loads a unit as a query. -/
def Query.load [TimeZones] (sink : Sink) (u : GeneratedUnit) : Report Query := do
  let evaluator ← Loader.loadUnit sink u
  return ⟨u.source, evaluator⟩

/-- The function that gives the values of expressions, with its own terms for absent values. -/
def Query.projectionWith [TimeZones] (defaults : Ty → Term) (inputs : List Input)
    (expressions : List Expr) (given : GivenOptions) : Report Query := do
  let s ← Report.ofExcept (Session.createWith defaults inputs given)
  let (report, s) := s.compileAll expressions
  let codes ← report
  load s.options.sink (s.unit codes (.list (codes.map s.projected)))

/-- The function that gives the values of expressions. -/
def Query.projection [TimeZones] (inputs : List Input) (expressions : List Expr)
    (given : GivenOptions) : Report Query :=
  projectionWith Ty.defaultTerm inputs expressions given

/-- The function that tells whether a predicate is true, with its own terms for absent values. The
type of the predicate is checked before all else. -/
def Query.filterWith [TimeZones] (defaults : Ty → Term) (inputs : List Input) (predicate : Expr)
    (given : GivenOptions) : Report Query := do
  if !predicate.type.isBasicNamed .boolean then
    Report.fail (.generation (.unsupported predicate "filter predicate must be of type Boolean"))
  else
    let s ← Report.ofExcept (Session.createWith defaults inputs given)
    let (report, s) := s.compileOrFail predicate
    let g ← report
    load s.options.sink (s.unit [g] (.term (s.accepted g)))

/-- The function that tells whether a predicate is true. -/
def Query.filter [TimeZones] (inputs : List Input) (predicate : Expr) (given : GivenOptions) :
    Report Query :=
  filterWith Ty.defaultTerm inputs predicate given

/-- The value of a query on one record for each input. -/
def Query.run [TimeZones] (q : Query) (records : List Value) : Except Fault Value :=
  q.evaluator.run records

/-- A filter accepts records if its value is true. -/
def Query.accepts [TimeZones] (q : Query) (records : List Value) : Except Fault Bool := do
  return (← q.run records).strictEq (.bool true)

end RowExpr
