import RowExpr.Code.Declaration
import RowExpr.Code.Execution
import RowExpr.Unit.Assembly

/-!
Units as data. A factory declares constants and formatters and sets the zones of
the formatters; loading it runs these statements once and gives an evaluator,
which then runs its block for every tuple of records.
-/

namespace RowExpr

/-- A statement of a factory. -/
inductive FactoryStatement where
  | constant (x : Name) (value : Term)
  | formatter (x : Name) (pattern : Term)
  | setZone (x : Name) (zone : Term)

/-- What an evaluator returns: a term, or a list of terms. -/
inductive Returned where
  | term (t : Term)
  | list (ts : List Term)

/-- What a factory returns: the function that evaluates records, or some value that is no
function. -/
inductive FactoryResult where
  | evaluator (inputs : List Text) (body : Block) (returns : Returned)
  | value (t : Term)

structure Factory where
  statements : List FactoryStatement
  result : FactoryResult

/-- The function of a loaded unit. -/
structure Evaluator where
  scope : Scope
  inputs : List Text
  body : Block
  returns : Returned

/-! ## Loading -/

/-- A date made while a unit is loaded is one object for all evaluations. -/
def Value.asConstant : Value → Value
  | .date .made t => .date .constant t
  | v => v

def FactoryStatement.run [TimeZones] (s : Scope) : FactoryStatement → Except Fault Scope
  | .constant x value => do
    let v ← value.eval s
    return s.bind x v.asConstant
  | .formatter x pattern => do
    match ← pattern.eval s with
    | .text t => return s.bindFormatter x (.ofPattern t)
    | _ => .error .wrongKind
  | .setZone x zone => do
    let f ← s.getFormatter x
    match ← zone.eval s with
    | .text t => return s.bindFormatter x { f with zone := t }
    | _ => .error .wrongKind

/-- Runs the statements of a factory in order. -/
def FactoryStatement.runAll [TimeZones] : List FactoryStatement → Scope → Except Fault Scope
  | [], s => .ok s
  | f :: fs, s => do
    let s ← f.run s
    runAll fs s

/-- Loads a factory; `none` if what it returns is no function. -/
def Factory.load [TimeZones] (f : Factory) : Except Fault (Option Evaluator) := do
  let scope ← FactoryStatement.runAll f.statements .empty
  match f.result with
  | .evaluator inputs body returns => return some { scope, inputs, body, returns }
  | .value t =>
    let _ ← t.eval scope
    return none

/-! ## Evaluation -/

/-- The scope with every input bound to its record; an input without a record is undefined. -/
def Scope.bindInputs (s : Scope) : List Text → List Value → Scope
  | [], _ => s
  | name :: names, [] => (s.bind (.plain name) .undefined).bindInputs names []
  | name :: names, v :: vs => (s.bind (.plain name) v).bindInputs names vs

/-- The values of terms, in order. -/
def Returned.evalAll [TimeZones] (s : Scope) : List Term → Except Fault (List Value)
  | [] => .ok []
  | t :: ts => do
    let v ← t.eval s
    let vs ← evalAll s ts
    return v :: vs

def Returned.eval [TimeZones] (s : Scope) : Returned → Except Fault Value
  | .term t => t.eval s
  | .list ts => do
    let vs ← evalAll s ts
    return .array .made vs

/-- Evaluates one record for each input. -/
def Evaluator.run [TimeZones] (e : Evaluator) (records : List Value) : Except Fault Value := do
  let s ← e.body.run (e.scope.bindInputs e.inputs records)
  e.returns.eval s

/-! ## Generated units -/

/-- A unit made of generated code. -/
structure GeneratedUnit where
  inputs : List Text
  registry : Registry
  body : Block
  returns : Returned

def Returned.text : Returned → Text
  | .term t => t.toText
  | .list ts => ("[" : Text) ++ Text.join ", " (ts.map Term.toText) ++ "]"

def GeneratedUnit.parts (u : GeneratedUnit) : UnitParts where
  inputs := u.inputs
  members := u.registry.memberTexts
  inits := u.registry.initTexts
  body := u.body.text
  returns := u.returns.text

def GeneratedUnit.source (u : GeneratedUnit) : Text := u.parts.source

/-- The factory statement of a declaration. -/
def Declaration.statement : Declaration → FactoryStatement
  | .formatter k => .formatter (.formatter k) (.singleText k.pattern)
  | .dateConstant t => .constant (.dateConstant t) (.call .makeDate (.number t.toDouble))

/-- The factory statements of a member; generated units hold no members given as text. -/
def Member.statement? : Member → Option FactoryStatement
  | .declared d => some d.statement
  | .verbatim _ => none

def Init.statement? (zone : Text) : Init → Option FactoryStatement
  | .setZone k => some (.setZone (.formatter k) (.singleText zone))
  | .verbatim _ => none

def GeneratedUnit.factory (u : GeneratedUnit) : Factory where
  statements := u.registry.members.filterMap Member.statement? ++
    u.registry.inits.filterMap (Init.statement? u.registry.zone)
  result := .evaluator u.inputs u.body u.returns

end RowExpr
