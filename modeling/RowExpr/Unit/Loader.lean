import RowExpr.Log
import RowExpr.Unit.Reader

/-!
Loading units. The unit is announced in the log; a text that is no unit, a factory
that fails and a factory that returns no function are compile errors, which carry
the text of the unit.
-/

namespace RowExpr

/-- The kind of error that a fault is for the one who loads a unit. -/
def Fault.causeKind : Fault → CauseKind
  | .wrongKind => .wrongKind
  | _ => .plain

namespace Loader

def compilingEvent (source : Text) : Event where
  level := .debug
  message := "Compiling generated unit"
  details := some (.record .made [("source", .text source)])
  error := none

/-- What is said of a text that is no unit. -/
def malformed : Text := "Generated unit does not compile"

def malformedEvent (source : Text) : Event where
  level := .error
  message := malformed
  details := some (.record .made [("source", .text source)])
  error := none

def loadFailed : Text := "Failed to load generated unit"

def loadFailedEvent (cause : CauseKind) : Event where
  level := .error
  message := loadFailed
  details := none
  error := some (.cause cause)

def noFactory : Text :=
  ("Generated unit does not export \"" : Text) ++ UnitParts.factoryName ++ "\""

def noFunction : Text := "Evaluator factory did not return a function"

/-- A compile error about a source. -/
def fail {α : Type} (message source : Text) (cause : Option CauseKind) : Report α :=
  Report.fail (.generation (.compile message source cause))

/-- Logs that loading failed, and fails. -/
def failLoading {α : Type} (sink : Sink) (source : Text) (cause : CauseKind) : Report α := do
  sink.emit (loadFailedEvent cause)
  fail loadFailed source (some cause)

/-- Runs a factory. -/
def loadFactory [TimeZones] (sink : Sink) (source : Text) (f : Factory) : Report Evaluator :=
  match f.load with
  | .ok (some evaluator) => return evaluator
  | .ok none => fail noFunction source none
  | .error fault => failLoading sink source fault.causeKind

/-- Loads a generated unit. -/
def loadUnit [TimeZones] (sink : Sink) (u : GeneratedUnit) : Report Evaluator := do
  sink.emit (compilingEvent u.source)
  loadFactory sink u.source u.factory

/-- Why a list of items fails when it is loaded, if it does. -/
def itemFailure? [TimeZones] : List SourceItem → Option CauseKind
  | [] => none
  | .raise _ :: _ => some .plain
  | .constant _ value :: rest =>
    match value.eval .empty with
    | .ok _ => itemFailure? rest
    | .error fault => some fault.causeKind
  | .factory _ _ :: rest => itemFailure? rest

/-- The exported factory of a unit; the last item of its name counts. -/
def exportedFactory? (items : List SourceItem) : Option Factory :=
  items.foldl (fun found item =>
    match item with
    | .factory name f => if name = UnitParts.factoryName then some f else found
    | .constant name _ => if name = UnitParts.factoryName then none else found
    | .raise _ => found) none

/-- Loads a unit from its text. -/
def loadSource [TimeZones] (sink : Sink) (source : Text) : Report Evaluator := do
  sink.emit (compilingEvent source)
  match SourceItem.read? source with
  | none =>
    sink.emit (malformedEvent source)
    fail malformed source none
  | some items =>
    match itemFailure? items with
    | some cause => failLoading sink source cause
    | none =>
      match exportedFactory? items with
      | some f => loadFactory sink source f
      | none => fail noFactory source none

end Loader

end RowExpr
