import RowExpr.Calendar.Zone
import RowExpr.Generation.Compile
import RowExpr.Log

/-!
Options and input bindings of a session, and the checks on them. Options come
from outside as values of any kind; `Options.resolve` fills in defaults and
collects every problem in one message. `Input.check` looks at the names of the
inputs in order and reports the first that cannot be used.
-/

namespace RowExpr

structure Options where
  nullCheck : Bool
  timeZone : Text
  sink : Sink

/-- What is given for one option. -/
inductive OptionValue where
  | value (v : Value)
  /-- A logger; `failure` is the message of the error with which it ends every call. -/
  | logger (failure : Option Text)

/-- What is given as options: members, or a value that has none of them. -/
inductive GivenOptions where
  | members (ms : List (Text × OptionValue))
  | other (v : Value)

/-- The word for the kind of a value in a message. -/
def Value.kindWord : Value → Text
  | .undefined => "undefined"
  | .null => "null"
  | .bool _ => "boolean"
  | .number .nan => "NaN"
  | .number (.infinite neg) => if neg then "-Infinity" else "Infinity"
  | .number _ => "number"
  | .text _ => "string"
  | .date _ _ => "Date"
  | .array _ _ => "array"
  | .typed _ k _ => k.name
  | .record _ _ => "object"
  | .method _ _ => "function"

def OptionValue.kindWord : OptionValue → Text
  | .value v => v.kindWord
  | .logger _ => "function"

/-- What is given as levels is frozen before it is looked at. An array of fixed element type can
be frozen only if it is empty. -/
def OptionValue.canFreeze : OptionValue → Bool
  | .value (.typed _ _ elements) => elements.isEmpty
  | _ => true

namespace Options

/-- An option of the wrong kind. -/
def unexpected (expected : Text) (received : Text) : Text :=
  ("Invalid input: expected " : Text) ++ expected ++ ", received " ++ received

/-- A problem and the option it is about. -/
def located (problem option : Text) : Text := problem ++ " at \"" ++ option ++ "\""

def nullCheckOf : OptionValue → Except Text Bool
  | .value .undefined => .ok true
  | .value (.bool b) => .ok b
  | v => .error (located (unexpected "boolean" v.kindWord) "nullCheck")

def timeZoneOf [TimeZones] : OptionValue → Except Text Text
  | .value .undefined => .ok "UTC"
  | .value (.text t) =>
    if TimeZones.accepts t then .ok t else .error (located "Invalid IANA time zone" "timeZone")
  | v => .error (located (unexpected "string" v.kindWord) "timeZone")

/-- The level that a value names. -/
def levelOf? : Value → Option Level
  | .text t => Level.all.find? (·.word == t)
  | _ => none

/-- The problems of a list of levels, the first of which stands at position `i`. -/
def levelProblems (i : Nat) : List Value → List Text
  | [] => []
  | v :: vs =>
    let rest := levelProblems (i + 1) vs
    if (levelOf? v).isSome then
      rest
    else
      located "Invalid option: expected one of \"debug\"|\"error\""
        (("log[" : Text) ++ Text.ofNat i ++ "]") :: rest

/-- A log option can be a list of levels or a logger; a problem is told for both. -/
def logProblem (asList : Text) : Text := asList ++ " or " ++ located "Invalid input" "log"

def sinkOf : OptionValue → Except Text Sink
  | .value .undefined => .ok (.levels [])
  | .logger failure => .ok (.logger failure)
  | .value (.array _ vs) =>
    match levelProblems 0 vs with
    | [] => .ok (.levels (vs.filterMap levelOf?))
    | problems => .error (logProblem (Text.join "; " problems))
  | v => .error (logProblem (located (unexpected "array" v.kindWord) "log"))

/-- The error of options that have problems. -/
def invalid (problems : List Text) : Failure :=
  .generation (.config
    (("Invalid generation options: Validation error: " : Text) ++ Text.join "; " problems))

/-- The problem that a result is, if it is one. -/
def problem? {α : Type} : Except Text α → Option Text
  | .ok _ => none
  | .error problem => some problem

/-- The options that members give. Levels that cannot be frozen are a fault, whatever else is
wrong. -/
def ofMembers [TimeZones] (ms : List (Text × OptionValue)) : Except Failure Options :=
  let get (name : Text) : OptionValue := (ms.lookup name).getD (.value .undefined)
  let nullCheck := nullCheckOf (get "nullCheck")
  let timeZone := timeZoneOf (get "timeZone")
  let sink := sinkOf (get "log")
  if !(get "log").canFreeze then
    .error (.fault .wrongKind)
  else
    match nullCheck, timeZone, sink with
    | .ok nullCheck, .ok timeZone, .ok sink => .ok { nullCheck, timeZone, sink }
    | _, _, _ =>
      .error (invalid ([problem? nullCheck, problem? timeZone, problem? sink].filterMap id))

/-- The options that are meant, or all problems of them in one error. Absent options are all
defaults. -/
def resolve [TimeZones] : GivenOptions → Except Failure Options
  | .members ms => ofMembers ms
  | .other v =>
    match v with
    | .undefined | .null | .date _ _ | .typed _ _ _ | .record _ _ => ofMembers []
    | _ => .error (invalid [unexpected "object" v.kindWord])

end Options

/-! ## Input bindings -/

/-- Words that the generated code cannot use as the name of an input: the words of the target
language, and the names that a unit itself refers to. -/
def Input.reservedNames : List String := [
  "arguments", "await", "break", "case", "catch", "class", "const", "continue",
  "debugger", "default", "delete", "do", "else", "enum", "eval", "export", "extends", "false",
  "finally", "for", "function", "if", "implements", "import", "in", "instanceof", "interface",
  "let", "new", "null", "package", "private", "protected", "public", "return", "static", "super",
  "switch", "this", "throw", "true", "try", "typeof", "var", "void", "while", "with", "yield",
  "runtime", "dateFormatter", "timeFormatter", "timestampFormatter", "Math", "String", "Date",
  "undefined", "NaN", "Infinity"]

/-- `true` for a letter or `_`, then letters, digits and `_`. The dollar sign is left to generated
names. -/
def Input.isIdentifier : Text → Bool
  | [] => false
  | u :: rest =>
    (Text.isLetter u || u == 95) && rest.all fun v => Text.isLetter v || Text.isDigit v || v == 95

def Input.isReserved (name : Text) : Bool := reservedNames.any fun s => Text.ofString s == name

/-- Why a name cannot be that of an input after the inputs `seen`. -/
def Input.problem? (seen : List Text) (name : Text) : Option Text :=
  if !isIdentifier name then
    some (("Input name \"" : Text) ++ name ++ "\" is not a valid identifier")
  else if isReserved name then
    some (("Input name \"" : Text) ++ name ++ "\" is reserved")
  else if name ∈ seen then
    some (("Duplicate input name \"" : Text) ++ name ++ "\"")
  else
    none

/-- Checks the names of inputs one after the other; `seen` are those already checked. -/
def Input.checkAfter (seen : List Text) : List Text → Except GenerationError Unit
  | [] => .ok ()
  | name :: rest =>
    match problem? seen name with
    | some message => .error (.config message)
    | none => checkAfter (name :: seen) rest

def Input.check (names : List Text) : Except GenerationError Unit := checkAfter [] names

end RowExpr
