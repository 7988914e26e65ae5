import RowExpr.Generation.Error
import RowExpr.Value.Operator

/-!
Logging. Events go to a sink: a list of levels, whose events are printed, or a
logger, which receives every event and may itself fail after it. A `Report` is
the outcome of an operation together with the entries logged on the way.
-/

namespace RowExpr

/-- What an operation fails with. -/
inductive Failure where
  | generation (e : GenerationError)
  | fault (f : Fault)
  /-- An error with a message and nothing else. -/
  | plain (message : Text)

inductive Level where
  | debug | error
deriving DecidableEq, Repr

def Level.all : List Level := [.debug, .error]

def Level.word : Level → Text
  | .debug => "debug"
  | .error => "error"

/-- What an event carries along: a value, an error, or the cause of one. -/
inductive Payload where
  | value (v : Value)
  | error (e : GenerationError)
  | cause (k : CauseKind)

structure Event where
  level : Level
  message : Text
  details : Option Value
  error : Option Payload

inductive Sink where
  | levels (enabled : List Level)
  /-- A logger; `failure` is the message of the error with which it ends every call. -/
  | logger (failure : Option Text)

inductive LogStream where
  | out | err
deriving DecidableEq, Repr

inductive LogEntry where
  /-- An event that a logger received. -/
  | event (e : Event)
  /-- A printed line, with what was printed after it. -/
  | line (stream : LogStream) (text : Text) (rest : List Payload)

/-- `true` if events of a level reach the sink. -/
def Sink.isEnabled : Sink → Level → Bool
  | .levels enabled, level => level ∈ enabled
  | .logger _, _ => true

/-- How an event is printed: an error with its cause, any other event with its details. -/
def Event.printed (e : Event) : LogEntry :=
  let text : Text := ("[exprgen] " : Text) ++ e.message
  match e.level, e.details with
  | .error, _ => .line .err text e.error.toList
  | .debug, some details => .line .out text (if details.truthy then [.value details] else [])
  | .debug, none => .line .out text []

/-- The entry that an event leaves in the sink when it is logged at a level, if the level is
enabled. -/
def Sink.entry? (s : Sink) (level : Level) (e : Event) : Option LogEntry :=
  if s.isEnabled level then
    match s with
    | .levels _ => some e.printed
    | .logger _ => some (.event e)
  else
    none

/-! ## Reports -/

structure Report (α : Type) where
  log : List LogEntry
  outcome : Except Failure α

def Report.pure {α : Type} (a : α) : Report α := ⟨[], .ok a⟩

def Report.bind {α β : Type} (r : Report α) (f : α → Report β) : Report β :=
  match r.outcome with
  | .ok a => ⟨r.log ++ (f a).log, (f a).outcome⟩
  | .error e => ⟨r.log, .error e⟩

instance : Monad Report where
  pure := Report.pure
  bind := Report.bind

def Report.fail {α : Type} (e : Failure) : Report α := ⟨[], .error e⟩

def Report.ofExcept {α : Type} : Except Failure α → Report α
  | .ok a => Report.pure a
  | .error e => Report.fail e

/-- Logs an event at its own level; a failing logger makes the operation fail. -/
def Sink.emit (s : Sink) (e : Event) : Report Unit :=
  match s.entry? e.level e with
  | none => Report.pure ()
  | some entry =>
    match s with
    | .logger (some message) => ⟨[entry], .error (.plain message)⟩
    | _ => ⟨[entry], .ok ()⟩

end RowExpr
