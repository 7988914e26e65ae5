import RowExpr.Calendar.Civil
import RowExpr.Calendar.Instant
import RowExpr.Calendar.Zone

/-!
Date patterns. A pattern such as `yyyy-MM-dd HH:mm:ss.SSS` is a list of fields of
fixed width and of literal units. `Formatter.format` writes the local date and
time of an instant, `Formatter.parse?` reads the longest beginning of a text that
the pattern matches in full. A pattern without a date is read on 1970-01-01.
-/

namespace RowExpr

inductive DateField where
  | year | month | day | hour | minute | second | milli
deriving DecidableEq, Repr

/-- The letters of a field in a pattern. -/
def DateField.letters : DateField → Text
  | .year => "yyyy"
  | .month => "MM"
  | .day => "dd"
  | .hour => "HH"
  | .minute => "mm"
  | .second => "ss"
  | .milli => "SSS"

/-- The number of digits of a field. -/
def DateField.width (f : DateField) : Nat := f.letters.length

def DateField.all : List DateField := [.year, .month, .day, .hour, .minute, .second, .milli]

def DateField.get (f : DateField) (c : Civil) : Int :=
  match f with
  | .year => c.year
  | .month => c.month
  | .day => c.day
  | .hour => c.hour
  | .minute => c.minute
  | .second => c.second
  | .milli => c.milli

def DateField.set (f : DateField) (n : Int) (c : Civil) : Civil :=
  match f with
  | .year => { c with year := n }
  | .month => { c with month := n }
  | .day => { c with day := n }
  | .hour => { c with hour := n }
  | .minute => { c with minute := n }
  | .second => { c with second := n }
  | .milli => { c with milli := n }

/-- The least value of a field that can be left out. -/
def DateField.least : DateField → Int
  | .month | .day => 1
  | _ => 0

/-- A piece of a pattern: a field, or a unit that stands for itself. -/
inductive PatternToken where
  | field (f : DateField)
  | literal (u : UInt16)
deriving DecidableEq, Repr

/-- The field whose letters begin a text. -/
def PatternToken.fieldAt? (t : Text) : Option DateField :=
  DateField.all.find? fun f => f.letters.isPrefixOf t

/-- The tokens of a pattern; `skip` counts the letters of a field already read. -/
def PatternToken.scan : (skip : Nat) → Text → List PatternToken
  | _, [] => []
  | skip + 1, _ :: rest => scan skip rest
  | 0, u :: rest =>
    match fieldAt? (u :: rest) with
    | some f => .field f :: scan (f.width - 1) rest
    | none => .literal u :: scan 0 rest

/-- The tokens of a pattern. -/
def PatternToken.ofText (pattern : Text) : List PatternToken := scan 0 pattern

/-- A number with at least `width` digits, the sign before them. -/
def PatternToken.padded (width : Nat) (n : Int) : Text :=
  let digits := (Text.ofNat n.natAbs).padLeft Text.zeroDigit width
  if n < 0 then Text.minus :: digits else digits

def PatternToken.write (c : Civil) : PatternToken → Text
  | .field f => padded f.width (f.get c)
  | .literal u => [u]

/-- Reads a whole text by the tokens, setting the fields of `c`. -/
def PatternToken.read? : List PatternToken → Text → Civil → Option Civil
  | [], t, c => if t = [] then some c else none
  | .literal u :: tokens, v :: t, c => if u = v then read? tokens t c else none
  | .literal _ :: _, [], _ => none
  | .field f :: tokens, t, c =>
    let digits := t.take f.width
    if digits.length = f.width ∧ digits.all Text.isDigit then
      read? tokens (t.drop f.width) (f.set (Text.digitsValue digits) c)
    else
      none

/-- The fields from which reading starts. Those after the first that is named have their
least value, the others are those of `c`. -/
def PatternToken.settle (tokens : List PatternToken) : List DateField → Civil → Civil
  | [], c => c
  | f :: fs, c =>
    if .field f ∈ tokens then fs.foldl (fun c g => g.set g.least c) c else settle tokens fs c

/-- A pattern and the identifier of the zone in which it writes and reads. -/
structure Formatter where
  pattern : Text
  zone : Text
deriving DecidableEq, Repr

/-- A formatter of this pattern in UTC. -/
def Formatter.ofPattern (pattern : Text) : Formatter := ⟨pattern, "UTC"⟩

/-- What is written for a date that has no time, and in a zone that is not known. -/
def Formatter.invalidText : Text := "Invalid DateTime"

/-- The local date and time of a time, if it has one. -/
def Formatter.civil? [TimeZones] (f : Formatter) (t : Time) : Option Civil :=
  match t, TimeZones.zone? f.zone with
  | some i, some z =>
    (Time.ofMillis (i.millis + z.offsetAt i.millis)).map fun l => Civil.ofMillis l.millis
  | _, _ => none

def Formatter.format [TimeZones] (f : Formatter) (t : Time) : Text :=
  match f.civil? t with
  | some c => (PatternToken.ofText f.pattern).flatMap (PatternToken.write c)
  | none => invalidText

/-- The present date and time in a zone. -/
def Zone.present [TimeZones] (z : Zone) : Civil :=
  Civil.ofMillis (TimeZones.now + z.offsetAt TimeZones.now)

/-- The instant of the local time that a whole text gives, if the fields that the tokens do not
name are those of `c`. -/
def Zone.instant? [TimeZones] (z : Zone) (tokens : List PatternToken) (t : Text) (c : Civil) :
    Option Instant :=
  match PatternToken.read? tokens t c with
  | some c => if c.isValid then Time.ofMillis (z.resolveLocal c.toMillis) else none
  | none => none

/-- The instant that a whole text denotes by a pattern as it is. -/
def Formatter.denoted? [TimeZones] (f : Formatter) (t : Text) : Option Instant :=
  match TimeZones.zone? f.zone with
  | some z =>
    let tokens := PatternToken.ofText f.pattern
    z.instant? tokens t (PatternToken.settle tokens DateField.all z.present)
  | none => none

/-- The pattern has a letter of a year, a month or a day. -/
def Formatter.isDated (f : Formatter) : Bool :=
  f.pattern.any fun u => u == 121 || u == 77 || u == 100

/-- The instant that a whole text denotes. By a pattern without a date it is read after the
text of the first day. -/
def Formatter.parseExact? [TimeZones] (f : Formatter) (t : Text) : Option Instant :=
  if f.isDated then
    f.denoted? t
  else
    denoted? { f with pattern := ("yyyy-MM-dd " : Text) ++ f.pattern }
      (("1970-01-01 " : Text) ++ t)

/-- The instant of the longest nonempty beginning of a text, of at most `limit` units, that reads
as a date. -/
def Formatter.parseWithin? [TimeZones] (f : Formatter) (t : Text) : (limit : Nat) → Option Instant
  | 0 => none
  | limit + 1 =>
    match f.parseExact? (t.take (limit + 1)) with
    | some i => some i
    | none => parseWithin? f t limit

/-- The instant of the longest nonempty beginning of a text that reads as a date. -/
def Formatter.parse? [TimeZones] (f : Formatter) (t : Text) : Option Instant :=
  f.parseWithin? t t.length

/-! ## Standard patterns -/

/-- The formatters that a unit can declare. -/
inductive FormatterKind where
  | date | time | timestamp
deriving DecidableEq, Repr

def FormatterKind.all : List FormatterKind := [.date, .time, .timestamp]

def FormatterKind.word : FormatterKind → Text
  | .date => "date"
  | .time => "time"
  | .timestamp => "timestamp"

def FormatterKind.pattern : FormatterKind → Text
  | .date => "yyyy-MM-dd"
  | .time => "HH:mm:ss"
  | .timestamp => "yyyy-MM-dd HH:mm:ss.SSS"

def FormatterKind.inZone (k : FormatterKind) (zone : Text) : Formatter := ⟨k.pattern, zone⟩

end RowExpr
