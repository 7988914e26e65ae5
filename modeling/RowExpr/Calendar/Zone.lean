import RowExpr.Text.Basic

/-!
Time zones. Which identifiers name a zone, how far a zone is from UTC at an instant and
what time it is now all come from outside of the program. `TimeZones` holds what is
known of them, and whatever writes or reads local times takes it as a parameter.
`Zone.resolveLocal` finds the instant of a local time.
-/

namespace RowExpr

/-- The largest offset that an identifier can write, 99 hours and 99 minutes, in
milliseconds. -/
abbrev Zone.furthest : Nat := 362340000

/-- A time zone: its offset from UTC, in milliseconds, at each epoch millisecond. -/
structure Zone where
  offsetAt : Int → Int
  bounded : ∀ millis, (offsetAt millis).natAbs ≤ Zone.furthest

/-- The zone whose offset never changes. -/
def Zone.fixed (offset : Int) (bounded : offset.natAbs ≤ furthest) : Zone :=
  ⟨fun _ => offset, fun _ => bounded⟩

def Zone.utc : Zone := fixed 0 (by decide)

/-- What is known of time outside of the program, and what can be relied on. -/
class TimeZones where
  /-- Whether options accept an identifier as that of a zone. -/
  accepts : Text → Bool
  /-- The zone that a formatter uses for an identifier, if it knows one. -/
  zone? : Text → Option Zone
  /-- The present, as an epoch millisecond. -/
  now : Int
  /-- Formatters know every zone that options accept. -/
  known : ∀ id, accepts id = true → (zone? id).isSome = true
  /-- No identifier of a zone has a control character. -/
  printable : ∀ id, accepts id = true → ∀ u ∈ id, 32 ≤ u
  utc : zone? "UTC" = some Zone.utc

/-- The epoch millisecond of a local time, given as if it were UTC. The guess made with the
offset of the present is corrected once; if that lands on another offset again, the local
time is skipped by a change of the clock, and the smaller of the two offsets is used. -/
def Zone.resolveLocal [TimeZones] (z : Zone) (localMillis : Int) : Int :=
  let o := z.offsetAt TimeZones.now
  let guess := localMillis - o
  let o2 := z.offsetAt guess
  if o2 = o then
    guess
  else
    let second := guess - (o2 - o)
    let o3 := z.offsetAt second
    if o3 = o2 then second else localMillis - min o2 o3

end RowExpr
