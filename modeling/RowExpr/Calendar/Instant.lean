import RowExpr.Number.Arithmetic

/-!
Instants: whole milliseconds since 1970-01-01 in UTC, at most a hundred million
days away from it. A `Time` is an instant or, for a date without one, nothing.
-/

namespace RowExpr

/-- The largest distance of an instant from the epoch, in milliseconds. -/
abbrev Instant.limit : Nat := 8640000000000000

structure Instant where
  millis : Int
  inRange : millis.natAbs ≤ Instant.limit
deriving DecidableEq

/-- The time of a date; `none` is the time of an invalid date. -/
abbrev Time := Option Instant

/-- The time at this many milliseconds, if that is in range. -/
def Time.ofMillis (millis : Int) : Time :=
  if h : millis.natAbs ≤ Instant.limit then some ⟨millis, h⟩ else none

/-- The time at a number of milliseconds: the fraction is dropped, NaN and numbers out of range
are no time. -/
def Time.ofDouble (x : Double) : Time :=
  match x.truncated? with
  | some millis => ofMillis millis
  | none => none

/-- The milliseconds of a time as a number, NaN if there is no time. -/
def Time.toDouble : Time → Double
  | some t => Double.ofInt t.millis
  | none => .nan

end RowExpr
