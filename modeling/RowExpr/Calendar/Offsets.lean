import RowExpr.Calendar.Zone

/-!
Zones that are told by their identifiers alone: UTC under three names and offsets such as
`+05:30`, which options accept, and offsets such as `utc+3`, which only formatters know.
Letters count in either case. `Offsets.host` is a host that has these zones and no others.
-/

namespace RowExpr

/-! ## Identifiers -/

/-- The names of UTC, in small letters. -/
def Offsets.namesOfUtc : List Text := ["utc", "gmt", "etc/utc"]

/-- Minutes with the sign before them. -/
def Offsets.signed? (sign : UInt16) (minutes : Nat) : Option Int :=
  if sign = 43 then some minutes else if sign = 45 then some (-minutes) else none

/-- The minutes of `+HH:MM` or `-HH:MM`, with hours to 23 and minutes to 59. -/
def Offsets.clock? : Text → Option Int
  | [sign, h1, h2, 58, m1, m2] =>
    let hours := Text.digitsValue [h1, h2]
    let minutes := Text.digitsValue [m1, m2]
    if [h1, h2, m1, m2].all Text.isDigit && hours ≤ 23 && minutes ≤ 59 then
      signed? sign (hours * 60 + minutes)
    else
      none
  | _ => none

/-- The minutes of an identifier that options accept. -/
def Offsets.accepted? (id : Text) : Option Int :=
  if id.lower ∈ namesOfUtc then some 0 else clock? id.lower

/-- Minutes after `utc`, a sign and hours: nothing, or a colon and two digits. -/
def Offsets.minutesPart? : Text → Option Nat
  | [] => some 0
  | [58, m1, m2] =>
    if [m1, m2].all Text.isDigit then some (Text.digitsValue [m1, m2]) else none
  | _ => none

/-- The minutes of `utc`, a sign, one or two digits of hours and optionally a colon and two
digits of minutes. -/
def Offsets.utc? (id : Text) : Option Int :=
  match id.lower with
  | 117 :: 116 :: 99 :: sign :: rest =>
    let hours := rest.takeWhile Text.isDigit
    if hours.length = 1 ∨ hours.length = 2 then
      (minutesPart? (rest.drop hours.length)).bind fun minutes =>
        signed? sign (Text.digitsValue hours * 60 + minutes)
    else
      none
  | _ => none

/-! ## Zones -/

/-- The zone at this many minutes from UTC, if an identifier can write that many. -/
def Offsets.at? (minutes : Int) : Option Zone :=
  if bounded : (minutes * 60000).natAbs ≤ Zone.furthest then some (.fixed _ bounded) else none

def Offsets.acceptedZone? (id : Text) : Option Zone := (accepted? id).bind at?

/-- The zone that a formatter uses for an identifier. -/
def Offsets.zone? (id : Text) : Option Zone :=
  ((utc? id).bind at?).orElse fun _ => acceptedZone? id

/-- A formatter has a zone for every identifier that is accepted. -/
theorem Offsets.isSome_zone? {id : Text} (accepted : (acceptedZone? id).isSome = true) :
    (zone? id).isSome = true := by
  unfold zone?
  cases (utc? id).bind at? with
  | none => exact accepted
  | some z => rfl

/-! ## Units of identifiers -/

/-- Making letters small changes no control character. -/
theorem Text.visible_of_lower {t : Text} (visible : ∀ u ∈ t.lower, 32 ≤ u) : ∀ u ∈ t, 32 ≤ u := by
  intro u listed
  have small : 32 ≤ Text.lowerUnit u := visible _ (List.mem_map_of_mem listed)
  unfold Text.lowerUnit at small
  split at small
  · next capital =>
    rw [Bool.and_eq_true, decide_eq_true_iff] at capital
    exact UInt16.le_trans (by decide) capital.1
  · exact small

theorem Text.le_of_isDigit {u : UInt16} (digit : Text.isDigit u = true) : 32 ≤ u := by
  rw [Text.isDigit, Bool.and_eq_true, decide_eq_true_iff] at digit
  exact UInt16.le_trans (by decide) digit.1

theorem Offsets.visible_of_signed? {sign : UInt16} {minutes : Nat}
    (signed : (signed? sign minutes).isSome = true) : 32 ≤ sign := by
  unfold signed? at signed
  split at signed
  · next plus => exact plus ▸ by decide
  · split at signed
    · next minus => exact minus ▸ by decide
    · cases signed

/-- An offset is written with a sign, digits and a colon. -/
theorem Offsets.visible_of_clock? {t : Text} (offset : (clock? t).isSome = true) :
    ∀ u ∈ t, 32 ≤ u := by
  unfold clock? at offset
  split at offset
  · next sign h1 h2 m1 m2 =>
    dsimp only at offset
    split at offset
    · next fine =>
      simp only [Bool.and_eq_true, List.all_eq_true] at fine
      have digits : ∀ u ∈ [h1, h2, m1, m2], 32 ≤ u :=
        fun u listed => Text.le_of_isDigit (fine.1.1 u listed)
      simp only [List.forall_mem_cons] at digits ⊢
      obtain ⟨first, second, third, fourth, none⟩ := digits
      exact ⟨visible_of_signed? offset, first, second, by decide, third, fourth, none⟩
    · cases offset
  · cases offset

/-- No identifier that is accepted has a control character in it. -/
theorem Offsets.visible_of_accepted? {id : Text} (accepted : (accepted? id).isSome = true) :
    ∀ u ∈ id, 32 ≤ u := by
  have names : ∀ name ∈ namesOfUtc, name.all (32 ≤ ·) = true := by decide
  -- Small letters are compared.
  apply Text.visible_of_lower
  unfold accepted? at accepted
  split at accepted
  · next utc => exact fun u listed =>
      of_decide_eq_true (List.all_eq_true.1 (names _ utc) u listed)
  · exact visible_of_clock? accepted

theorem Offsets.visible_of_acceptedZone? {id : Text}
    (accepted : (acceptedZone? id).isSome = true) : ∀ u ∈ id, 32 ≤ u :=
  visible_of_accepted? (Option.isSome_of_isSome_bind accepted)

/-! ## A host -/

namespace Offsets

/-- A host with these zones, whose clock stands at the epoch. -/
scoped instance host : TimeZones where
  accepts id := (acceptedZone? id).isSome
  zone? := zone?
  now := 0
  known _ := isSome_zone?
  printable _ := visible_of_acceptedZone?
  utc := rfl

end Offsets

end RowExpr
