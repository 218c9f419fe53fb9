import TokenKeeper.Time.Basic
import TokenKeeper.Number.Decimal

/-!
# Calendar dates

Instants as dates of the Gregorian calendar, carried back before its introduction, in the text form
of RFC 3339. The calendar covers the years from −262143 to 262142; arithmetic that would leave them
is refused (`Instant.checkedAdd?`). A fraction of a second is written with as few groups of three
digits as hold it, and a year outside 0 to 9999 carries a sign.
-/

namespace TokenKeeper

namespace Instant

/-- The first instant of the calendar. -/
def earliest : Instant :=
  ofParts (-8334601228800) 0

/-- The last instant of the calendar. -/
def latest : Instant :=
  ofParts 8210266876799 999999999

/-- The longest time, in seconds, that a difference of instants is allowed to be. -/
def maxShift : Int :=
  9223372036854775

/-- The instant `secs` seconds later, if both the shift and the result are in range. -/
def checkedAdd? (i : Instant) (secs : Int) : Option Instant :=
  if -maxShift ≤ secs ∧ secs ≤ maxShift then
    let later : Instant := ⟨i.nanos + secs * nanosPerSecond⟩
    if earliest ≤ later ∧ later ≤ latest then some later else none
  else none

end Instant

/-- A day of the calendar. -/
structure CivilDate where
  year : Int
  month : Nat
  day : Nat
deriving DecidableEq, Repr

/-- The date of the day that begins `days` days after the start of 1970. Years are counted from
March, so that the leap day comes last, in eras of 400 years of 146097 days. -/
def CivilDate.ofDays (days : Int) : CivilDate :=
  let z := days + 719468
  let era := z / 146097
  let dayOfEra := (z % 146097).toNat
  let yearOfEra :=
    (dayOfEra - dayOfEra / 1460 + dayOfEra / 36524 - dayOfEra / 146096) / 365
  let dayOfYear := dayOfEra - (365 * yearOfEra + yearOfEra / 4 - yearOfEra / 100)
  let shifted := (5 * dayOfYear + 2) / 153
  let month := if shifted < 10 then shifted + 3 else shifted - 9
  { year := yearOfEra + era * 400 + (if month ≤ 2 then 1 else 0)
    month := month
    day := dayOfYear - (153 * shifted + 2) / 5 + 1 }

namespace Instant

/-- The year: four digits, or a sign and at least four digits outside 0 to 9999. -/
def yearText (year : Int) : String :=
  if 0 ≤ year ∧ year ≤ 9999 then Decimal.padded 4 year.toNat
  else (if year < 0 then "-" else "+") ++ Decimal.padded 4 year.natAbs

/-- The fraction of a second, with its point: nothing, or three, six or nine digits. -/
def fractionText (nanos : Nat) : String :=
  if nanos = 0 then ""
  else if nanos % 1000000 = 0 then "." ++ Decimal.padded 3 (nanos / 1000000)
  else if nanos % 1000 = 0 then "." ++ Decimal.padded 6 (nanos / 1000)
  else "." ++ Decimal.padded 9 nanos

/-- Date and time of day without an offset. -/
def dateTimeText (i : Instant) : String :=
  let date := CivilDate.ofDays (i.unixSeconds / 86400)
  let second := (i.unixSeconds % 86400).toNat
  yearText date.year ++ "-" ++ Decimal.padded 2 date.month ++ "-" ++ Decimal.padded 2 date.day ++
    "T" ++ Decimal.padded 2 (second / 3600) ++ ":" ++ Decimal.padded 2 (second / 60 % 60) ++ ":" ++
    Decimal.padded 2 (second % 60) ++ fractionText i.subsecNanos

/-- The instant with the offset of universal time in digits. -/
def rfc3339 (i : Instant) : String :=
  i.dateTimeText ++ "+00:00"

/-- The instant with the offset of universal time as `Z`. -/
def zuluText (i : Instant) : String :=
  i.dateTimeText ++ "Z"

end Instant

end TokenKeeper
