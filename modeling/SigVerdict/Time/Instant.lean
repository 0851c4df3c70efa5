import SigVerdict.Text.Numeral

set_option autoImplicit false

/-! # Points in time

A point in time is a number of seconds since the first day of 1970. Its date follows the
Gregorian calendar, extended to all years, and exists for a bounded range of years. -/

namespace SigVerdict.Instant

open Text

/-- A day of the calendar. -/
structure Date where
  year : Int
  month : Nat
  day : Nat
  deriving DecidableEq, Repr

/-- The date of a day, counted from the first day of 1970. Years are counted from March, so that
    a leap day ends its year; 400 years have 146097 days. -/
def dateOfDay (day : Int) : Date :=
  let shifted := day + 719468
  let era := shifted.fdiv 146097
  let dayOfEra := (shifted.fmod 146097).toNat
  let yearOfEra := (dayOfEra - dayOfEra / 1460 + dayOfEra / 36524 - dayOfEra / 146096) / 365
  let dayOfYear := dayOfEra - (365 * yearOfEra + yearOfEra / 4 - yearOfEra / 100)
  let monthFromMarch := (5 * dayOfYear + 2) / 153
  let month := if monthFromMarch < 10 then monthFromMarch + 3 else monthFromMarch - 9
  ⟨yearOfEra + era * 400 + (if month ≤ 2 then 1 else 0), month,
    dayOfYear - (153 * monthFromMarch + 2) / 5 + 1⟩

/-- The first second that has a date. -/
def firstSecond : Int := -8334601228800

/-- The last second that has a date. -/
def lastSecond : Int := 8210266876799

/-- A year, with four digits at least, and with a sign outside the years 0 to 9999. -/
def yearText (year : Int) : List Char :=
  if year < 0 then '-' :: paddedDigits 4 year.natAbs
  else if 9999 < year then '+' :: paddedDigits 4 year.natAbs
  else paddedDigits 4 year.natAbs

/-- The date and time of a second in universal time, as RFC 3339 writes it. -/
def render? (seconds : Int) : Option String :=
  if seconds < firstSecond ∨ lastSecond < seconds then none
  else
    let date := dateOfDay (seconds.fdiv 86400)
    let second := (seconds.fmod 86400).toNat
    some (String.ofList (
      yearText date.year ++ '-' :: paddedDigits 2 date.month ++ '-' :: paddedDigits 2 date.day ++
      'T' :: paddedDigits 2 (second / 3600) ++ ':' :: paddedDigits 2 (second % 3600 / 60) ++
      ':' :: paddedDigits 2 (second % 60) ++ "+00:00".toList))

end SigVerdict.Instant
