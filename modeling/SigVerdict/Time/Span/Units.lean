set_option autoImplicit false

/-! # Units of time

A unit has several names and a length: a number of whole seconds or, below the second, of
nanoseconds. A year has 365.25 days and a month is its twelfth part. -/

namespace SigVerdict.Span

/-- A length in seconds and nanoseconds. -/
structure Length where
  seconds : Nat
  nanos : Nat
  deriving DecidableEq, Repr

/-- A unit of time. `part` is the length that a fraction of the unit is taken of; a unit without
    one has no fractions. -/
structure TimeUnit where
  names : List String
  whole : Length
  part : Option Length
  deriving Repr

/-- A unit below the second. -/
def TimeUnit.short (names : List String) (nanos : Nat) : TimeUnit :=
  ⟨names, ⟨0, nanos⟩, some ⟨0, nanos⟩⟩

/-- A unit from the hour on, whose fractions are cut to whole seconds. -/
def TimeUnit.long (names : List String) (seconds : Nat) : TimeUnit :=
  ⟨names, ⟨seconds, 0⟩, some ⟨seconds, 0⟩⟩

/-- The nanosecond has no fractions. -/
def TimeUnit.nanosecond : TimeUnit := ⟨["nanos", "nsec", "ns"], ⟨0, 1⟩, none⟩

/-- The microsecond. -/
def TimeUnit.microsecond : TimeUnit := .short ["usec", "us", "µs"] 1000

/-- The millisecond. -/
def TimeUnit.millisecond : TimeUnit := .short ["millis", "msec", "ms"] 1000000

/-- The second. -/
def TimeUnit.second : TimeUnit :=
  ⟨["seconds", "second", "secs", "sec", "s"], ⟨1, 0⟩, some ⟨0, 1000000000⟩⟩

/-- The minute. -/
def TimeUnit.minute : TimeUnit :=
  ⟨["minutes", "minute", "min", "mins", "m"], ⟨60, 0⟩, some ⟨0, 60000000000⟩⟩

/-- The hour. -/
def TimeUnit.hour : TimeUnit := .long ["hours", "hour", "hr", "hrs", "h"] 3600

/-- The day. -/
def TimeUnit.day : TimeUnit := .long ["days", "day", "d"] 86400

/-- The week. -/
def TimeUnit.week : TimeUnit := .long ["weeks", "week", "wk", "wks", "w"] 604800

/-- The month. -/
def TimeUnit.month : TimeUnit := .long ["months", "month", "M"] 2630016

/-- The year. -/
def TimeUnit.year : TimeUnit := .long ["years", "year", "yr", "yrs", "y"] 31557600

/-- All the units, shortest first. -/
def units : List TimeUnit :=
  [.nanosecond, .microsecond, .millisecond, .second, .minute, .hour, .day, .week, .month, .year]

/-- The unit of a name; capital letters matter. -/
def unit? (name : List Char) : Option TimeUnit :=
  units.find? fun u => u.names.any fun known => known.toList == name

end SigVerdict.Span
