import SigVerdict.Text.Numeral
import SigVerdict.Text.Split
import SigVerdict.Time.Span
import SigVerdict.Time.Span.Units

set_option autoImplicit false

/-! # Writing a span

A span is written as a row of counts, each with its unit, from years down to nanoseconds. Counts
of zero are left out, and the empty span is `0s`. Years, months and days are spelt out, with a
plural; the smaller units are abbreviated. -/

namespace SigVerdict.Span

open Text

/-- A count with its unit; `plural` is what the unit ends in when the count exceeds one. -/
structure Count where
  count : Nat
  unit : String
  plural : String
  deriving DecidableEq, Repr

/-- The counts of a span, from years down to nanoseconds. -/
def counts (s : Span) : List Count :=
  let inYear := s.seconds % 31557600
  let inMonth := inYear % 2630016
  let inDay := inMonth % 86400
  [ ⟨s.seconds / 31557600, "year", "s"⟩,
    ⟨inYear / 2630016, "month", "s"⟩,
    ⟨inMonth / 86400, "day", "s"⟩,
    ⟨inDay / 3600, "h", ""⟩,
    ⟨inDay % 3600 / 60, "m", ""⟩,
    ⟨inDay % 60, "s", ""⟩,
    ⟨s.nanos / 1000000, "ms", ""⟩,
    ⟨s.nanos / 1000 % 1000, "us", ""⟩,
    ⟨s.nanos % 1000, "ns", ""⟩ ]

/-- A count as it is written. -/
def Count.render (c : Count) : List Char :=
  digits c.count ++ c.unit.toList ++ if 1 < c.count then c.plural.toList else []

/-- A span as it is written. -/
def render (s : Span) : List Char :=
  match s.counts.filter (0 < ·.count) with
  | [] => "0s".toList
  | parts => joinWith [' '] (parts.map Count.render)

/-- A span as a string. -/
def toText (s : Span) : String := String.ofList s.render

end SigVerdict.Span
