set_option autoImplicit false

/-! # Spans of time

A span has whole seconds in 64 bits and fewer than 10⁹ nanoseconds on top. -/

namespace SigVerdict

/-- A length of time. -/
structure Span where
  seconds : Nat
  nanos : Nat
  seconds_lt : seconds < 0x10000000000000000
  nanos_lt : nanos < 1000000000

namespace Span

@[ext] theorem ext {s t : Span} (hs : s.seconds = t.seconds) (hn : s.nanos = t.nanos) : s = t := by
  cases s; cases t; simp_all

instance : DecidableEq Span := fun s t =>
  decidable_of_iff (s.seconds = t.seconds ∧ s.nanos = t.nanos)
    ⟨fun h => ext h.1 h.2, fun h => h ▸ ⟨rfl, rfl⟩⟩

/-- The greatest number of seconds of a span. -/
def mostSeconds : Nat := 0xffffffffffffffff

/-- The span of so many nanoseconds, unless it is too long. -/
def ofNanos? (n : Nat) : Option Span :=
  if h : n / 1000000000 < 0x10000000000000000 then
    some ⟨n / 1000000000, n % 1000000000, h, Nat.mod_lt _ (by decide)⟩
  else none

/-- The span of so many seconds, unless it is too long. -/
def ofSeconds? (n : Nat) : Option Span :=
  if h : n < 0x10000000000000000 then some ⟨n, 0, h, by decide⟩ else none

theorem ofSeconds?_of_le {n : Nat} (h : n ≤ mostSeconds) :
    ofSeconds? n = some ⟨n, 0, Nat.lt_succ_of_le h, by decide⟩ :=
  dif_pos (Nat.lt_succ_of_le h)

/-- The length of a span in nanoseconds. -/
def toNanos (s : Span) : Nat := s.seconds * 1000000000 + s.nanos

theorem ofNanos?_toNanos (s : Span) : ofNanos? s.toNanos = some s := by
  have h₁ := s.seconds_lt
  have h₂ := s.nanos_lt
  have hd : s.toNanos / 1000000000 = s.seconds := by unfold toNanos; omega
  have hm : s.toNanos % 1000000000 = s.nanos := by unfold toNanos; omega
  unfold ofNanos?
  rw [dif_pos (by omega)]
  exact congrArg some (Span.ext hd hm)

end Span

end SigVerdict
