set_option autoImplicit false

/-! # UTF-8

`scan` reads octets one at a time and gives, in order, the characters they stand for, with a gap
(`none`) for each stretch that starts a character and does not finish it, and for each octet
that starts none. A gap is as long as it can be: it ends before the first octet that no
character could have in its place. `decode?` accepts texts without gaps; `decodeLossy` puts the
replacement character U+FFFD into each gap. -/

namespace SigVerdict.Text.Utf8

/-- Where a reader stands: between two characters, or inside one. Inside, the octets so far give
    `value`, `left` more are due, and the next one lies from `low` to `high`. -/
inductive State where
  | ready
  | inside (value left low high : Nat)
  deriving DecidableEq, Repr

/-- The octet `b` between two characters. -/
def start (b : Nat) : List (Option Char) × State :=
  if b < 0x80 then ([some (Char.ofNat b)], .ready)
  else if b < 0xC2 then ([none], .ready)
  else if b < 0xE0 then ([], .inside (b - 0xC0) 1 0x80 0xBF)
  else if b < 0xF0 then
    ([], .inside (b - 0xE0) 2 (if b = 0xE0 then 0xA0 else 0x80) (if b = 0xED then 0x9F else 0xBF))
  else if b < 0xF5 then
    ([], .inside (b - 0xF0) 3 (if b = 0xF0 then 0x90 else 0x80) (if b = 0xF4 then 0x8F else 0xBF))
  else ([none], .ready)

/-- One octet: what it finishes, and where the reader stands behind it. -/
def step : State → Nat → List (Option Char) × State
  | .ready, b => start b
  | .inside value left low high, b =>
    if low ≤ b ∧ b ≤ high then
      let value := 64 * value + (b - 0x80)
      if left = 1 then ([some (Char.ofNat value)], .ready)
      else ([], .inside value (left - 1) 0x80 0xBF)
    else (none :: (start b).1, (start b).2)

/-- What the end of the octets leaves unfinished. -/
def State.rest : State → List (Option Char)
  | .ready => []
  | .inside .. => [none]

/-- The characters and gaps that the octets give from a state on. -/
def scan : State → List UInt8 → List (Option Char)
  | state, [] => state.rest
  | state, b :: bs => (step state b.toNat).1 ++ scan (step state b.toNat).2 bs

/-- What stands for a gap. -/
def replacement : Char := '\ufffd'

/-- The text of any octets, with U+FFFD for each gap. -/
def decodeLossy (bs : List UInt8) : List Char :=
  (scan .ready bs).map (·.getD replacement)

/-- All the characters, if there is no gap. -/
def withoutGaps : List (Option Char) → Option (List Char)
  | [] => some []
  | none :: _ => none
  | some c :: cs => (withoutGaps cs).map (c :: ·)

/-- The text of octets that are well formed. -/
def decode? (bs : List UInt8) : Option (List Char) := withoutGaps (scan .ready bs)

/-- The octets of a text. -/
def encode (cs : List Char) : List UInt8 := cs.flatMap String.utf8EncodeChar

/-- The number of octets of a text. -/
def size : List Char → Nat
  | [] => 0
  | c :: cs => c.utf8Size + size cs

/-! ## Small facts -/

@[simp] theorem scan_nil (state : State) : scan state [] = state.rest := rfl

@[simp] theorem scan_cons (state : State) (b : UInt8) (bs : List UInt8) :
    scan state (b :: bs) = (step state b.toNat).1 ++ scan (step state b.toNat).2 bs := rfl

@[simp] theorem encode_nil : encode [] = [] := rfl

@[simp] theorem encode_append (cs ds : List Char) : encode (cs ++ ds) = encode cs ++ encode ds := by
  simp [encode]

@[simp] theorem size_nil : size [] = 0 := rfl

@[simp] theorem size_cons (c : Char) (cs : List Char) : size (c :: cs) = c.utf8Size + size cs :=
  rfl

@[simp] theorem size_append (cs ds : List Char) : size (cs ++ ds) = size cs + size ds := by
  induction cs with
  | nil => simp
  | cons c cs ih => simp [ih, Nat.add_assoc]

end SigVerdict.Text.Utf8
