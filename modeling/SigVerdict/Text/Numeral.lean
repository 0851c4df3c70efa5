set_option autoImplicit false

/-! # Numerals

Numbers are written in decimal digits of ASCII. Two formats also know digits of other bases and
decimal numbers that are too large for a floating-point number, and the digits of other scripts are
known so that they can be told from other characters. -/

namespace SigVerdict.Text

/-! ## Decimal numerals

`digits` writes a number in the fewest decimal digits; `digitValue?` reads one digit. -/

/-- The value of a decimal digit of ASCII. -/
def digitValue? (c : Char) : Option Nat :=
  if '0' ≤ c ∧ c ≤ '9' then some (c.toNat - '0'.toNat) else none

/-- The decimal digit of a number below ten. -/
def digitOf (n : Nat) : Char := Char.ofNat ('0'.toNat + n)

/-- The decimal digits of a number, without leading zeros. -/
def digits (n : Nat) : List Char :=
  if n < 10 then [digitOf n] else digits (n / 10) ++ [digitOf (n % 10)]

/-- The numeral of an integer, with a minus sign when it is negative. -/
def integerDigits : Int → List Char
  | .ofNat n => digits n
  | .negSucc n => '-' :: digits (n + 1)

/-- The numeral of a number as a string. -/
def decimal (n : Nat) : String := String.ofList (digits n)

/-- The numeral of an integer as a string. -/
def integerText (n : Int) : String := String.ofList (integerDigits n)

/-- The digits of a number, filled up with zeros to at least `width`. -/
def paddedDigits (width n : Nat) : List Char :=
  List.replicate (width - (digits n).length) '0' ++ digits n

/-- Whether a text is a non-empty row of decimal digits of ASCII. -/
def isNumeral (cs : List Char) : Bool := !cs.isEmpty && cs.all fun c => (digitValue? c).isSome

/-- The value of a row of decimal digits, read after `start`; other characters count as zero. -/
def numeralValue (start : Nat) (cs : List Char) : Nat :=
  cs.foldl (fun n c => 10 * n + (digitValue? c).getD 0) start

/-! ## Decimal digits of all scripts

The characters of the general category Nd come in rows of ten, the digits zero to nine of one
script. `zeroDigits` lists the zero of each row. -/

/-- The code points of the digits zero, in order. -/
def zeroDigits : List Nat :=
  [
    0x30, 0x660, 0x6F0, 0x7C0, 0x966, 0x9E6, 0xA66, 0xAE6, 0xB66, 0xBE6, 0xC66, 0xCE6, 0xD66,
    0xDE6, 0xE50, 0xED0, 0xF20, 0x1040, 0x1090, 0x17E0, 0x1810, 0x1946, 0x19D0, 0x1A80, 0x1A90,
    0x1B50, 0x1BB0, 0x1C40, 0x1C50, 0xA620, 0xA8D0, 0xA900, 0xA9D0, 0xA9F0, 0xAA50, 0xABF0,
    0xFF10, 0x104A0, 0x10D30, 0x10D40, 0x11066, 0x110F0, 0x11136, 0x111D0, 0x112F0, 0x11450,
    0x114D0, 0x11650, 0x116C0, 0x116D0, 0x116DA, 0x11730, 0x118E0, 0x11950, 0x11BF0, 0x11C50,
    0x11D50, 0x11DA0, 0x11F50, 0x16130, 0x16A60, 0x16AC0, 0x16B50, 0x16D70, 0x1CCF0, 0x1D7CE,
    0x1D7D8, 0x1D7E2, 0x1D7EC, 0x1D7F6, 0x1E140, 0x1E2F0, 0x1E4F0, 0x1E5F1, 0x1E950, 0x1FBF0
  ]

/-- A decimal digit of any script. -/
def isDecimalDigit (c : Char) : Bool :=
  zeroDigits.any fun first => first ≤ c.toNat && c.toNat < first + 10

/-! ## Digits of other bases

Numbers are also written in bases of at most sixteen, where letters follow the nine. The code
points of characters are written in base sixteen. -/

/-- The value of a digit of a base, whose letters may be small or capital. -/
def digitBelow? (base : Nat) (c : Char) : Option Nat :=
  let value :=
    if '0' ≤ c ∧ c ≤ '9' then c.toNat - 48
    else if 'a' ≤ c ∧ c ≤ 'f' then c.toNat - 87
    else if 'A' ≤ c ∧ c ≤ 'F' then c.toNat - 55
    else base
  if value < base then some value else none

/-- The value of a hexadecimal digit. -/
def hexValue? (c : Char) : Option Nat := digitBelow? 16 c

/-- Whether a character is a digit of a base. -/
def isDigitBelow (base : Nat) (c : Char) : Bool := (digitBelow? base c).isSome

/-- The value of a row of digits of a base; other characters count as zero. -/
def basedValue (base : Nat) (cs : List Char) : Nat :=
  cs.foldl (fun n c => base * n + (digitBelow? base c).getD 0) 0

/-- The hexadecimal digit of a number below sixteen. -/
def hexDigit (capital : Bool) (n : Nat) : Char :=
  if n < 10 then digitOf n else Char.ofNat ((if capital then 55 else 87) + n)

/-- The character of a code point. -/
def charOf? (n : Nat) : Option Char := if h : n.isValidChar then some (Char.ofNatAux n h) else none

/-! ## The magnitude of decimal numbers

A decimal number is a whole number times a power of ten. It is finite in binary64 when it lies
nearer to the greatest finite value of that format than to the next power of two. -/

/-- The least number that rounds to no finite value: half a step beyond the greatest one. -/
def overflowBound : Nat := Nat.pow 2 1024 - Nat.pow 2 970

/-- Whether `whole * 10 ^ exponent` rounds to a finite value. The number of digits decides this
    but for numbers of 309 digits. -/
def roundsToFinite (whole : Nat) (exponent : Int) : Bool :=
  let magnitude := ((digits whole).length : Int) + exponent
  if whole = 0 || magnitude < 309 then true
  else if 309 < magnitude then false
  else if exponent < 0 then whole < overflowBound * Nat.pow 10 exponent.natAbs
  else whole * Nat.pow 10 exponent.natAbs < overflowBound

end SigVerdict.Text
