import SigVerdict.Text.Numeral

set_option autoImplicit false

/-! # Texts that need quotes

Without quotes some texts are read as something else: as nothing, as a truth value or as a number.
Older readers know more words for truth values, so these need quotes too. -/

namespace SigVerdict.Yaml

open Text

/-- The words that are read as nothing or as a truth value by some reader. -/
def reservedWords : List String :=
  ["", "null", "Null", "NULL", "~",
    "true", "True", "TRUE", "false", "False", "FALSE",
    "y", "Y", "yes", "Yes", "YES", "n", "N", "no", "No", "NO",
    "on", "On", "ON", "off", "Off", "OFF",
    ".inf", ".Inf", ".INF", "+.inf", "+.Inf", "+.INF", "-.inf", "-.Inf", "-.INF",
    ".nan", ".NaN", ".NAN"]

/-- A text without the sign at its start. -/
def withoutSign : List Char → List Char
  | '+' :: cs => cs
  | '-' :: cs => cs
  | cs => cs

/-- Whether a text is a row of digits with a needless zero in front. -/
def hasLeadingZero (cs : List Char) : Bool :=
  match withoutSign cs with
  | '0' :: c :: cs => isNumeral (c :: cs)
  | _ => false

/-- Whether a text is a row of digits of a base with a value of at most `most`. -/
def isBased (base most : Nat) (cs : List Char) : Bool :=
  !cs.isEmpty && cs.all (isDigitBelow base) && basedValue base cs ≤ most

/-- Whether a text without a sign is a whole number of at most `most`. -/
def isWhole (most : Nat) : List Char → Bool
  | '0' :: 'x' :: cs => isBased 16 most cs
  | '0' :: 'o' :: cs => isBased 8 most cs
  | '0' :: 'b' :: cs => isBased 2 most cs
  | cs => isBased 10 most cs && !hasLeadingZero cs

/-- Whether a text is a whole number of 128 bits. -/
def isInteger : List Char → Bool
  | '-' :: cs => isWhole 0x80000000000000000000000000000000 cs
  | '+' :: cs => isWhole 0xffffffffffffffffffffffffffffffff cs
  | cs => isWhole 0xffffffffffffffffffffffffffffffff cs

/-- The exponent of a number behind its letter. -/
def exponent? (cs : List Char) : Option Int :=
  let digits := withoutSign cs
  if isNumeral digits then
    let n : Int := numeralValue 0 digits
    some (if cs.head? == some '-' then -n else n)
  else none

/-- Whether a text is a decimal number that does not grow beyond all bounds. -/
def isDecimal (cs : List Char) : Bool :=
  let cs := withoutSign cs
  let isMark := fun c => c == 'e' || c == 'E'
  let number := cs.takeWhile (!isMark ·)
  let power := (cs.dropWhile (!isMark ·)).drop 1
  let whole := number.takeWhile (· != '.')
  let part := (number.dropWhile (· != '.')).drop 1
  isNumeral (whole ++ part) &&
    match if number.length < cs.length then exponent? power else some 0 with
    | none => false
    | some e => roundsToFinite (numeralValue 0 (whole ++ part)) (e - (part.length : Int))

/-- Whether a text needs quotes to be read as a text. -/
def isAmbiguous (cs : List Char) : Bool :=
  reservedWords.contains (String.ofList cs) || isInteger cs || hasLeadingZero cs || isDecimal cs

end SigVerdict.Yaml
