import SigVerdict.Text.Split
import SigVerdict.Text.Utf8

set_option autoImplicit false

/-! # Wrapped bullet points

A bullet point is a paragraph whose first line starts with `bullet` and whose further lines
start with `indent`. A word goes onto the line that is open if the line then takes at most
`width` octets, and else onto a line of its own. -/

namespace SigVerdict.Text.Wrap

/-- The most octets of a line that holds more than one word. -/
def width : Nat := 70

/-- What the first line of a bullet point starts with. -/
def bullet : List Char := "    * ".toList

/-- What each further line of a bullet point starts with. -/
def indent : List Char := "      ".toList

/-- The lines of the words behind `line`, an open line that holds a word. -/
def linesAfter (line : List Char) : List (List Char) → List (List Char)
  | [] => [line]
  | word :: rest =>
    if width < Utf8.size line + 1 + Utf8.size word then line :: linesAfter (indent ++ word) rest
    else linesAfter (line ++ ' ' :: word) rest

/-- The lines of a bullet point with these words. -/
def bulletLines : List (List Char) → List (List Char)
  | [] => [bullet]
  | word :: rest => linesAfter (bullet ++ word) rest

/-- A text as a bullet point. -/
def bulletPoint (cs : List Char) : List Char := joinWith ['\n'] (bulletLines (words cs))

end SigVerdict.Text.Wrap
