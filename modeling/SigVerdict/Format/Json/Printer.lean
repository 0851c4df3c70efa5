import SigVerdict.Format.Document
import SigVerdict.Format.Json.Token
import SigVerdict.Text.Numeral

set_option autoImplicit false

/-! # Writing JSON

A value is written over several lines: every item and every member on a line of its own, two
spaces deeper than what holds it. Empty arrays and objects stay on one line. -/

namespace SigVerdict.Json

/-- A character inside a string: quotes, backslashes and control characters are escaped. -/
def escape (c : Char) : List Char :=
  match letterOf? c with
  | some letter => ['\\', letter]
  | none =>
    if c.toNat < 32 then
      '\\' :: 'u' :: '0' :: '0' ::
        [Text.hexDigit false (c.toNat / 16), Text.hexDigit false (c.toNat % 16)]
    else [c]

/-- A text as a string. -/
def quote (cs : List Char) : List Char := '"' :: cs.flatMap escape ++ ['"']

/-- A string; one that is no text is written without content. -/
def renderString (text : Option String) : List Char := quote ((text.getD "").toList)

/-- The start of a line at a depth. -/
def newLine (depth : Nat) : List Char := '\n' :: List.replicate (2 * depth) ' '

mutual

/-- A value whose first line starts at a depth. -/
def renderAt (depth : Nat) : Json → List Char
  | .null => "null".toList
  | .bool true => "true".toList
  | .bool false => "false".toList
  | .number numeral => numeral
  | .string text => renderString text
  | .array [] => ['[', ']']
  | .array (item :: items) =>
    '[' :: (newLine (depth + 1) ++ renderAt (depth + 1) item ++ renderItems (depth + 1) items ++
      newLine depth ++ [']'])
  | .object [] => ['\x7b', '\x7d']
  | .object ((key, value) :: members) =>
    '\x7b' :: (newLine (depth + 1) ++ renderString key ++ ':' :: ' ' ::
      renderAt (depth + 1) value ++ renderMembers (depth + 1) members ++ newLine depth ++ ['\x7d'])

/-- The items behind the first one. -/
def renderItems (depth : Nat) : List Json → List Char
  | [] => []
  | item :: items => ',' :: newLine depth ++ renderAt depth item ++ renderItems depth items

/-- The members behind the first one. -/
def renderMembers (depth : Nat) : List (Option String × Json) → List Char
  | [] => []
  | (key, value) :: members =>
    ',' :: newLine depth ++ renderString key ++ ':' :: ' ' :: renderAt depth value ++
      renderMembers depth members

end

/-- A value as text. -/
def render (value : Json) : List Char := renderAt 0 value

end SigVerdict.Json
