import SigVerdict.Format.Document
import SigVerdict.Format.Json.Token

set_option autoImplicit false

/-! # Reading JSON

A reader takes one token after another. It keeps the arrays and objects that are open, and knows
what is due next. -/

namespace SigVerdict.Json

/-- An array or object that is open, with what it holds so far, last one first. An object also
    has the key of the value that is being read. -/
inductive Frame where
  | array (held : List Json)
  | object (held : List (Option String × Json)) (key : Option String)

/-- What is due next. A closing bracket may stand for the first item or member. -/
inductive Due where
  | value
  | firstValue
  | key (held : List (Option String × Json))
  | firstKey
  | colon (held : List (Option String × Json)) (key : Option String)
  /-- A value is complete, and a separator is due behind it. -/
  | behind (value : Json)

/-- The open arrays and objects, innermost first, and what is due. -/
structure Reader where
  frames : List Frame
  due : Due

namespace Reader

/-- Start a value. -/
def start (frames : List Frame) : Token → Option Reader
  | .null => some ⟨frames, .behind .null⟩
  | .bool b => some ⟨frames, .behind (.bool b)⟩
  | .number numeral => some ⟨frames, .behind (.number numeral)⟩
  | .string text => some ⟨frames, .behind (.string text)⟩
  | .openSquare => some ⟨.array [] :: frames, .firstValue⟩
  | .openCurly => some ⟨frames, .firstKey⟩
  | _ => none

/-- Go on behind a value. -/
def goOn (value : Json) : List Frame → Token → Option Reader
  | .array held :: frames, .comma => some ⟨.array (value :: held) :: frames, .value⟩
  | .array held :: frames, .closeSquare => some ⟨frames, .behind (.array (value :: held).reverse)⟩
  | .object held key :: frames, .comma => some ⟨frames, .key ((key, value) :: held)⟩
  | .object held key :: frames, .closeCurly =>
    some ⟨frames, .behind (.object ((key, value) :: held).reverse)⟩
  | _, _ => none

/-- Take one token. -/
def step (r : Reader) (token : Token) : Option Reader :=
  match r.due, token with
  | .firstValue, .closeSquare => some ⟨r.frames.tail, .behind (.array [])⟩
  | .firstValue, token => start r.frames token
  | .value, token => start r.frames token
  | .firstKey, .closeCurly => some ⟨r.frames, .behind (.object [])⟩
  | .firstKey, .string key => some ⟨r.frames, .colon [] key⟩
  | .key held, .string key => some ⟨r.frames, .colon held key⟩
  | .colon held key, .colon => some ⟨.object held key :: r.frames, .value⟩
  | .behind value, token => goOn value r.frames token
  | _, _ => none

/-- Take tokens one after another. -/
def run (r : Reader) : List Token → Option Reader
  | [] => some r
  | token :: tokens => (r.step token).bind (·.run tokens)

/-- The value that has been read, if it is complete and nothing is open. -/
def value? (r : Reader) : Option Json :=
  match r.frames, r.due with
  | [], .behind value => some value
  | _, _ => none

end Reader

/-- Read a JSON text. -/
def parse? (cs : List Char) : Option Json := do
  let tokens ← tokens? cs
  let reader ← Reader.run ⟨[], .value⟩ tokens
  reader.value?

end SigVerdict.Json
