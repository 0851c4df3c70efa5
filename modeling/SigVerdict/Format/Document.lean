import SigVerdict.Text.Numeral

set_option autoImplicit false

/-! # Documents

What the program shows to other programs is a document: records, lists and plain values. A
variant is one of several named alternatives that carries a document of its own. Each format
decides how a document is written; as JSON, a document is a value of RFC 8259. -/

namespace SigVerdict

/-- Structured data. -/
inductive Document where
  | null
  | bool (value : Bool)
  | number (value : Int)
  | text (value : String)
  | list (items : List Document)
  | record (fields : List (String × Document))
  | variant (name : String) (payload : Document)
  deriving Repr

namespace Document

/-- A text that may be missing. -/
def optionalText : Option String → Document
  | some s => .text s
  | none => .null

/-- A list of texts. -/
def texts (items : List String) : Document := .list (items.map .text)

/-- A natural number. -/
def natural (n : Nat) : Document := .number n

end Document

/-! ## JSON values

The members of an object stand in written order. A string is `none` when one of its escapes stands
for half of a character. -/

/-- A JSON value. -/
inductive Json where
  | null
  | bool (value : Bool)
  | number (numeral : List Char)
  | string (text : Option String)
  | array (items : List Json)
  | object (members : List (Option String × Json))
  deriving Repr

namespace Json

/-- A string that is a text. -/
def text (s : String) : Json := .string (some s)

mutual

/-- A document as a JSON value: a variant is an object with one member. -/
def ofDocument : Document → Json
  | .null => .null
  | .bool b => .bool b
  | .number n => .number (Text.integerDigits n)
  | .text s => .text s
  | .list items => .array (ofItems items)
  | .record fields => .object (ofFields fields)
  | .variant name payload => .object [(some name, ofDocument payload)]

/-- The items of a list as JSON values. -/
def ofItems : List Document → List Json
  | [] => []
  | item :: items => ofDocument item :: ofItems items

/-- The fields of a record as members. -/
def ofFields : List (String × Document) → List (Option String × Json)
  | [] => []
  | (name, value) :: fields => (some name, ofDocument value) :: ofFields fields

end

theorem ofItems_eq_map (items : List Document) : ofItems items = items.map ofDocument := by
  induction items with
  | nil => rfl
  | cons item items ih => rw [ofItems, ih, List.map_cons]

theorem ofFields_eq_map (fields : List (String × Document)) :
    ofFields fields = fields.map fun field => (some field.1, ofDocument field.2) := by
  induction fields with
  | nil => rfl
  | cons field fields ih => rw [ofFields, ih, List.map_cons]

end Json

end SigVerdict
