import SigVerdict.Format.Document
import SigVerdict.Format.Toml
import SigVerdict.Format.Yaml.Node

set_option autoImplicit false

/-! # Readings of values

A format says how its values are read: as a text, as a text that may be missing, as a truth value,
as a list, or as a section that has fields. Fields that a section does not declare are taken no
notice of, and a declared field may not come twice. -/

namespace SigVerdict

/-- What a section has: values with names, or values in the order in which its fields are
    declared. -/
inductive Members (ν : Type) where
  | named (entries : List (String × ν))
  | placed (values : List ν)

/-- How the values of a format are read. -/
structure Reading (ν : Type) where
  text? : ν → Option String
  optionalText? : ν → Option (Option String)
  flag? : ν → Option Bool
  list? : ν → Option (List ν)
  members? : ν → Option (Members ν)
  /-- Whether a section may have more values than declared fields. -/
  allowsSurplus : Bool

/-- The value of a name, if it has one; it may not have several. -/
def valueOf? {ν : Type} (entries : List (String × ν)) (name : String) : Option (Option ν) :=
  match entries.filter fun (known, _) => known == name with
  | [] => some none
  | [(_, value)] => some (some value)
  | _ => none

/-- Values for declared fields one by one, for as many fields as there are values. -/
def placeValues {ν : Type} : List String → List ν → List (Option ν)
  | [], _ => []
  | _ :: fields, [] => none :: placeValues fields []
  | _ :: fields, value :: values => some value :: placeValues fields values

namespace Reading

variable {ν : Type}

/-- The values of the declared fields of a section. -/
def fields? (r : Reading ν) (declared : List String) (value : ν) : Option (List (Option ν)) := do
  match ← r.members? value with
  | .named entries => declared.mapM (valueOf? entries)
  | .placed values =>
    if declared.length < values.length && !r.allowsSurplus then none
    else some (placeValues declared values)

/-- A list of texts. -/
def texts? (r : Reading ν) (value : ν) : Option (List String) := do (← r.list? value).mapM r.text?

end Reading

/-! ## The formats -/

/-- The members of an object, whose keys all have to be texts. -/
def Json.entries? : List (Option String × Json) → Option (List (String × Json))
  | [] => some []
  | (some key, value) :: members => (entries? members).map ((key, value) :: ·)
  | (none, _) :: _ => none

/-- How JSON values are read. -/
def Json.reading : Reading Json where
  text?
    | .string text => text
    | _ => none
  optionalText?
    | .null => some none
    | .string text => text.map some
    | _ => none
  flag?
    | .bool b => some b
    | _ => none
  list?
    | .array items => some items
    | _ => none
  members?
    | .object members => (entries? members).map .named
    | .array items => some (.placed items)
    | _ => none
  allowsSurplus := false

/-- The items of an array, which may be an array of tables. -/
def Toml.list? : Toml → Option (List Toml)
  | .array items => some items
  | .rows tables => some tables.reverse
  | _ => none

/-- How TOML values are read. A date or time has no fields that a section declares. -/
def Toml.reading : Reading Toml where
  text?
    | .text s => some s
    | _ => none
  optionalText?
    | .text s => some (some s)
    | _ => none
  flag?
    | .bool b => some b
    | _ => none
  list? := Toml.list?
  members?
    | .table _ entries => some (.named entries)
    | .moment => some (.named [])
    | value => value.list?.map .placed
  allowsSurplus := true

namespace Yaml

/-- The tag of truth values. -/
def boolTag : List Char := "tag:yaml.org,2002:bool".toList

/-- The tag of nothing. -/
def nullTag : List Char := "tag:yaml.org,2002:null".toList

/-- Whether a text is a spelling of nothing. -/
def isNull (text : String) : Bool := ["null", "Null", "NULL", "~"].contains text

/-- The truth value of a text. -/
def bool? (text : String) : Option Bool :=
  if ["true", "True", "TRUE"].contains text then some true
  else if ["false", "False", "FALSE"].contains text then some false
  else none

/-- The text of a scalar. -/
def Node.text? : Node → Option String
  | .scalar _ _ text => some text
  | _ => none

/-- Whether a node is a plain scalar without a text. -/
def Node.isBlank : Node → Bool
  | .scalar _ .plain "" => true
  | _ => false

/-- The text of a scalar that may stand for nothing. Only plain scalars can; a tag decides
    whether one does. -/
def Node.optionalText? : Node → Option (Option String)
  | .scalar none .plain text => some (if text == "" || isNull text then none else some text)
  | .scalar (some tag) .plain text =>
    if tag == nullTag then if isNull text then some none else none else some (some text)
  | .scalar _ _ text => some (some text)
  | _ => none

/-- The truth value of a plain scalar, or of a literal one whose tag asks for it. -/
def Node.flag? : Node → Option Bool
  | .scalar _ .plain text => bool? text
  | .scalar (some tag) .literal text => if tag == boolTag then bool? text else none
  | _ => none

/-- The entries of a mapping, whose keys all have to be scalars. -/
def Graph.entries? (g : Graph) : List (Node × Node) → Option (List (String × Node))
  | [] => some []
  | (key, value) :: entries =>
    match (g.follow key).text? with
    | none => none
    | some key => (entries? g entries).map ((key, value) :: ·)

/-- How the nodes of a graph are read. A plain scalar without a text has no items and no
    fields. -/
def Graph.reading (g : Graph) : Reading Node where
  text? node := (g.follow node).text?
  optionalText? node := (g.follow node).optionalText?
  flag? node := (g.follow node).flag?
  list? node :=
    match g.follow node with
    | .sequence items => some items
    | node => if node.isBlank then some [] else none
  members? node :=
    match g.follow node with
    | .mapping entries => (g.entries? entries).map .named
    | .sequence items => some (.placed items)
    | node => if node.isBlank then some (.named []) else none
  allowsSurplus := false

end Yaml

end SigVerdict
