set_option autoImplicit false

/-! # TOML values

A document is a table. How a table came to be decides how it may grow later: one that is written
between braces is complete, one that dotted keys opened takes more dotted keys, and one that only
stands above another in a header may still get a header of its own. -/

namespace SigVerdict

/-- How a table came to be. -/
inductive Toml.Origin where
  /-- It is written between braces. -/
  | braces
  /-- It has a header of its own, or is the document. -/
  | header
  /-- It stands above a table that has a header. -/
  | above
  /-- Dotted keys opened it. -/
  | dotted
  deriving DecidableEq, Repr

/-- A TOML value. Numbers, dates and times are told apart from texts and keep no value. -/
inductive Toml where
  | text (value : String)
  | bool (value : Bool)
  | number
  | moment
  | array (items : List Toml)
  | table (origin : Toml.Origin) (entries : List (String × Toml))
  /-- An array of tables that have headers, last one first. -/
  | rows (tables : List Toml)
  deriving Repr

namespace Toml

/-- The table without entries. -/
def emptyTable (origin : Origin) : Toml := .table origin []

/-- The value of a key. -/
def lookup? (entries : List (String × Toml)) (key : String) : Option Toml :=
  (entries.find? fun (known, _) => known == key).map fun (_, value) => value

/-- Give a key a value: a known key keeps its place. -/
def put (entries : List (String × Toml)) (key : String) (value : Toml) : List (String × Toml) :=
  match entries with
  | [] => [(key, value)]
  | (known, old) :: rest =>
    if known == key then (key, value) :: rest else (known, old) :: put rest key value

/-! ## Growing a table -/

/-- Whether the steps of a path come from dotted keys or from a header. -/
inductive Route where
  | keys
  | header
  deriving DecidableEq, Repr

/-- The table that a step opens. -/
def Route.opened : Route → Toml
  | .keys => emptyTable .dotted
  | .header => emptyTable .above

/-- Whether a step may lead into a table. -/
def Route.enters : Route → Origin → Bool
  | .keys, origin => origin == .above || origin == .dotted
  | .header, origin => origin != .braces

/-- Change the table at the end of a path, and open the tables on the way that are missing. A
    step into an array of tables leads to its last table. -/
def change (route : Route) (f : Origin → List (String × Toml) → Option Toml) :
    List String → Toml → Option Toml
  | [], .table origin entries => f origin entries
  | key :: path, .table origin entries => do
    let child ← match lookup? entries key with
      | none => change route f path route.opened
      | some (.table childOrigin childEntries) =>
        if route.enters childOrigin then change route f path (.table childOrigin childEntries)
        else none
      | some (.rows (last :: earlier)) =>
        (change route f path last).map fun last => .rows (last :: earlier)
      | some _ => none
    some (.table origin (put entries key child))
  | _, _ => none

/-- Give a new key of a table a value. The table has to come from dotted keys exactly when the
    key stands behind others. -/
def define (behindKeys : Bool) (key : String) (value : Toml) (origin : Origin)
    (entries : List (String × Toml)) : Option Toml :=
  if (origin == .dotted) != behindKeys then none
  else if (lookup? entries key).isSome then none
  else some (.table origin (put entries key value))

/-- Give a dotted key, written as `path` and `key`, a value. -/
def assign (path : List String) (key : String) (value root : Toml) : Option Toml :=
  change .keys (define (!path.isEmpty) key value) path root

/-- The table of a header: it is new, or has only stood above others so far. -/
def openTable (key : String) (origin : Origin) (entries : List (String × Toml)) : Option Toml :=
  match lookup? entries key with
  | none => some (.table origin (put entries key (emptyTable .header)))
  | some (.table .above known) => some (.table origin (put entries key (.table .header known)))
  | some _ => none

/-- The next table of an array of tables, which is new or has rows so far. -/
def openRow (key : String) (origin : Origin) (entries : List (String × Toml)) : Option Toml :=
  match lookup? entries key with
  | none => some (.table origin (put entries key (.rows [emptyTable .header])))
  | some (.rows known) =>
    some (.table origin (put entries key (.rows (emptyTable .header :: known))))
  | some _ => none

end Toml

end SigVerdict
