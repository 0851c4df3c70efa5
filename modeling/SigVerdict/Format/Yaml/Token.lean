set_option autoImplicit false

/-! # Tokens of YAML

A token is an indicator, a property of a node, or a scalar. Blocks that indentation delimits have
tokens for their start and end. -/

namespace SigVerdict.Yaml

/-- How a scalar is written. -/
inductive Style where
  | plain
  | single
  | double
  | literal
  | folded
  deriving DecidableEq, Repr

/-- A token. -/
inductive Token where
  /-- The version of the language that a document asks for. -/
  | version (major minor : Nat)
  /-- What a handle of tags stands for. -/
  | handle (name expansion : List Char)
  | documentStart
  | documentEnd
  | blockSequence
  | blockMapping
  | blockEnd
  | flowSequence
  | flowSequenceEnd
  | flowMapping
  | flowMappingEnd
  | blockEntry
  | flowEntry
  | key
  | value
  | alias (name : List Char)
  | anchor (name : List Char)
  | tag (handle suffix : List Char)
  | scalar (style : Style) (text : String)
  deriving DecidableEq, Repr

end SigVerdict.Yaml
