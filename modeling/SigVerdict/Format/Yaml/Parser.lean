import SigVerdict.Format.Yaml.Node
import SigVerdict.Format.Yaml.Scanner

set_option autoImplicit false

/-! # Reading YAML

A reader of nodes takes tokens from a stream of one document. It knows what the handles of tags
stand for, and numbers the anchors: a new name gets the number of names that are known so far. -/

namespace SigVerdict.Yaml

/-- What a reader of nodes has left and knows. -/
structure Reader where
  tokens : List Token
  /-- What the handles of tags stand for. -/
  handles : List (List Char × List Char)
  /-- The names of anchors with their numbers. -/
  names : List (List Char × Nat) := []
  /-- The number of nodes with an anchor that have started. -/
  places : Nat := 0
  marked : List Marked := []

/-- A part of reading: it may fail, and leaves a reader. -/
abbrev Parse (α : Type) := StateT Reader Option α

namespace Parse

/-- Nothing can be read. -/
def fail {α : Type} : Parse α := fun _ => none

/-- The next token, which stays. -/
def peek : Parse (Option Token) := fun r => some (r.tokens.head?, r)

/-- Drop the next token. -/
def drop : Parse Unit := fun r => some ((), { r with tokens := r.tokens.tail })

/-- Whether the next token is the given one. -/
def isNext (token : Token) : Parse Bool := do return (← peek) == some token

/-- Whether the next token is one of the given ones. -/
def isAmong (tokens : List Token) : Parse Bool := do return (← peek).any tokens.contains

/-- Drop the next token if it is the given one; say whether it was. -/
def take (token : Token) : Parse Bool := do
  if ← isNext token then
    drop
    return true
  else return false

end Parse

open Parse

/-! ## Properties of nodes -/

/-- The properties in front of a node. -/
structure Properties where
  anchor : Option (List Char) := none
  tag : Option (List Char × List Char) := none

/-- An anchor and a tag, in either order. -/
def properties : Parse Properties := do
  match ← peek with
  | some (.anchor name) =>
    drop
    match ← peek with
    | some (.tag handle suffix) =>
      drop
      return ⟨some name, some (handle, suffix)⟩
    | _ => return ⟨some name, none⟩
  | some (.tag handle suffix) =>
    drop
    match ← peek with
    | some (.anchor name) =>
      drop
      return ⟨some name, some (handle, suffix)⟩
    | _ => return ⟨none, some (handle, suffix)⟩
  | _ => return {}

/-- The whole text of a tag, whose handle has to be known. -/
def resolveTag : Option (List Char × List Char) → Parse (Option (List Char))
  | none => return none
  | some ([], suffix) => return some suffix
  | some (handle, suffix) => do
    match (← get).handles.find? fun (known, _) => known == handle with
    | some (_, expansion) => return some (expansion ++ suffix)
    | none => fail

/-- What is known of a node with an anchor when it starts: its number and its place. -/
def startAnchor : Option (List Char) → Parse (Option (Nat × Nat))
  | none => return none
  | some name => do
    let r ← get
    let number := r.names.length
    let others := r.names.filter fun (known, _) => known != name
    set { r with names := (name, number) :: others, places := r.places + 1 }
    return some (number, r.places)

/-- Keep a node with an anchor. -/
def endAnchor (mark : Option (Nat × Nat)) (node : Node) : Parse Node := do
  match mark with
  | none => return node
  | some (number, place) =>
    modify fun r => { r with marked := ⟨number, place, node⟩ :: r.marked }
    return node

/-- The alias of a name that is known. -/
def aliasOf (name : List Char) : Parse Node := do
  match (← get).names.find? fun (known, _) => known == name with
  | some (_, number) => return .alias number
  | none => fail

/-- The tag of a scalar that has a text: a lone exclamation mark is none. -/
def scalarTag (tag : Option (List Char)) : Option (List Char) := tag.filter (· != ['!'])

/-! ## Nodes -/

mutual

/-- Read a node. `inBlock` says that it may be a block collection, and `dashes` that it may be a
    sequence whose dashes stand in the column of the key in front of it. -/
def node : Nat → Bool → Bool → Parse Node
  | 0, _, _ => fail
  | fuel + 1, inBlock, dashes => do
    match ← peek with
    | some (.alias name) =>
      drop
      aliasOf name
    | _ =>
      let found ← properties
      let tag ← resolveTag found.tag
      let mark ← startAnchor found.anchor
      let node ← match ← peek with
        | some (.scalar style text) =>
          drop
          pure (.scalar (scalarTag tag) style text)
        | some .blockEntry =>
          if dashes then .sequence <$> dashItems fuel []
          else if found.anchor.isSome || tag.isSome then pure (.scalar tag .plain "")
          else fail
        | some .flowSequence =>
          drop
          .sequence <$> flowItems fuel true []
        | some .flowMapping =>
          drop
          .mapping <$> flowEntries fuel true []
        | some .blockSequence =>
          if inBlock then
            drop
            .sequence <$> blockItems fuel []
          else if found.anchor.isSome || tag.isSome then pure (.scalar tag .plain "")
          else fail
        | some .blockMapping =>
          if inBlock then
            drop
            .mapping <$> blockEntries fuel []
          else if found.anchor.isSome || tag.isSome then pure (.scalar tag .plain "")
          else fail
        | _ =>
          if found.anchor.isSome || tag.isSome then pure (.scalar tag .plain "") else fail
      endAnchor mark node

/-- Read a node, or an empty scalar in front of the given tokens. -/
def nodeBefore : Nat → Bool → Bool → List Token → Parse Node
  | 0, _, _, _ => fail
  | fuel + 1, inBlock, dashes, tokens => do
    if ← isAmong tokens then return .empty else node fuel inBlock dashes

/-- Read the rest of a sequence of which a dash starts each item. -/
def blockItems : Nat → List Node → Parse (List Node)
  | 0, _ => fail
  | fuel + 1, held => do
    if ← take .blockEntry then
      let item ← nodeBefore fuel true false [.blockEntry, .blockEnd]
      blockItems fuel (item :: held)
    else if ← take .blockEnd then return held.reverse
    else fail

/-- Read the rest of a sequence whose dashes stand in the column of a key. -/
def dashItems : Nat → List Node → Parse (List Node)
  | 0, _ => fail
  | fuel + 1, held => do
    if ← take .blockEntry then
      let item ← nodeBefore fuel true false [.blockEntry, .key, .value, .blockEnd]
      dashItems fuel (item :: held)
    else return held.reverse

/-- Read the rest of a mapping outside of flow collections. -/
def blockEntries : Nat → List (Node × Node) → Parse (List (Node × Node))
  | 0, _ => fail
  | fuel + 1, held => do
    if ← take .key then
      let key ← nodeBefore fuel true true [.key, .value, .blockEnd]
      let value ←
        if ← take .value then nodeBefore fuel true true [.key, .value, .blockEnd]
        else pure .empty
      blockEntries fuel ((key, value) :: held)
    else if ← take .blockEnd then return held.reverse
    else fail

/-- Read the rest of a sequence in square brackets. An item may be a mapping of one entry. -/
def flowItems : Nat → Bool → List Node → Parse (List Node)
  | 0, _, _ => fail
  | fuel + 1, first, held => do
    if ← take .flowSequenceEnd then return held.reverse
    let ready ← if first then pure true else take .flowEntry
    if !ready then fail
    else if ← take .key then
      let entry ← flowPair fuel
      flowItems fuel false (.mapping [entry] :: held)
    else if ← take .flowSequenceEnd then return held.reverse
    else
      let item ← node fuel false false
      flowItems fuel false (item :: held)

/-- Read an entry of a sequence behind the mark of its key. A key that is left out takes the
    token that follows with it. -/
def flowPair : Nat → Parse (Node × Node)
  | 0 => fail
  | fuel + 1 => do
    let key ←
      if ← isAmong [.value, .flowEntry, .flowSequenceEnd] then do
        drop
        pure .empty
      else node fuel false false
    let value ←
      if ← take .value then nodeBefore fuel false false [.flowEntry, .flowSequenceEnd]
      else pure .empty
    return (key, value)

/-- Read the rest of a mapping in curly brackets. -/
def flowEntries : Nat → Bool → List (Node × Node) → Parse (List (Node × Node))
  | 0, _, _ => fail
  | fuel + 1, first, held => do
    if ← take .flowMappingEnd then return held.reverse
    let ready ← if first then pure true else take .flowEntry
    if !ready then fail
    else if ← take .key then
      let key ← nodeBefore fuel false false [.value, .flowEntry, .flowMappingEnd]
      let value ←
        if ← take .value then nodeBefore fuel false false [.flowEntry, .flowMappingEnd]
        else pure .empty
      flowEntries fuel false ((key, value) :: held)
    else if ← take .flowMappingEnd then return held.reverse
    else
      let key ← node fuel false false
      flowEntries fuel false ((key, .empty) :: held)

end

/-! ## Documents -/

/-- What handles stand for unless a directive says otherwise. -/
def standardHandles : List (List Char × List Char) :=
  [(['!'], ['!']), (['!', '!'], "tag:yaml.org,2002:".toList)]

/-- Take the directives of a document: whether there is a version among them, and what handles
    stand for. No directive may come twice. -/
def directives (versioned : Bool) (handles : List (List Char × List Char)) :
    List Token → Option ((Bool × List (List Char × List Char)) × List Token)
  | .version major minor :: tokens =>
    if !versioned && major == 1 && (minor == 1 || minor == 2) then directives true handles tokens
    else none
  | .handle name expansion :: tokens =>
    if handles.any fun (known, _) => known == name then none
    else directives versioned ((name, expansion) :: handles) tokens
  | tokens => some ((versioned, handles), tokens)

/-- Whether a token can only stand behind a document or in front of one. -/
def Token.isOutside : Token → Bool
  | .version .. | .handle .. | .documentStart | .documentEnd => true
  | _ => false

/-- The document of tokens behind its start, and the tokens behind it. -/
def documentFrom (handles : List (List Char × List Char)) (explicit : Bool) (tokens : List Token) :
    Option (Graph × List Token) := do
  if explicit && tokens.head?.all Token.isOutside then some (⟨.empty, []⟩, tokens)
  else
    let fuel := 3 * tokens.length + 8
    let (root, r) ← node fuel true false ⟨tokens, handles ++ standardHandles, [], 0, []⟩
    some (⟨root, r.marked⟩, r.tokens)

/-- Whether nothing but ends of documents is left. -/
def isEnd (tokens : List Token) : Bool := tokens.all (· == .documentEnd)

/-- The only document of a text. The text may also hold none, and then has no root. -/
def parse? (cs : List Char) : Option (Option Graph) := do
  let tokens ← tokens? cs
  let (found, rest) ← directives false [] tokens
  match rest with
  | [] => if tokens.isEmpty then some none else none
  | .documentStart :: rest =>
    let (graph, rest) ← documentFrom found.2 true rest
    if isEnd rest then some (some graph) else none
  | rest =>
    if rest.length < tokens.length then none
    else
      let (graph, rest) ← documentFrom [] false rest
      if isEnd rest then some (some graph) else none

end SigVerdict.Yaml
