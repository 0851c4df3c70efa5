import SigVerdict.Format.Yaml.Token

set_option autoImplicit false

/-! # Nodes of YAML

A graph is a tree of scalars, sequences and mappings. An alias stands for a node that has an
anchor; it names the node by a number, and a graph lists its numbered nodes. An alias may
stand for a node around it, so aliases are followed one at a time. -/

namespace SigVerdict.Yaml

/-- A node. -/
inductive Node where
  | scalar (tag : Option (List Char)) (style : Style) (text : String)
  | sequence (items : List Node)
  | mapping (entries : List (Node × Node))
  | alias (number : Nat)
  deriving Repr

/-- The scalar without a text. -/
def Node.empty : Node := .scalar none .plain ""

/-- A node with an anchor: its number, and how many nodes with anchors start in front of it. -/
structure Marked where
  number : Nat
  place : Nat
  node : Node
  deriving Repr

/-- The nodes of a document. -/
structure Graph where
  root : Node
  marked : List Marked
  deriving Repr

/-- The node of a number. If several have it, it is the last one to start. -/
def Graph.node? (g : Graph) (number : Nat) : Option Node :=
  let named := g.marked.filter fun m => m.number == number
  (named.foldl (fun (best : Option Marked) m =>
    if best.all fun b => b.place < m.place then some m else best) none).map Marked.node

/-- What a node is when it is followed to the node that an alias stands for. -/
def Graph.follow (g : Graph) : Node → Node
  | .alias number => (g.node? number).getD .empty
  | node => node

end SigVerdict.Yaml
