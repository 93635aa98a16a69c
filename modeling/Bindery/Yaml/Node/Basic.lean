import Bindery.Yaml.Tag

/-!
# Nodes

A text without faults is a graph of nodes.  An alias is one more edge to the
node with the anchor, so a node may stand in several places and also inside
itself.  A `Graph` keeps its nodes in a list of places, and an edge is the
number of a place.
-/

namespace Bindery.Yaml

/-- The number of a node in its graph. -/
abbrev NodeId := Nat

/-- What a node holds. -/
inductive Content where
  /-- A text. -/
  | scalar (text : Text)
  /-- A list of nodes. -/
  | sequence (items : List NodeId)
  /-- A list of keys with their values. -/
  | mapping (entries : List (NodeId × NodeId))
deriving DecidableEq, Repr, Inhabited

/-- A node. -/
structure Node where
  /-- How its value is built. -/
  tag : Tag
  /-- Where it starts. -/
  start : Mark
  /-- What it holds. -/
  content : Content
deriving DecidableEq, Repr, Inhabited

/-- The kind of a node. -/
def Node.kind (n : Node) : Kind :=
  match n.content with
  | .scalar _ => .scalar
  | .sequence _ => .sequence
  | .mapping _ => .mapping

/-- The items of a sequence. -/
def Node.items (n : Node) : List NodeId :=
  match n.content with
  | .sequence items => items
  | _ => []

/-- The entries of a mapping. -/
def Node.entries (n : Node) : List (NodeId × NodeId) :=
  match n.content with
  | .mapping entries => entries
  | _ => []

/-- Nodes by their numbers. -/
structure Graph where
  /-- The nodes. -/
  nodes : Array Node := #[]
deriving Repr, Inhabited

namespace Graph

/-- The node with a number. -/
def node (g : Graph) (id : NodeId) : Node := g.nodes.getD id default

/-- The graph with one more node, and its number. -/
def add (g : Graph) (n : Node) : NodeId × Graph := (g.nodes.size, ⟨g.nodes.push n⟩)

/-- The graph with a node changed. -/
def update (g : Graph) (id : NodeId) (f : Node → Node) : Graph := ⟨g.nodes.modify id f⟩

/-- The graph with the content of a node set. -/
def fill (g : Graph) (id : NodeId) (content : Content) : Graph :=
  g.update id fun n => { n with content }

end Graph
end Bindery.Yaml
