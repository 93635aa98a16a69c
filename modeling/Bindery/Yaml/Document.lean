import Bindery.Text.Stream
import Bindery.Value.Set
import Bindery.Yaml.Leaf
import Bindery.Yaml.Node.Grammar
import Bindery.Yaml.Node.Merge
import Bindery.Yaml.Token.Lexer

/-!
# Documents

A `Document` is the value of a text.  As its nodes form a graph, so do its
values: a `Cell` is a value whose members are the numbers of other cells.  The
keys of a mapping are atoms, values without members.  Two keys are one if they
are equal, and also if they are the same object, as what is not a number does not
equal itself.

The cells are built in the order of their depth, and a member before the
members of its sibling.  The first fault in this order is reported.  A scalar
is built when it is met, and a collection is filled when all collections met
before it are filled.

`Document.read` gives the document of a text.  The text is taken from its file
block by block.  A block that cannot be taken is met when a character behind the
blocks before it is looked at, and so after the faults for which it is not.
`Document.value` unfolds a cell to a `Value`.
-/

namespace Bindery.Yaml

/-! ## Cells -/

/-- A value without members, as an object of its own. -/
structure Atom where
  /-- The value. -/
  value : Value
  /-- The node it is built for.  All scalars that are written as what is not a number
  are one object, and it has no node. -/
  node : Option NodeId
deriving Inhabited

/-- Two atoms are one key: they are equal, or the same object. -/
def Atom.same (a b : Atom) : Bool := a.value.same b.value || a.node == b.node

/-- A value with the numbers of its members. -/
inductive Cell where
  /-- A value without members. -/
  | leaf (a : Atom)
  /-- A list. -/
  | list (items : List NodeId)
  /-- A list of pairs. -/
  | pairs (items : List (NodeId × NodeId))
  /-- A mapping. -/
  | mapping (entries : List (Atom × NodeId))
  /-- A set, with its members as it shows them. -/
  | set (items : List Atom)
deriving Inhabited

/-- The value of a text. -/
structure Document where
  /-- The cells, with their numbers. -/
  cells : Array (Option Cell)
  /-- The number of the outermost cell. -/
  root : NodeId

/-- The entries of a mapping with one of them set.  The first of equal keys stays. -/
def putEntry (key : Atom) (value : NodeId) : List (Atom × NodeId) → List (Atom × NodeId)
  | [] => [(key, value)]
  | (other, old) :: entries =>
      if other.same key then (other, value) :: entries
      else (other, old) :: putEntry key value entries

/-! ## Building -/

/-- A document as far as it is built. -/
structure Builder where
  /-- The nodes. -/
  graph : Graph
  /-- The cells built so far. -/
  cells : Array (Option Cell)
  /-- The collections to fill, first one first. -/
  waiting : List NodeId := []

/-- A step of building. -/
abbrev Build (α : Type) := StateT Builder (Except Error) α

namespace Build

/-- The node with a number. -/
def node (id : NodeId) : Build Node := do return (← get).graph.node id

/-- The cell with a number, if it is built. -/
def cell? (id : NodeId) : Build (Option Cell) := do return (← get).cells.getD id none

/-- Sets a cell. -/
def setCell (id : NodeId) (cell : Cell) : Build Unit :=
  modify fun b => { b with cells := b.cells.setIfInBounds id (some cell) }

/-- Fails at a place. -/
def fail {α : Type} (problem : Problem) (mark : Mark) : Build α :=
  throw (.fault ⟨none, none, problem, mark⟩)

/-- Fails at a place inside a collection that starts at another one. -/
def failInside {α : Type} (context : Context) (start : Mark) (problem : Problem) (mark : Mark) :
    Build α :=
  throw (.fault ⟨some context, some start, problem, mark⟩)

/-- The text of a scalar.  A mapping stands for the scalar under its key for a
default value. -/
def scalarText (graph : Graph) : (fuel : Nat) → NodeId → Except Error Text
  | 0, _ => .error (.badValue .ownDefault)
  | fuel + 1, id =>
      let n := graph.node id
      match n.content with
      | .scalar text => .ok text
      | .sequence _ => .error (.fault ⟨none, none, .wrongKind .scalar .sequence, n.start⟩)
      | .mapping entries =>
          match entries.find? fun entry => (graph.node entry.1).tag = .value with
          | some entry => scalarText graph fuel entry.2
          | none => .error (.fault ⟨none, none, .wrongKind .scalar .mapping, n.start⟩)

/-- The value of a scalar. -/
def scalar (id : NodeId) : Build Atom := do
  let b ← get
  let n := b.graph.node id
  let text ← scalarText b.graph (b.graph.nodes.size + 1) id
  if n.tag = .timestamp && n.kind = .mapping then throw (.badValue .timeInMapping)
  let shared := n.tag = .float && isNanWord text
  match leaf? n.tag n.start text with
  | some result => return ⟨← result, if shared then none else some id⟩
  | none => fail (.unknownTag n.tag.name) n.start

/-- The empty collection of a tag, if it is the tag of a collection. -/
def emptyCell? : Tag → Option Cell
  | .seq => some (.list [])
  | .map => some (.mapping [])
  | .set => some (.set [])
  | .omap | .pairs => some (.pairs [])
  | _ => none

/-- The tag has a meaning for scalars. -/
def isScalarTag : Tag → Bool
  | .null | .bool | .int | .float | .binary | .timestamp | .str => true
  | _ => false

/-- Builds a cell.  A collection is left empty for now. -/
def build (id : NodeId) : Build Cell := do
  match ← cell? id with
  | some cell => return cell
  | none => do
      let n ← node id
      match emptyCell? n.tag with
      | some cell => do
          setCell id cell
          modify fun b => { b with waiting := b.waiting ++ [id] }
          return cell
      | none => do
          if !isScalarTag n.tag then fail (.unknownTag n.tag.name) n.start
          let cell := Cell.leaf (← scalar id)
          setCell id cell
          return cell

/-- Builds the items of a sequence. -/
def listOf (n : Node) : Build Cell := do
  match n.content with
  | .sequence items => do
      for item in items do
        let _ ← build item
      return .list items
  | _ => fail (.wrongKind .sequence n.kind) n.start

/-- Builds the entries of a mapping.  A key is a value without members. -/
def entriesOf (id : NodeId) : Build (List (Atom × NodeId)) := do
  let n ← node id
  if n.kind ≠ .mapping then fail (.wrongKind .mapping n.kind) n.start
  let b ← get
  let (_, graph) ← (Graph.flatten id).run b.graph
  set { b with graph }
  (graph.node id).entries.foldlM (fun entries entry => do
    match ← build entry.1 with
    | .leaf key => do
        let _ ← build entry.2
        return putEntry key entry.2 entries
    | _ => failInside .mappingValue n.start .collectionKey (← node entry.1).start) []

/-- Builds a list of pairs from a sequence of mappings with one entry each. -/
def pairsOf (context : Context) (n : Node) : Build Cell := do
  match n.content with
  | .sequence items => do
      let pairs ← items.mapM fun item => do
        let m ← node item
        match m.content with
        | .mapping [(key, value)] => do
            let _ ← build key
            let _ ← build value
            return (key, value)
        | .mapping entries =>
            failInside context n.start (.notOneEntry entries.length) m.start
        | _ => failInside context n.start (.notOrderedItem m.kind) m.start
      return .pairs pairs
  | _ => failInside context n.start (.notOrdered n.kind) n.start

/-- The filled collection of a node. -/
def collection (id : NodeId) : Build Cell := do
  let n ← node id
  match n.tag with
  | .map => return .mapping (← entriesOf id)
  | .set => return .set (Value.arrange Atom.value ((← entriesOf id).map Prod.fst))
  | .omap => pairsOf .orderedValue n
  | .pairs => pairsOf .pairsValue n
  | _ => listOf n

/-- Fills the collections that wait. -/
def fillAll : (fuel : Nat) → Build Unit
  | 0 => pure ()
  | fuel + 1 => do
      let b ← get
      match b.waiting with
      | [] => pure ()
      | id :: waiting => do
          set { b with waiting }
          setCell id (← collection id)
          fillAll fuel

end Build

namespace Document

/-- The document of a graph with a root. -/
def ofGraph (graph : Graph) (root : NodeId) : Except Error Document := do
  let size := graph.nodes.size
  let steps : Build Unit := do
    let _ ← Build.build root
    Build.fillAll (size + 1)
  let (_, b) ← steps.run { graph, cells := Array.replicate size none }
  return ⟨b.cells, root⟩

/-! ## Reading -/

/-- The character may stand in a text. -/
def isAcceptable (c : Char) : Bool :=
  c == '\t' || c == '\n' || c == '\r' || c == '\x85' || (' ' ≤ c && c ≤ '~') ||
    ('\xa0' ≤ c && c ≤ '\ufffd') || 0x10000 ≤ c.toNat

/-- The number of characters before the block with a character.  The first two
blocks are taken together. -/
def taken (index : Nat) : Nat :=
  let size := Text.Stream.blockSize
  if index < 2 * size then 0 else index / size * size

/-- The index of the first unacceptable character. -/
def findUnacceptable? (cs : List Char) : Option Nat := cs.findIdx? fun c => !isAcceptable c

/-- The fault of the first block that cannot be taken, and the number of characters in
front of that block.  `broken` is the fault of the bytes behind the characters. -/
def brokenBlock? (cs : List Char) (broken : Option Text.Utf8.Fault) : Option (Nat × BlockFault) :=
  let sound := if broken.isSome then taken cs.length else cs.length
  match findUnacceptable? (cs.take sound) with
  | some index => some (taken index, .unacceptable (cs.getD index endOfText) index)
  | none => broken.map fun fault => (sound, .undecodable fault)

/-- The fault of a text of which only the front can be taken, if there is one that is
found before a character behind the front is looked at. -/
def faultOfFront? (front : List Char) : Option Error :=
  let isKnown (seen : Nat) : Bool := seen ≤ front.length
  let (found, stop) := tokens front
  let known := found.takeWhile fun t => isKnown t.2
  let stop :=
    if known.length < found.length then none else stop.filter fun stop => isKnown stop.seen
  let behind : Error ⊕ Unit := (stop.map fun stop => .inl stop.error).getD (.inr ())
  match Graph.ofTokens (known.map Prod.fst) (some behind) with
  | .error (.inl error) => some error
  | _ => none

/-- The document of a text of which all can be taken, if it holds one. -/
def ofText (cs : List Char) : Except Error (Option Document) := do
  let (tokens, stop) := tokens cs
  let behind : Option (Error ⊕ Empty) := stop.map fun stop => .inl stop.error
  let (graph, root) ← (Graph.ofTokens (tokens.map Prod.fst) behind).mapError fun
    | .inl error => error
  match root with
  | none => return none
  | some root => return some (← ofGraph graph root)

/-- The document of a text, if it holds one.  The text may end in bytes that are none. -/
def read (cs : List Char) (broken : Option Text.Utf8.Fault) :
    Except (Error ⊕ BlockFault) (Option Document) :=
  match brokenBlock? cs broken with
  | some (size, fault) =>
      match faultOfFront? (cs.take size) with
      | some error => .error (.inl error)
      | none => .error (.inr fault)
  | none => (ofText cs).mapError .inl

/-! ## Unfolding -/

/-- The value of a cell.  A list or a mapping inside itself is not unfolded again,
so at most as many cells as there are nest. -/
def unfold (d : Document) : (fuel : Nat) → (active : List NodeId) → NodeId → Value
  | 0, _, _ => .null
  | fuel + 1, active, id =>
      let inner := unfold d fuel (id :: active)
      let inside := active.contains id
      match d.cells.getD id none with
      | none => .null
      | some (.leaf a) => a.value
      | some (.set items) => .set (items.map Atom.value)
      | some (.list items) => if inside then .again .list else .list (items.map inner)
      | some (.pairs items) =>
          if inside then .again .list
          else .list (items.map fun item => .pair (inner item.1) (inner item.2))
      | some (.mapping entries) =>
          if inside then .again .mapping
          else .mapping (entries.map fun entry => (entry.1.value, inner entry.2))

/-- The value of a cell. -/
def value (d : Document) (id : NodeId) : Value := d.unfold (d.cells.size + 1) [] id

/-- The outermost cell. -/
def rootCell (d : Document) : Cell := (d.cells.getD d.root none).getD (.leaf ⟨.null, none⟩)

/-! ## Tests -/

example : [0, 4096, 8191, 8192, 12287, 12288].map taken = [0, 0, 0, 8192, 8192, 12288] := by decide
example : faultOfFront? "a: b: c".toList = some (.fault ⟨none, none, .valueHere, ⟨4, 0, 4⟩⟩) := by
  decide +kernel
example : faultOfFront? "a: [b".toList = none := by decide +kernel

end Document
end Bindery.Yaml
