import Bindery.Yaml.Node.Basic
import Bindery.Yaml.Token.Basic

/-!
# The nodes of tokens

`Graph.ofTokens` reads the document that the tokens of a text make up.  A text
holds at most one document.  There is one function per rule of the grammar.
Each reads the tokens of a node from the front and adds the node to the graph.

A node counts as read from its first token on: its anchor is known inside the
node itself.  The tokens may end in a fault of the text, or where no more of it
is known.  That comes up when a rule asks for the token that is not there, and
nothing else is a fault that a rule does not find itself.

The rules for nodes, items and entries call each other.  A rule reads at least
one token every three calls, so the number of tokens bounds the depth.
-/

namespace Bindery.Yaml

/-! ## Reading tokens -/

/-- A document as far as it is read. -/
structure Reading (ε : Type) where
  /-- The tokens that follow. -/
  tokens : List Token
  /-- The fault behind the last token, or why no more tokens are known. -/
  stop : Option (Error ⊕ ε)
  /-- The meanings of the handles of tags. -/
  handles : List (String × String) := []
  /-- The nodes with an anchor. -/
  anchors : List (String × NodeId) := []
  /-- The nodes. -/
  graph : Graph := {}

/-- A rule of the grammar. -/
abbrev Rule (ε α : Type) := StateT (Reading ε) (Except (Error ⊕ ε)) α

namespace Rule

variable {ε : Type}

/-- The next token. -/
def peek : Rule ε Token := do
  let r ← get
  match r.tokens, r.stop with
  | t :: _, _ => return t
  | [], some e => throw e
  | [], none => return ⟨.streamEnd, {}, {}⟩

/-- Passes the next token. -/
def advance : Rule ε Unit := modify fun r => { r with tokens := r.tokens.drop 1 }

/-- Fails at a place. -/
def fail {α : Type} (context : Option Context) (start : Option Mark) (problem : Problem)
    (mark : Mark) : Rule ε α :=
  throw (.inl (.fault ⟨context, start, problem, mark⟩))

/-- Adds a node. -/
def addNode (n : Node) : Rule ε NodeId := do
  let r ← get
  let (id, graph) := r.graph.add n
  set { r with graph }
  return id

/-- Adds a scalar that is not written. -/
def addEmpty (place : Mark) : Rule ε NodeId := addNode ⟨.null, place, .scalar ""⟩

/-- Sets the content of a node. -/
def fill (id : NodeId) (content : Content) : Rule ε Unit :=
  modify fun r => { r with graph := r.graph.fill id content }

/-! ## Properties -/

/-- What stands in front of the content of a node. -/
structure Properties where
  /-- Where the node starts. -/
  start : Mark
  /-- The anchor. -/
  anchor : Option String := none
  /-- The name of the tag. -/
  tag : Option String := none

/-- The node has an anchor or a tag. -/
def Properties.isGiven (p : Properties) : Bool := p.anchor.isSome || p.tag.isSome

/-- The tag of a scalar.  The tag `!` asks for the form of the scalar, as no tag
does for a plain one. -/
def Properties.scalarTag (p : Properties) (text : Text) (plain : Bool) : Tag :=
  match p.tag with
  | none => if plain then .ofForm text else .str
  | some "!" => .ofForm text
  | some name => .ofName name

/-- The tag of a collection. -/
def Properties.collectionTag (p : Properties) (usual : Tag) : Tag :=
  match p.tag with
  | none => usual
  | some "!" => usual
  | some name => .ofName name

/-- The name of a tag whose handle has a meaning. -/
def tagName (start mark : Mark) (handle : Option String) (suffix : String) : Rule ε String := do
  match handle with
  | none => return suffix
  | some handle =>
      match (← get).handles.lookup handle with
      | some uri => return uri ++ suffix
      | none => fail (some .properties) (some start) (.unknownHandle handle) mark

/-- Reads a tag, if one comes next, of a node that starts at a place. -/
def tag? (start : Mark) : Rule ε (Option String) := do
  let t ← peek
  match t.kind with
  | .tag handle suffix => do
      advance
      return some (← tagName start t.start handle suffix)
  | _ => return none

/-- Reads an anchor, if one comes next. -/
def anchor? : Rule ε (Option String) := do
  match (← peek).kind with
  | .anchor name => do
      advance
      return some name
  | _ => return none

/-- Reads the properties of a node, in either order. -/
def properties : Rule ε Properties := do
  let t ← peek
  match t.kind with
  | .anchor name => do
      advance
      return ⟨t.start, some name, ← tag? t.start⟩
  | .tag handle suffix => do
      advance
      let anchor ← anchor?
      return ⟨t.start, anchor, some (← tagName t.start t.start handle suffix)⟩
  | _ => return ⟨t.start, none, none⟩

/-! ## The shape of a node -/

/-- Where a node stands. -/
inductive Position where
  /-- Inside a flow collection. -/
  | flow
  /-- Where a block may stand. -/
  | block
  /-- Behind the sign of a key or a value, where the entries of a sequence need no
  more indentation. -/
  | member
deriving DecidableEq, Repr

/-- What a node looks like. -/
inductive Shape where
  /-- A scalar. -/
  | scalar (text : Text) (plain : Bool)
  /-- Nothing behind the properties. -/
  | empty
  /-- The entries of a sequence without more indentation. -/
  | looseSequence
  /-- A sequence in block style. -/
  | blockSequence
  /-- A mapping in block style. -/
  | blockMapping
  /-- A sequence in flow style. -/
  | flowSequence
  /-- A mapping in flow style. -/
  | flowMapping
deriving DecidableEq, Repr

/-- The shape of a node in a position by its first token.  Only a node with
properties may be empty. -/
def Shape.of? (position : Position) (given : Bool) (first : TokenKind) : Option Shape :=
  let other : Option Shape := if given then some .empty else none
  match first with
  | .scalar text plain => some (.scalar text plain)
  | .flowSequenceStart => some .flowSequence
  | .flowMappingStart => some .flowMapping
  | .blockEntry => if position = .member then some .looseSequence else other
  | .blockSequenceStart => if position = .flow then other else some .blockSequence
  | .blockMappingStart => if position = .flow then other else some .blockMapping
  | _ => other

/-- The node of a shape, with no children yet. -/
def Shape.node (p : Properties) : Shape → Node
  | .scalar text plain => ⟨p.scalarTag text plain, p.start, .scalar text⟩
  | .empty => ⟨p.scalarTag "" true, p.start, .scalar ""⟩
  | .looseSequence | .blockSequence | .flowSequence =>
      ⟨p.collectionTag .seq, p.start, .sequence []⟩
  | .blockMapping | .flowMapping => ⟨p.collectionTag .map, p.start, .mapping []⟩

/-- Adds a node and makes its anchor known, which must be a new one. -/
def begin (p : Properties) (shape : Shape) : Rule ε NodeId := do
  match p.anchor with
  | none => addNode (shape.node p)
  | some name => do
      let r ← get
      match r.anchors.lookup name with
      | some first =>
          fail (some (.firstAnchor name)) (some (r.graph.node first).start) .secondAnchor p.start
      | none => do
          let id ← addNode (shape.node p)
          modify fun r => { r with anchors := (name, id) :: r.anchors }
          return id

/-- The node with an anchor. -/
def known (name : String) (place : Mark) : Rule ε NodeId := do
  match (← get).anchors.lookup name with
  | some id => return id
  | none => fail none none (.unknownAlias name) place

/-! ## The rules -/

/-- A key or a value may be missing in front of these tokens in block style. -/
def endsMember : List TokenKind := [.key, .value, .blockEnd]

/-- The next token is one of some kinds. -/
def comes (kinds : List TokenKind) : Rule ε Bool := do return kinds.contains (← peek).kind

mutual

/-- A node. -/
def node : (fuel : Nat) → Position → Rule ε NodeId
  | 0, _ => do known "" (← peek).start
  | fuel + 1, position => do
      let t ← peek
      match t.kind with
      | .alias name => do
          advance
          known name t.start
      | _ => do
          let p ← properties
          let t ← peek
          match Shape.of? position p.isGiven t.kind with
          | none =>
              let context := if position = .flow then Context.flowNode else .blockNode
              fail (some context) (some p.start) (.noContent t.kind.name) t.start
          | some shape => do
              let id ← begin p shape
              match shape with
              | .scalar _ _ => advance
              | .empty => pure ()
              | .looseSequence => do
                  fill id (.sequence (← looseItems fuel))
              | .blockSequence => do
                  advance
                  fill id (.sequence (← blockItems fuel t.start))
              | .blockMapping => do
                  advance
                  fill id (.mapping (← blockEntries fuel t.start))
              | .flowSequence => do
                  advance
                  fill id (.sequence (← flowItems fuel t.start true))
              | .flowMapping => do
                  advance
                  fill id (.mapping (← flowEntries fuel t.start true))
              return id

/-- A node behind a sign, or nothing in front of some tokens. -/
def nodeAfter : (fuel : Nat) → Token → Position → (ends : List TokenKind) → Rule ε NodeId
  | 0, t, _, _ => addEmpty t.stop
  | fuel + 1, t, position, ends => do
      if ← comes ends then addEmpty t.stop else node fuel position

/-- The value of a key, or nothing if there is no sign of a value. -/
def valueNode : (fuel : Nat) → Position → (ends : List TokenKind) → Rule ε NodeId
  | 0, _, _ => do addEmpty (← peek).start
  | fuel + 1, position, ends => do
      let t ← peek
      if t.kind = .value then do
        advance
        nodeAfter fuel t position ends
      else addEmpty t.start

/-- The items of a sequence without more indentation. -/
def looseItems : (fuel : Nat) → Rule ε (List NodeId)
  | 0 => return []
  | fuel + 1 => do
      let t ← peek
      if t.kind = .blockEntry then do
        advance
        let item ← nodeAfter fuel t .block (.blockEntry :: endsMember)
        return item :: (← looseItems fuel)
      else return []

/-- The items of a sequence in block style that starts at a place. -/
def blockItems : (fuel : Nat) → (start : Mark) → Rule ε (List NodeId)
  | 0, _ => return []
  | fuel + 1, start => do
      let t ← peek
      match t.kind with
      | .blockEntry => do
          advance
          let item ← nodeAfter fuel t .block [.blockEntry, .blockEnd]
          return item :: (← blockItems fuel start)
      | .blockEnd => do
          advance
          return []
      | kind => fail (some .blockSequence) (some start) (.notBlockEnd kind.name) t.start

/-- The entries of a mapping in block style that starts at a place. -/
def blockEntries : (fuel : Nat) → (start : Mark) → Rule ε (List (NodeId × NodeId))
  | 0, _ => return []
  | fuel + 1, start => do
      let t ← peek
      match t.kind with
      | .key => do
          advance
          let key ← nodeAfter fuel t .member endsMember
          let value ← valueNode fuel .member endsMember
          return (key, value) :: (← blockEntries fuel start)
      | .blockEnd => do
          advance
          return []
      | kind => fail (some .blockMapping) (some start) (.notBlockEnd kind.name) t.start

/-- The items of a sequence in flow style that starts at a place.  A comma stands
in front of each but the first.  A key makes a mapping of one entry. -/
def flowItems : (fuel : Nat) → (start : Mark) → (first : Bool) → Rule ε (List NodeId)
  | 0, _, _ => return []
  | fuel + 1, start, first => do
      let t ← peek
      if t.kind = .flowSequenceEnd then do
        advance
        return []
      else do
        if !first then
          if t.kind = .flowEntry then advance
          else fail (some .flowSequence) (some start) (.notFlowEntry "]" t.kind.name) t.start
        let t ← peek
        match t.kind with
        | .flowSequenceEnd => do
            advance
            return []
        | .key => do
            advance
            let id ← addNode ⟨.map, t.start, .mapping []⟩
            let key ← nodeAfter fuel t .flow [.value, .flowEntry, .flowSequenceEnd]
            let value ← valueNode fuel .flow [.flowEntry, .flowSequenceEnd]
            fill id (.mapping [(key, value)])
            return id :: (← flowItems fuel start false)
        | _ => do
            let item ← node fuel .flow
            return item :: (← flowItems fuel start false)

/-- The entries of a mapping in flow style that starts at a place.  A comma stands
in front of each but the first.  A node without a sign is a key without a value. -/
def flowEntries :
    (fuel : Nat) → (start : Mark) → (first : Bool) → Rule ε (List (NodeId × NodeId))
  | 0, _, _ => return []
  | fuel + 1, start, first => do
      let t ← peek
      if t.kind = .flowMappingEnd then do
        advance
        return []
      else do
        if !first then
          if t.kind = .flowEntry then advance
          else fail (some .flowMapping) (some start) (.notFlowEntry "\x7d" t.kind.name) t.start
        let t ← peek
        match t.kind with
        | .flowMappingEnd => do
            advance
            return []
        | .key => do
            advance
            let key ← nodeAfter fuel t .flow [.value, .flowEntry, .flowMappingEnd]
            let value ← valueNode fuel .flow [.flowEntry, .flowMappingEnd]
            return (key, value) :: (← flowEntries fuel start false)
        | _ => do
            let key ← node fuel .flow
            let value ← addEmpty (← peek).start
            return (key, value) :: (← flowEntries fuel start false)

end

/-! ## Documents -/

/-- The handles that have a meaning in every document. -/
def usualHandles : List (String × String) := [("!", "!"), ("!!", Tag.common)]

/-- Reads directives.  The version is given at most once, and each handle too. -/
def directives : (fuel : Nat) → (versioned : Bool) → Rule ε Unit
  | 0, _ => pure ()
  | fuel + 1, versioned => do
      let t ← peek
      match t.kind with
      | .directive (.version major _) => do
          advance
          if versioned then fail none none .secondVersion t.start
          if major != 1 then fail none none .wrongVersion t.start
          directives fuel true
      | .directive (.handle handle uri) => do
          advance
          let r ← get
          if (r.handles.lookup handle).isSome then
            fail none none (.secondHandle handle) t.start
          set { r with handles := r.handles ++ [(handle, uri)] }
          directives fuel versioned
      | .directive (.other _) => do
          advance
          directives fuel versioned
      | _ => pure ()

/-- Reads the head of a document, up to its three hyphens. -/
def documentHead (fuel : Nat) : Rule ε Unit := do
  modify fun r => { r with handles := [] }
  directives fuel false
  modify fun r => { r with handles := r.handles ++ usualHandles }
  let t ← peek
  if t.kind = .documentStart then advance
  else fail none none (.notDocument t.kind.name) t.start

/-- Passes the ends of documents. -/
def skipEnds : (fuel : Nat) → Rule ε Unit
  | 0 => pure ()
  | fuel + 1 => do
      if (← peek).kind = .documentEnd then do
        advance
        skipEnds fuel

/-- The token stands for a directive. -/
def isDirective : TokenKind → Bool
  | .directive _ => true
  | _ => false

/-- Reads the node of a document behind its three hyphens, which may be empty. -/
def documentNode (fuel : Nat) : Rule ε NodeId := do
  let t ← peek
  if isDirective t.kind || [.documentStart, .documentEnd, .streamEnd].contains t.kind then
    addEmpty t.start
  else node fuel .block

/-- Reads the only document of a text, if there is one.  The first document needs
no three hyphens. -/
def document (fuel : Nat) : Rule ε (Option NodeId) := do
  let t ← peek
  if t.kind = .streamEnd then return none
  else do
    let root ←
      if isDirective t.kind || t.kind = .documentStart then do
        documentHead fuel
        documentNode fuel
      else do
        modify fun r => { r with handles := usualHandles }
        node fuel .block
    skipEnds fuel
    let t ← peek
    if t.kind = .streamEnd then return some root
    else do
      documentHead fuel
      fail (some .onlyDocument) (some ((← get).graph.node root).start) .secondDocument t.start

end Rule

/-- The graph of the document that tokens make up, and its root if there is a
document.  The tokens may end in a fault. -/
def Graph.ofTokens {ε : Type} (tokens : List Token) (stop : Option (Error ⊕ ε)) :
    Except (Error ⊕ ε) (Graph × Option NodeId) := do
  let (root, r) ← (Rule.document (3 * tokens.length + 4)).run { tokens, stop }
  return (r.graph, root)

end Bindery.Yaml
