import Bindery.Yaml.Fault

/-!
# Tokens

A `Token` is a sign or a word of a YAML text with the places where it starts
and ends.  The starts and ends of blocks, which only the indentation shows, are
tokens of no width, and so is the key sign in front of a key that has none.

`Scan` is a reading of the text that moves a cursor or fails.  It leaves a cursor
also when it fails.
-/

namespace Bindery.Yaml

/-- An instruction at the head of a document. -/
inductive Directive where
  /-- The version of the language. -/
  | version (major minor : Nat)
  /-- The meaning of a handle. -/
  | handle (handle uri : String)
  /-- Any other instruction. -/
  | other (name : String)
deriving DecidableEq, Repr

/-- The kinds of token, with what they hold. -/
inductive TokenKind where
  /-- The end of the text. -/
  | streamEnd
  /-- A directive. -/
  | directive (d : Directive)
  /-- Three hyphens. -/
  | documentStart
  /-- Three points. -/
  | documentEnd
  /-- A sequence by indentation starts. -/
  | blockSequenceStart
  /-- A mapping by indentation starts. -/
  | blockMappingStart
  /-- An indented block ends. -/
  | blockEnd
  /-- An opening square bracket. -/
  | flowSequenceStart
  /-- An opening curly bracket. -/
  | flowMappingStart
  /-- A closing square bracket. -/
  | flowSequenceEnd
  /-- A closing curly bracket. -/
  | flowMappingEnd
  /-- A key follows. -/
  | key
  /-- A value follows. -/
  | value
  /-- An entry of a sequence by indentation follows. -/
  | blockEntry
  /-- A comma. -/
  | flowEntry
  /-- A reference to an anchor. -/
  | alias (name : String)
  /-- The name of a node. -/
  | anchor (name : String)
  /-- The tag of a node: a handle, if it has one, and the rest. -/
  | tag (handle : Option String) (suffix : String)
  /-- A scalar, and whether it is without quotes and header. -/
  | scalar (text : Text) (plain : Bool)
deriving DecidableEq, Repr

/-- A token with its place. -/
structure Token where
  /-- What it is. -/
  kind : TokenKind
  /-- Where it starts. -/
  start : Mark
  /-- Where it ends. -/
  stop : Mark
deriving DecidableEq, Repr

/-- The name of a kind of token in messages. -/
def TokenKind.name : TokenKind → String
  | .streamEnd => "<stream end>"
  | .directive _ => "<directive>"
  | .documentStart => "<document start>"
  | .documentEnd => "<document end>"
  | .blockSequenceStart => "<block sequence start>"
  | .blockMappingStart => "<block mapping start>"
  | .blockEnd => "<block end>"
  | .flowSequenceStart => "["
  | .flowMappingStart => "\x7b"
  | .flowSequenceEnd => "]"
  | .flowMappingEnd => "\x7d"
  | .key => "?"
  | .value => ":"
  | .blockEntry => "-"
  | .flowEntry => ","
  | .alias _ => "<alias>"
  | .anchor _ => "<anchor>"
  | .tag _ _ => "<tag>"
  | .scalar _ _ => "<scalar>"

/-! ## Reading with a cursor -/

/-- A reading of the text at a cursor. -/
abbrev Scan (α : Type) := ExceptT Error (StateM Cursor) α

namespace Scan

/-- The place of the cursor. -/
def mark : Scan Mark := do return (← get).mark

/-- The next character. -/
def peek : Scan Char := do return (← get).peek

/-- The character at a distance. -/
def ahead (n : Nat) : Scan Char := do
  modify (Cursor.look (n + 1))
  return (← get).ahead n

/-- Passes the given number of characters. -/
def skip (n : Nat) : Scan Unit := modify (Cursor.skip n)

/-- Takes the characters of a class. -/
def span (p : Char → Bool) : Scan (List Char) := do
  let (taken, c) := (← get).span p
  set c
  return taken

/-- Fails at the cursor. -/
def fail {α : Type} (context : Option Context) (start : Option Mark) (problem : Problem) :
    Scan α := do
  throw (.fault ⟨context, start, problem, ← mark⟩)

/-- Passes blanks, a comment and a line end.  Nothing else may stand in the line. -/
def restOfLine (context : Context) (start : Mark) : Scan Unit := do
  modify Cursor.skipComment
  let c ← peek
  if !endsLine c then fail context start (.notLineEnd c)
  modify Cursor.skipBreak

end Scan
end Bindery.Yaml
