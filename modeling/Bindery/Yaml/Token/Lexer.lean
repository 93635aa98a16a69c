import Bindery.Yaml.Token.Scalar
import Bindery.Yaml.Token.Word

/-!
# The tokens of a text

`tokens` reads all tokens of a text, up to the end or the first fault.

A key on one line is known only at its colon.  Then a key sign is put in front
of it, and the start of a mapping if the key opens one.  So a token that may
still turn out to be such a key holds back itself and all tokens behind it.
`Lexer.release` hands out the tokens in front of the first one held back.  A
fault is found while reading for more tokens, so what is held back then is
never handed out.

With each token and with the fault comes how far the text was looked at before
it was known.  The tokens that a longer text starts with are those for which
that is not beyond the end of the shorter one.
-/

namespace Bindery.Yaml

/-- A token that may turn out to be a key. -/
structure Candidate where
  /-- The depth of flow collections it stands in. -/
  depth : Nat
  /-- The number of tokens in front of it. -/
  position : Nat
  /-- It must be a key, as it stands at the indentation of a mapping. -/
  required : Bool
  /-- Where it starts. -/
  start : Mark
deriving DecidableEq, Repr

/-- The fault that ends the tokens of a text. -/
structure Stop where
  /-- What is wrong. -/
  error : Error
  /-- The number of characters up to the last one looked at. -/
  seen : Nat
deriving DecidableEq, Repr

/-- A text as far as it is read. -/
structure Lexer where
  /-- The place behind what is read. -/
  cursor : Cursor
  /-- The tokens handed out, last one first, each with the number of characters up to
  the last one looked at. -/
  released : List (Token × Nat) := []
  /-- The number of tokens handed out. -/
  count : Nat := 0
  /-- The tokens held back. -/
  held : List Token := []
  /-- The depth of flow collections. -/
  depth : Nat := 0
  /-- The indentation of the block at hand, -1 outside all blocks. -/
  indent : Int := -1
  /-- The indentations of the blocks around it. -/
  outer : List Int := []
  /-- A key may start here. -/
  keyAllowed : Bool := true
  /-- The tokens that may turn out to be keys, at most one at each depth. -/
  candidates : List Candidate := []
  /-- The end of the text is reached. -/
  ended : Bool := false

namespace Lexer

/-! ## Holding back and handing out -/

/-- The cursor is inside a flow collection. -/
def inFlow (l : Lexer) : Bool := l.depth != 0

/-- A token read. -/
def push (l : Lexer) (t : Token) : Lexer := { l with held := l.held ++ [t] }

/-- A token without width at the cursor. -/
def pushMark (l : Lexer) (kind : TokenKind) : Lexer :=
  l.push ⟨kind, l.cursor.mark, l.cursor.mark⟩

/-- A token put at a position. -/
def insert (l : Lexer) (position : Nat) (t : Token) : Lexer :=
  let n := position - l.count
  { l with held := l.held.take n ++ t :: l.held.drop n }

/-- A fault met at the cursor. -/
def stop {α : Type} (l : Lexer) (error : Error) : Except Stop α := .error ⟨error, l.cursor.reach⟩

/-- A key without its colon, seen from the cursor. -/
def noColon {α : Type} (l : Lexer) (k : Candidate) : Except Stop α :=
  l.stop (.fault ⟨some .simpleKey, some k.start, .noColon, l.cursor.mark⟩)

/-- The longest distance from the start of a key to its colon. -/
def longestKey : Nat := 1024

/-- A key can no longer end: the line has ended or the distance is too long. -/
def isStale (l : Lexer) (k : Candidate) : Bool :=
  k.start.line != l.cursor.mark.line || longestKey < l.cursor.mark.index - k.start.index

/-- Without the keys that can no longer end. -/
def dropStale (l : Lexer) : Except Stop Lexer :=
  match l.candidates.find? fun k => l.isStale k && k.required with
  | some k => l.noColon k
  | none => .ok { l with candidates := l.candidates.filter fun k => !l.isStale k }

/-- Without the key at the depth of the cursor. -/
def dropCandidate (l : Lexer) : Except Stop Lexer :=
  match l.candidates.find? fun k => k.depth == l.depth && k.required with
  | some k => l.noColon k
  | none => .ok { l with candidates := l.candidates.filter fun k => k.depth != l.depth }

/-- The token that comes next may turn out to be a key. -/
def saveCandidate (l : Lexer) : Except Stop Lexer :=
  if !l.keyAllowed then .ok l
  else do
    let l ← l.dropCandidate
    let required := !l.inFlow && l.indent == l.cursor.mark.column
    let k : Candidate := ⟨l.depth, l.count + l.held.length, required, l.cursor.mark⟩
    return { l with candidates := l.candidates ++ [k] }

/-- Hands out the tokens in front of the first one held back. -/
def release (l : Lexer) : Lexer :=
  let n :=
    match (l.candidates.map Candidate.position).min? with
    | some first => first - l.count
    | none => l.held.length
  { l with
    released := ((l.held.take n).map fun t => (t, l.cursor.reach)).reverse ++ l.released
    count := l.count + (l.held.take n).length
    held := l.held.drop n }

/-! ## Indentation -/

/-- Closes the blocks that are indented more than a column. -/
def unwindTo (column : Int) : (outer : List Int) → Lexer → Lexer
  | [], l => l
  | parent :: outer, l =>
      if column < l.indent then
        unwindTo column outer { l.pushMark .blockEnd with indent := parent, outer }
      else l

/-- Closes the blocks that are indented more than a column, outside flow collections. -/
def unwind (l : Lexer) (column : Int) : Lexer :=
  if l.inFlow then l else unwindTo column l.outer l

/-- A block opened at a column, and whether it is indented more than the one around it. -/
def indentTo (l : Lexer) (column : Int) : Lexer × Bool :=
  if l.indent < column then
    ({ l with outer := l.indent :: l.outer, indent := column }, true)
  else (l, false)

/-- A block opened at the column of the cursor, with the token for its start. -/
def openBlock (l : Lexer) (kind : TokenKind) : Lexer :=
  match l.indentTo l.cursor.mark.column with
  | (l, true) => l.pushMark kind
  | (l, false) => l

/-! ## Tokens -/

/-- A reading at the cursor, and the text behind it. -/
def reading {α : Type} (l : Lexer) (s : Scan α) : Except Stop (α × Lexer) :=
  match s.run l.cursor with
  | (.ok x, cursor) => .ok (x, { l with cursor })
  | (.error e, cursor) => { l with cursor }.stop e

/-- A reading of one token. -/
def scan (l : Lexer) (s : Scan Token) : Except Stop Lexer := do
  let (t, l) ← l.reading s
  return l.push t

/-- A sign of the given width. -/
def sign (l : Lexer) (kind : TokenKind) (width : Nat := 1) : Lexer :=
  let c := l.cursor.skip width
  { l.push ⟨kind, l.cursor.mark, c.mark⟩ with cursor := c }

/-- The end of the text. -/
def atEnd (l : Lexer) : Except Stop Lexer := do
  let l ← (l.unwind (-1)).dropCandidate
  return { l.pushMark .streamEnd with keyAllowed := false, candidates := [], ended := true }

/-- A directive. -/
def directive (l : Lexer) : Except Stop Lexer := do
  let l ← (l.unwind (-1)).dropCandidate
  { l with keyAllowed := false }.scan Scan.directive

/-- The start or the end of a document. -/
def separator (l : Lexer) (kind : TokenKind) : Except Stop Lexer := do
  let l ← (l.unwind (-1)).dropCandidate
  return { l with keyAllowed := false }.sign kind 3

/-- The start of a flow collection, which may be a key. -/
def openFlow (l : Lexer) (kind : TokenKind) : Except Stop Lexer := do
  let l ← l.saveCandidate
  return { l with depth := l.depth + 1, keyAllowed := true }.sign kind

/-- The end of a flow collection. -/
def closeFlow (l : Lexer) (kind : TokenKind) : Except Stop Lexer := do
  let l ← l.dropCandidate
  return { l with depth := l.depth - 1, keyAllowed := false }.sign kind

/-- A comma. -/
def flowEntry (l : Lexer) : Except Stop Lexer := do
  let l ← { l with keyAllowed := true }.dropCandidate
  return l.sign .flowEntry

/-- A fault at the cursor, without a context. -/
def failHere {α : Type} (l : Lexer) (problem : Problem) : Except Stop α :=
  l.stop (.fault ⟨none, none, problem, l.cursor.mark⟩)

/-- The sign of an entry of a block sequence. -/
def blockEntry (l : Lexer) : Except Stop Lexer := do
  if !l.inFlow && !l.keyAllowed then l.failHere .sequenceHere
  let l := if l.inFlow then l else l.openBlock .blockSequenceStart
  let l ← { l with keyAllowed := true }.dropCandidate
  return l.sign .blockEntry

/-- The sign of a key. -/
def keySign (l : Lexer) : Except Stop Lexer := do
  if !l.inFlow && !l.keyAllowed then l.failHere .keyHere
  let l := if l.inFlow then l else l.openBlock .blockMappingStart
  let l ← { l with keyAllowed := !l.inFlow }.dropCandidate
  return l.sign .key

/-- The colon behind a key on one line. -/
def valueOf (l : Lexer) (k : Candidate) : Lexer :=
  let l := { l with candidates := l.candidates.filter fun other => other.depth != l.depth }
  let l := l.insert k.position ⟨.key, k.start, k.start⟩
  let l :=
    if l.inFlow then l
    else
      match l.indentTo k.start.column with
      | (l, true) => l.insert k.position ⟨.blockMappingStart, k.start, k.start⟩
      | (l, false) => l
  { l with keyAllowed := false }.sign .value

/-- The colon of a value. -/
def value (l : Lexer) : Except Stop Lexer :=
  match l.candidates.find? fun k => k.depth == l.depth with
  | some k => .ok (l.valueOf k)
  | none => do
      if !l.inFlow && !l.keyAllowed then l.failHere .valueHere
      let l := if l.inFlow then l else l.openBlock .blockMappingStart
      let l ← { l with keyAllowed := !l.inFlow }.dropCandidate
      return l.sign .value

/-- A token that may be a key and allows no other key behind it. -/
def word (l : Lexer) (s : Scan Token) : Except Stop Lexer := do
  let l ← l.saveCandidate
  { l with keyAllowed := false }.scan s

/-- A block scalar. -/
def blockScalar (l : Lexer) : Except Stop Lexer := do
  let l ← { l with keyAllowed := true }.dropCandidate
  l.scan (Scan.block l.indent)

/-- A plain scalar.  A key may follow if it ends on a new line. -/
def plain (l : Lexer) : Except Stop Lexer := do
  let l ← l.saveCandidate
  let ((t, newLine), l) ← l.reading (Scan.plain l.inFlow l.indent)
  return { l.push t with keyAllowed := newLine }

/-! ## The next token -/

/-- The place behind blanks, comments and line ends.  A line end allows a key,
outside flow collections. -/
def skipToToken : (fuel : Nat) → Lexer → Lexer
  | 0, l => l
  | fuel + 1, l =>
      let l := { l with cursor := l.cursor.skipComment }
      match l.cursor.lineBreak? with
      | none => l
      | some (_, c) =>
          skipToToken fuel { l with cursor := c, keyAllowed := l.keyAllowed || !l.inFlow }

/-- The characters that start no plain scalar, or only in front of some others. -/
def signs : List Char := "-?:,[]\x7b\x7d#&*!|>\x27\x22%@\x60".toList

/-- A plain scalar starts here. -/
def startsPlain (l : Lexer) : Bool :=
  let c := l.cursor.peek
  !(endsToken c || signs.contains c) ||
    (!endsToken (l.cursor.ahead 1) && (c == '-' || (!l.inFlow && (c == '?' || c == ':'))))

/-- The character behind a sign decides what the sign is.  Others are clear at once. -/
def isAmbiguous (l : Lexer) (c : Char) : Bool :=
  "-\t%@\x60".toList.contains c || (if l.inFlow then c == '|' || c == '>' else c == '?' || c == ':')

/-- The cursor when it was looked what the token at it is. -/
def lookAtToken (l : Lexer) : Lexer :=
  let c := l.cursor.peek
  let cursor :=
    if l.cursor.mark.column == 0 && (c == '-' || c == '.') then l.cursor.lookForSeparator
    else l.cursor
  { l with cursor := if l.isAmbiguous c then cursor.look 2 else cursor }

/-- Reads the next token, with the starts and ends of blocks in front of it. -/
def next (l : Lexer) : Except Stop Lexer := do
  let l := if l.cursor.mark.index == 0 && l.cursor.peek == '\ufeff' then
      { l with cursor := l.cursor.next }
    else l
  let l := skipToToken (l.cursor.rest.length + 1) l
  let l ← l.dropStale
  let l := (l.unwind l.cursor.mark.column).lookAtToken
  let c := l.cursor.peek
  let blankNext := endsToken (l.cursor.ahead 1)
  let atLineStart := l.cursor.mark.column == 0
  if c == endOfText then l.atEnd
  else if c == '%' && atLineStart then l.directive
  else if c == '-' && atLineStart && l.cursor.atSeparator then l.separator .documentStart
  else if c == '.' && atLineStart && l.cursor.atSeparator then l.separator .documentEnd
  else if c == '[' then l.openFlow .flowSequenceStart
  else if c == '\x7b' then l.openFlow .flowMappingStart
  else if c == ']' then l.closeFlow .flowSequenceEnd
  else if c == '\x7d' then l.closeFlow .flowMappingEnd
  else if c == ',' then l.flowEntry
  else if c == '-' && blankNext then l.blockEntry
  else if c == '?' && (l.inFlow || blankNext) then l.keySign
  else if c == ':' && (l.inFlow || blankNext) then l.value
  else if c == '*' || c == '&' then l.word Scan.reference
  else if c == '!' then l.word Scan.tag
  else if (c == '|' || c == '>') && !l.inFlow then l.blockScalar
  else if c == '\x27' || c == '\x22' then l.word Scan.quoted
  else if l.startsPlain then l.plain
  else l.stop (.fault ⟨some .nextToken, none, .noToken c, l.cursor.mark⟩)

/-- Reads tokens up to the end of the text or the first fault. -/
def run : (fuel : Nat) → Lexer → List (Token × Nat) × Option Stop
  | 0, l => (l.released.reverse, none)
  | fuel + 1, l =>
      match l.next >>= dropStale with
      | .error e => (l.released.reverse, some e)
      | .ok l =>
          let l := l.release
          if l.ended then (l.released.reverse, none) else run fuel l

end Lexer

/-- The tokens of a text, and the fault that ends them if there is one.  Each step
reads at least one character, and one step the end. -/
def tokens (cs : List Char) : List (Token × Nat) × Option Stop :=
  ({ cursor := .start cs } : Lexer).run (cs.length + 2)

end Bindery.Yaml
