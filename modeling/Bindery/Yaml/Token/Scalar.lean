import Bindery.Yaml.Token.Basic

/-!
# Scalars

A scalar is plain, in quotes, or a block under a header.  In a plain or quoted
scalar one line end counts as a blank, and of several line ends the first one
is dropped.  In a literal block line ends stay, and in a folded block those
between lines that start with no blank are treated as in a plain scalar.

Each loop takes fuel, the length of the text behind the cursor, and every round
of it passes at least one character.
-/

namespace Bindery.Yaml.Scan

/-- How one line end and those behind it read: one is a blank, of several the first
is dropped, and a line end that is no newline stays. -/
def foldBreaks (first : Char) (others : List Char) : List Char :=
  if first != '\n' then first :: others else if others.isEmpty then [' '] else others

/-! ## Plain scalars -/

/-- The characters of a plain scalar up to a blank, with the place behind them and
whether a colon stands there.  A colon before a blank ends it, and in a flow
collection so do the signs of the collection. -/
def plainRun (inFlow : Bool) : List Char → Mark → List Char × List Char × Mark × Bool
  | [], m => ([], [], m, false)
  | c :: cs, m =>
      let following := cs.headD endOfText
      let endsAtColon := c == ':' &&
        (endsToken following || (inFlow && ",[]\x7b\x7d".toList.contains following))
      if endsToken c || endsAtColon || (inFlow && ",?[]\x7b\x7d".toList.contains c) then
        ([], c :: cs, m, endsAtColon)
      else
        let (taken, after) := plainRun inFlow cs (m.after c)
        (c :: taken, after)

/-- The run of a plain scalar at a cursor.  At a colon it was looked one further. -/
def plainWord (inFlow : Bool) (c : Cursor) : List Char × Cursor :=
  let (taken, rest, mark, atColon) := plainRun inFlow c.rest c.mark
  let after := { c with rest, mark }
  (taken, if atColon then after.look 2 else after)

/-- The line ends behind the first one of a gap in a plain scalar, or none if a
document ends in the gap. -/
def plainBreaks : (fuel : Nat) → Cursor → Option (List Char) × Cursor
  | 0, c => (some [], c)
  | fuel + 1, c =>
      if c.peek == ' ' then plainBreaks fuel c.next
      else
        match c.lineBreak? with
        | none => (some [], c)
        | some (x, c) =>
            let c := c.lookForSeparator
            if c.atSeparator then (none, c)
            else
              let (others, c) := plainBreaks fuel c
              (others.map (x :: ·), c)

/-- The gap between two runs of a plain scalar as it reads, whether it has a line
end, and the place behind it.  No gap reads as the empty text. -/
def plainGap (c : Cursor) : List Char × Bool × Cursor :=
  let (blanks, c) := c.span (· == ' ')
  match c.lineBreak? with
  | none => (blanks, false, c)
  | some (x, c) =>
      let c := c.lookForSeparator
      if c.atSeparator then ([], true, c)
      else
        match plainBreaks c.rest.length c with
        | (none, c) => ([], true, c)
        | (some others, c) => (foldBreaks x others, true, c)

/-- A plain scalar as far as it is read. -/
structure Plain where
  /-- The text. -/
  text : List Char
  /-- Where it ends. -/
  stop : Mark
  /-- The cursor has passed a line end behind the scalar. -/
  newLine : Bool
  /-- The place behind the scalar and the gap after it. -/
  after : Cursor

/-- The runs of a plain scalar.  `gap` is the text between what is read and the
cursor.  Outside flow collections a line that is indented less ends the scalar. -/
def plainRuns (inFlow : Bool) (indent : Int) :
    (fuel : Nat) → (gap : List Char) → Plain → Plain
  | 0, _, p => p
  | fuel + 1, gap, p =>
      if p.after.peek == '#' then p
      else
        let (run, c) := plainWord inFlow p.after
        if run.isEmpty then { p with after := c }
        else
          let (next, newLine, after) := plainGap c
          let read : Plain := ⟨p.text ++ gap ++ run, c.mark, newLine, after⟩
          if next.isEmpty || after.peek == '#' ||
              (!inFlow && (after.mark.column : Int) < indent) then read
          else plainRuns inFlow indent fuel next read

/-- A plain scalar, and whether the cursor stands on a new line behind it. -/
def plain (inFlow : Bool) (indent : Int) : Scan (Token × Bool) := do
  let c ← get
  let p := plainRuns inFlow (indent + 1) (c.rest.length + 1) [] ⟨[], c.mark, false, c⟩
  set p.after
  return (⟨.scalar (Text.ofChars p.text) true, c.mark, p.stop⟩, p.newLine)

/-! ## Quoted scalars -/

/-- The character of an escape of one letter. -/
def letterEscape? (c : Char) : Option Char :=
  match c with
  | '0' => some '\x00'
  | 'a' => some '\x07'
  | 'b' => some '\x08'
  | 't' => some '\t'
  | '\t' => some '\t'
  | 'n' => some '\n'
  | 'v' => some '\x0b'
  | 'f' => some '\x0c'
  | 'r' => some '\r'
  | 'e' => some '\x1b'
  | ' ' => some ' '
  | '\x22' => some '\x22'
  | '\\' => some '\\'
  | '/' => some '/'
  | 'N' => some '\x85'
  | '_' => some '\xa0'
  | 'L' => some '\u2028'
  | 'P' => some '\u2029'
  | _ => none

/-- The number of digits of a numbered escape. -/
def escapeWidth? (c : Char) : Option Nat :=
  match c with
  | 'x' => some 2
  | 'u' => some 4
  | 'U' => some 8
  | _ => none

/-- The code point of a number. -/
def pointOfCode (code : Nat) : Except Error CodePoint :=
  if 0x7FFFFFFF < code then .error (.badValue .beyondWord)
  else if 0x10FFFF < code then .error (.badValue .beyondUnicode)
  else .ok (.ofCode code)

/-- The line ends behind the first one of a gap in a quoted scalar. -/
def quotedBreaks (start : Mark) : (fuel : Nat) → Scan (List Char)
  | 0 => return []
  | fuel + 1 => do
      modify Cursor.lookForSeparator
      if (← get).atSeparator then fail (some .quotedScalar) start .separatorInQuotes
      modify (Cursor.skipWhile fun c => c == ' ' || c == '\t')
      match (← get).lineBreak? with
      | none => return []
      | some (x, c) => do
          set c
          return x :: (← quotedBreaks start fuel)

/-- The code point of an escape with so many digits. -/
def numberedEscape (start : Mark) (width : Nat) : Scan CodePoint := do
  let digits := ((← get).rest ++ [endOfText]).take width
  let valid := digits.takeWhile isHex
  match digits.drop valid.length with
  | x :: _ => do
      modify (Cursor.look (valid.length + 1))
      fail (some .doubleQuoted) start (.notHex width x)
  | [] => do
      modify (Cursor.look width)
      let x ← pointOfCode (hexNumber digits)
      skip width
      return x

/-- The escape behind a backslash. -/
def escape (start : Mark) : Scan Text := do
  let c ← peek
  match letterEscape? c, escapeWidth? c with
  | some x, _ => do
      skip 1
      return [.char x]
  | none, some width => do
      skip 1
      return [← numberedEscape start width]
  | none, none => do
      if isBreak c then
        modify Cursor.skipBreak
        return Text.ofChars (← quotedBreaks start ((← get).rest.length + 1))
      else fail (some .doubleQuoted) start (.unknownEscape c)

/-- The blanks and line ends between two words of a quoted scalar. -/
def quotedGap (start : Mark) : Scan (List Char) := do
  let blanks ← span fun c => c == ' ' || c == '\t'
  match (← get).lineBreak? with
  | some (x, c) => do
      set c
      return foldBreaks x (← quotedBreaks start (c.rest.length + 1))
  | none => do
      if (← peek) == endOfText then fail (some .quotedScalar) start .unclosedQuote
      return blanks

/-- An apostrophe comes next that is written twice, as it may be in single quotes. -/
def isDoubled (double : Bool) (c : Char) : Scan Bool := do
  if double || c != '\x27' then return false
  return (← ahead 1) == '\x27'

/-- The rest of a quoted scalar behind its first quote. -/
def quotedBody (double : Bool) (start : Mark) : (fuel : Nat) → Scan Text
  | 0 => return []
  | fuel + 1 => do
      let word ← span fun c => !(endsToken c || c == '\x27' || c == '\x22' || c == '\\')
      let word := Text.ofChars word
      let c ← peek
      if ← isDoubled double c then
        skip 2
        return word ++ .char c :: (← quotedBody double start fuel)
      else if c == (if double then '\x22' else '\x27') then
        skip 1
        return word
      else if c == '\x27' || c == '\x22' || (!double && c == '\\') then
        skip 1
        return word ++ .char c :: (← quotedBody double start fuel)
      else if c == '\\' then
        skip 1
        let escaped ← escape start
        return word ++ escaped ++ (← quotedBody double start fuel)
      else
        let gap ← quotedGap start
        return word ++ Text.ofChars gap ++ (← quotedBody double start fuel)

/-- A quoted scalar. -/
def quoted : Scan Token := do
  let start ← mark
  let double := (← peek) == '\x22'
  skip 1
  let text ← quotedBody double start ((← get).rest.length + 1)
  return ⟨.scalar text false, start, ← mark⟩

/-! ## Block scalars -/

/-- What happens to the line ends at the end of a block scalar. -/
inductive Chomping where
  /-- One stays. -/
  | clip
  /-- None stays. -/
  | strip
  /-- All stay. -/
  | keep
deriving DecidableEq, Repr

/-- The chomping of a sign. -/
def chomping? (c : Char) : Option Chomping :=
  if c == '+' then some .keep else if c == '-' then some .strip else none

/-- A digit of indentation, if one comes next. -/
def indentation (start : Mark) : Scan (Option Nat) := do
  let c ← peek
  if !c.isDigit then return none
  if c == '0' then fail (some .blockScalar) start .zeroIndentation
  skip 1
  return some (c.toNat - 48)

/-- The chomping and the indentation of a header, in any order. -/
def header (start : Mark) : Scan (Chomping × Option Nat) := do
  let found ←
    match chomping? (← peek) with
    | some chomping => do
        skip 1
        pure (chomping, ← indentation start)
    | none => do
        let indent ← indentation start
        match indent, chomping? (← peek) with
        | some n, some chomping => do
            skip 1
            pure (chomping, some n)
        | indent, _ => pure (.clip, indent)
  let c ← peek
  if !endsWord c then fail (some .blockScalar) start (.notIndicator c)
  return found

/-- The empty lines at the start of a block, the widest of their indentations and
that of the first line with text, and the place behind the last line end. -/
def leadingLines : (fuel : Nat) → (widest : Nat) → (stop : Mark) → Cursor →
    List Char × Nat × Mark × Cursor
  | 0, widest, stop, c => ([], widest, stop, c)
  | fuel + 1, widest, stop, c =>
      if c.peek == ' ' then leadingLines fuel (max widest c.next.mark.column) stop c.next
      else
        match c.lineBreak? with
        | none => ([], widest, stop, c)
        | some (x, c) =>
            let (breaks, widest, stop, c) := leadingLines fuel widest c.mark c
            (x :: breaks, widest, stop, c)

/-- The place behind the blanks up to a column. -/
def skipIndent (indent : Nat) : (fuel : Nat) → Cursor → Cursor
  | 0, c => c
  | fuel + 1, c =>
      if c.mark.column < indent && c.peek == ' ' then skipIndent indent fuel c.next else c

/-- The line ends between two lines of a block, and the place behind the last one. -/
def blockBreaks (indent : Nat) : (fuel : Nat) → (stop : Mark) → Cursor → List Char × Mark × Cursor
  | 0, stop, c => ([], stop, c)
  | fuel + 1, stop, c =>
      let c := skipIndent indent indent c
      match c.lineBreak? with
      | none => ([], stop, c)
      | some (x, c) =>
          let (breaks, stop, c) := blockBreaks indent fuel c.mark c
          (x :: breaks, stop, c)

/-- The lines of a block from the first one with text.  `breaks` are the line ends in
front of it.  The answer is the text up to the end of the last line, the line end
behind it and those that follow. -/
def blockLines (folded : Bool) (indent : Nat) :
    (fuel : Nat) → (breaks : List Char) → (stop : Mark) → Cursor →
      List Char × List Char × List Char × Mark × Cursor
  | 0, breaks, stop, c => ([], [], breaks, stop, c)
  | fuel + 1, breaks, stop, c =>
      if c.mark.column == indent && c.peek != endOfText then
        let startsWithBlank (x : Char) : Bool := x == ' ' || x == '\t'
        let blank := startsWithBlank c.peek
        let (line, c) := c.span fun x => !endsLine x
        let (lineEnd, c) :=
          match c.lineBreak? with
          | some (x, c) => ([x], c)
          | none => ([], c)
        let (next, stop, c) := blockBreaks indent (c.rest.length + 1) c.mark c
        if c.mark.column == indent && c.peek != endOfText then
          let join :=
            if folded && lineEnd == ['\n'] && !blank && !startsWithBlank c.peek then
              if next.isEmpty then [' '] else []
            else lineEnd
          let (text, lineEnd, last, stop, c) := blockLines folded indent fuel next stop c
          (breaks ++ line ++ join ++ text, lineEnd, last, stop, c)
        else (breaks ++ line, lineEnd, next, stop, c)
      else ([], [], breaks, stop, c)

/-- A block scalar under the given indentation of its parent. -/
def block (parent : Int) : Scan Token := do
  let start ← mark
  let folded := (← peek) == '>'
  skip 1
  let (chomping, increment) ← header start
  restOfLine .blockScalar start
  let least := (max (parent + 1) 1).toNat
  let c ← get
  let fuel := c.rest.length + 1
  let (indent, breaks, stop, c) :=
    match increment with
    | none =>
        let (breaks, widest, stop, c) := leadingLines fuel 0 c.mark c
        (max least widest, breaks, stop, c)
    | some n =>
        let indent := least + n - 1
        (indent, blockBreaks indent fuel c.mark c)
  let (text, lineEnd, last, stop, c) := blockLines folded indent fuel breaks stop c
  set c
  let tail :=
    match chomping with
    | .strip => []
    | .clip => lineEnd
    | .keep => lineEnd ++ last
  return ⟨.scalar (Text.ofChars (text ++ tail)) false, start, stop⟩

end Bindery.Yaml.Scan
