import Bindery.Number.Basic
import Bindery.Text.Base64
import Bindery.Text.Utf8
import Bindery.Time
import Bindery.Yaml.Mark

/-!
# Faults of a YAML text

A text is at fault in one of two ways.  A `Fault` has a place: what was being
read and where it started, and what is wrong and where.  A `BadValue` is
well-formed YAML whose value does not exist, like the 13th month.

A `BlockFault` comes up before a block of the text is read.  An unacceptable
character is reported by its index, and bytes that are no text by their
position.

`Fault.message` writes the parts of a fault on lines of their own.  The place
where the reading started is left out if it is the place of the problem.
-/

namespace Bindery.Yaml

/-! ## Causes -/

/-- The kinds of node. -/
inductive Kind where
  /-- A scalar. -/
  | scalar
  /-- A sequence. -/
  | sequence
  /-- A mapping. -/
  | mapping
deriving DecidableEq, Repr

/-- What was being read. -/
inductive Context where
  /-- A key on one line. -/
  | simpleKey
  /-- The start of a token. -/
  | nextToken
  /-- A directive. -/
  | directive
  /-- The URI of a directive. -/
  | directiveUri
  /-- An anchor. -/
  | anchor
  /-- An alias. -/
  | alias
  /-- A tag. -/
  | tag
  /-- The URI of a tag. -/
  | tagUri
  /-- A literal or folded scalar. -/
  | blockScalar
  /-- A scalar in quotes. -/
  | quotedScalar
  /-- A scalar in double quotes. -/
  | doubleQuoted
  /-- The properties of a node. -/
  | properties
  /-- A node where a block may stand. -/
  | blockNode
  /-- A node inside a flow collection. -/
  | flowNode
  /-- A sequence in block style. -/
  | blockSequence
  /-- A mapping in block style. -/
  | blockMapping
  /-- A sequence in flow style. -/
  | flowSequence
  /-- A mapping in flow style. -/
  | flowMapping
  /-- The first node with an anchor that is used again. -/
  | firstAnchor (name : String)
  /-- The only document of a file. -/
  | onlyDocument
  /-- The value of a mapping. -/
  | mappingValue
  /-- The value of an ordered mapping. -/
  | orderedValue
  /-- The value of a list of pairs. -/
  | pairsValue
deriving DecidableEq, Repr

/-- What is wrong. -/
inductive Problem where
  /-- A key has no colon. -/
  | noColon
  /-- A character starts no token. -/
  | noToken (found : Char)
  /-- A sequence entry may not start here. -/
  | sequenceHere
  /-- A key may not start here. -/
  | keyHere
  /-- A value may not start here. -/
  | valueHere
  /-- A name is missing or goes on with a wrong character. -/
  | notName (found : Char)
  /-- A digit or the point of a version is missing. -/
  | notDigitOrDot (found : Char)
  /-- The end of a version is missing. -/
  | notDigitOrSpace (found : Char)
  /-- A digit of a version is missing. -/
  | notDigit (found : Char)
  /-- A blank is missing. -/
  | notSpace (found : Char)
  /-- The line goes on where only a comment may follow. -/
  | notLineEnd (found : Char)
  /-- The end of a tag is missing. -/
  | notTagEnd (found : Char)
  /-- The exclamation mark of a handle is missing. -/
  | notHandle (found : Char)
  /-- A URI is missing. -/
  | notUri (found : Char)
  /-- A digit of an escape in a URI is missing. -/
  | notUriEscape (found : Char)
  /-- The escapes of a URI are no UTF-8. -/
  | uriBytes (fault : Text.Utf8.Fault)
  /-- The indentation of a scalar is given as 0. -/
  | zeroIndentation
  /-- The header of a block scalar goes on with a wrong character. -/
  | notIndicator (found : Char)
  /-- A digit of an escape is missing. -/
  | notHex (width : Nat) (found : Char)
  /-- No escape has this letter. -/
  | unknownEscape (found : Char)
  /-- A quote is not closed. -/
  | unclosedQuote
  /-- A document ends inside quotes. -/
  | separatorInQuotes
  /-- A document has to start. -/
  | notDocument (token : String)
  /-- The version is given twice. -/
  | secondVersion
  /-- The version is not 1. -/
  | wrongVersion
  /-- A handle is given twice. -/
  | secondHandle (handle : String)
  /-- A handle has no meaning. -/
  | unknownHandle (handle : String)
  /-- A node has no content. -/
  | noContent (token : String)
  /-- A block has to end. -/
  | notBlockEnd (token : String)
  /-- A flow collection has to go on or end. -/
  | notFlowEntry (closing : String) (token : String)
  /-- An alias has no anchor. -/
  | unknownAlias (name : String)
  /-- The second use of an anchor. -/
  | secondAnchor
  /-- A second document. -/
  | secondDocument
  /-- The tag asks for a node of another kind. -/
  | wrongKind (expected found : Kind)
  /-- The key of a mapping is a collection. -/
  | collectionKey
  /-- No value has this tag. -/
  | unknownTag (tag : String)
  /-- The value under a merge key is no mapping. -/
  | notMergeable (found : Kind)
  /-- An item under a merge key is no mapping. -/
  | notMergeableItem (found : Kind)
  /-- An ordered mapping is no sequence. -/
  | notOrdered (found : Kind)
  /-- An item of an ordered mapping is no mapping. -/
  | notOrderedItem (found : Kind)
  /-- An item of an ordered mapping has not one entry. -/
  | notOneEntry (count : Nat)
  /-- A binary value is no base 64. -/
  | base64 (fault : Text.Base64.Fault)
deriving DecidableEq, Repr

/-- A fault with its place. -/
structure Fault where
  /-- What was being read, if that helps. -/
  context : Option Context := none
  /-- Where it started. -/
  start : Option Mark := none
  /-- What is wrong. -/
  problem : Problem
  /-- Where it is wrong. -/
  mark : Mark
deriving DecidableEq, Repr

/-- A well-formed scalar without a value. -/
inductive BadValue where
  /-- A number without digits. -/
  | emptyNumber
  /-- The text is no integer. -/
  | notInt (base : Nat) (text : Text)
  /-- The text is no number. -/
  | notFloat (text : Text)
  /-- The text is no truth value. -/
  | notBool (text : Text)
  /-- The text is no time. -/
  | notTime
  /-- A time is written as a mapping. -/
  | timeInMapping
  /-- A scalar is its own default value. -/
  | ownDefault
  /-- The time is not in the calendar. -/
  | calendar (fault : CalendarFault)
  /-- The integer has more digits than are read. -/
  | tooManyDigits (digits : Nat)
  /-- A binary number meets an integer it cannot be multiplied by. -/
  | arithmetic (fault : Number.Fault)
  /-- The escape is beyond the last character. -/
  | beyondUnicode
  /-- The escape is beyond 31 bits. -/
  | beyondWord
deriving DecidableEq, Repr

/-- Why a text has no value. -/
inductive Error where
  /-- The text is not well-formed. -/
  | fault (f : Fault)
  /-- A scalar has no value. -/
  | badValue (v : BadValue)
deriving DecidableEq, Repr

/-- Why a block of a text cannot be taken. -/
inductive BlockFault where
  /-- A character may not stand in a text. -/
  | unacceptable (found : Char) (index : Nat)
  /-- Bytes are no text. -/
  | undecodable (fault : Text.Utf8.Fault)
deriving DecidableEq, Repr

/-! ## Words -/

/-- The name of a kind of node. -/
def Kind.name : Kind → String
  | .scalar => "scalar"
  | .sequence => "sequence"
  | .mapping => "mapping"

/-- A character in quotes. -/
def quotedChar (c : Char) : String := Text.quoted (String.ofList [c])

/-- The words for what was being read. -/
def Context.message : Context → String
  | .simpleKey => "while scanning a simple key"
  | .nextToken => "while scanning for the next token"
  | .directive => "while scanning a directive"
  | .directiveUri => "while parsing a directive"
  | .anchor => "while scanning an anchor"
  | .alias => "while scanning an alias"
  | .tag => "while scanning a tag"
  | .tagUri => "while parsing a tag"
  | .blockScalar => "while scanning a block scalar"
  | .quotedScalar => "while scanning a quoted scalar"
  | .doubleQuoted => "while scanning a double-quoted scalar"
  | .properties => "while parsing a node"
  | .blockNode => "while parsing a block node"
  | .flowNode => "while parsing a flow node"
  | .blockSequence => "while parsing a block collection"
  | .blockMapping => "while parsing a block mapping"
  | .flowSequence => "while parsing a flow sequence"
  | .flowMapping => "while parsing a flow mapping"
  | .firstAnchor name => "found duplicate anchor " ++ Text.quoted name ++ "; first occurrence"
  | .onlyDocument => "expected a single document in the stream"
  | .mappingValue => "while constructing a mapping"
  | .orderedValue => "while constructing an ordered map"
  | .pairsValue => "while constructing pairs"

/-- The words for what is wrong. -/
def Problem.message : Problem → String
  | .noColon => "could not find expected ':'"
  | .noToken c => "found character " ++ quotedChar c ++ " that cannot start any token"
  | .sequenceHere => "sequence entries are not allowed here"
  | .keyHere => "mapping keys are not allowed here"
  | .valueHere => "mapping values are not allowed here"
  | .notName c => "expected alphabetic or numeric character, but found " ++ quotedChar c
  | .notDigitOrDot c => "expected a digit or '.', but found " ++ quotedChar c
  | .notDigitOrSpace c => "expected a digit or ' ', but found " ++ quotedChar c
  | .notDigit c => "expected a digit, but found " ++ quotedChar c
  | .notSpace c => "expected ' ', but found " ++ quotedChar c
  | .notLineEnd c => "expected a comment or a line break, but found " ++ quotedChar c
  | .notTagEnd c => "expected '>', but found " ++ quotedChar c
  | .notHandle c => "expected '!', but found " ++ quotedChar c
  | .notUri c => "expected URI, but found " ++ quotedChar c
  | .notUriEscape c =>
      "expected URI escape sequence of 2 hexadecimal numbers, but found " ++ quotedChar c
  | .uriBytes fault => fault.message
  | .zeroIndentation => "expected indentation indicator in the range 1-9, but found 0"
  | .notIndicator c => "expected chomping or indentation indicators, but found " ++ quotedChar c
  | .notHex width c =>
      "expected escape sequence of " ++ toString width ++ " hexadecimal numbers, but found " ++
        quotedChar c
  | .unknownEscape c => "found unknown escape character " ++ quotedChar c
  | .unclosedQuote => "found unexpected end of stream"
  | .separatorInQuotes => "found unexpected document separator"
  | .notDocument token => "expected '<document start>', but found " ++ Text.quoted token
  | .secondVersion => "found duplicate YAML directive"
  | .wrongVersion => "found incompatible YAML document (version 1.* is required)"
  | .secondHandle handle => "duplicate tag handle " ++ Text.quoted handle
  | .unknownHandle handle => "found undefined tag handle " ++ Text.quoted handle
  | .noContent token => "expected the node content, but found " ++ Text.quoted token
  | .notBlockEnd token => "expected <block end>, but found " ++ Text.quoted token
  | .notFlowEntry closing token =>
      "expected ',' or '" ++ closing ++ "', but got " ++ Text.quoted token
  | .unknownAlias name => "found undefined alias " ++ Text.quoted name
  | .secondAnchor => "second occurrence"
  | .secondDocument => "but found another document"
  | .wrongKind expected found =>
      "expected a " ++ expected.name ++ " node, but found " ++ found.name
  | .collectionKey => "found unhashable key"
  | .unknownTag tag => "could not determine a constructor for the tag " ++ Text.quoted tag
  | .notMergeable found =>
      "expected a mapping or list of mappings for merging, but found " ++ found.name
  | .notMergeableItem found => "expected a mapping for merging, but found " ++ found.name
  | .notOrdered found => "expected a sequence, but found " ++ found.name
  | .notOrderedItem found => "expected a mapping of length 1, but found " ++ found.name
  | .notOneEntry count => "expected a single mapping item, but found " ++ toString count ++ " items"
  | .base64 fault => fault.message

/-- Two marks are the same for a reader. -/
def Mark.samePlace (a b : Mark) : Bool := a.line == b.line && a.column == b.column

/-- The lines of the report of a fault in a named file. -/
def Fault.lines (source : Text) (f : Fault) : List Text :=
  (f.context.map fun context => (context.message : Text)).toList ++
    ((f.start.filter fun m => !m.samePlace f.mark).map (Mark.describe source)).toList ++
    [(f.problem.message : Text), f.mark.describe source]

/-- The report of a fault in a named file. -/
def Fault.message (source : Text) (f : Fault) : Text := List.intercalate "\n" (f.lines source)

/-- The report of a character that may not stand in a text. -/
def unacceptableMessage (source : Text) (found : Char) (index : Nat) : Text :=
  let digits := Nat.toDigits 16 found.toNat
  let code := String.ofList (List.replicate (4 - digits.length) '0' ++ digits)
  let problem := "unacceptable character #x" ++ code ++ ": special characters are not allowed"
  let place := "\", position " ++ toString index
  (problem ++ "\n  in \"" : String) ++ source ++ place

/-- The most characters of a text that is no integer that are shown, quotes included. -/
def shownOfInt : Nat := 200

/-- The words for a scalar without a value. -/
def BadValue.message : BadValue → String
  | .emptyNumber => "string index out of range"
  | .notInt base s =>
      "invalid literal for int() with base " ++ toString base ++ ": " ++
        String.ofList ((Text.quoted s).toList.take shownOfInt)
  | .notFloat s => "could not convert string to float: " ++ Text.quoted s
  | .notBool s => Text.quoted s
  | .notTime => "'NoneType' object has no attribute 'groupdict'"
  | .timeInMapping => "expected string or bytes-like object, got 'list'"
  | .ownDefault => "maximum recursion depth exceeded"
  | .calendar fault => fault.message
  | .tooManyDigits digits => Number.lengthMessage digits
  | .arithmetic fault => fault.message
  | .beyondUnicode => "chr() arg not in range(0x110000)"
  | .beyondWord => "Python int too large to convert to C int"

end Bindery.Yaml
