import Bindery.Yaml.Token.Basic

/-!
# Words after a sign

Anchors, aliases, tags and directives are words after the signs `&`, `*`, `!`
and `%`.  Each function here starts at the sign.
-/

namespace Bindery.Yaml.Scan

/-! ## Names and URIs -/

/-- The name of an anchor or an alias, which must not be empty. -/
def anchorName (context : Context) (start : Mark) : Scan String := do
  let name ← span isNameChar
  let c ← peek
  if name.isEmpty then fail context start (.notName c)
  if !(endsToken c || "?:,]\x7d%@\x60".toList.contains c) then fail context start (.notName c)
  return String.ofList name

/-- An anchor or an alias. -/
def reference : Scan Token := do
  let start ← mark
  let isAlias := (← peek) == '*'
  skip 1
  let name ← anchorName (if isAlias then .alias else .anchor) start
  return ⟨if isAlias then .alias name else .anchor name, start, ← mark⟩

/-- A character of a URI that stands for itself. -/
def isUriChar (c : Char) : Bool := c.isAlphanum || "-;/?:@&=+$,_.!~*\x27()[]".toList.contains c

/-- The bytes of a run of escapes. -/
def uriBytes (context : Context) (start : Mark) : (fuel : Nat) → Scan (List UInt8)
  | 0 => return []
  | fuel + 1 => do
      if (← peek) != '%' then return []
      skip 1
      let a ← peek
      if !isHex a then fail context start (.notUriEscape a)
      let b ← ahead 1
      if !isHex b then fail context start (.notUriEscape b)
      skip 2
      return UInt8.ofNat (hexNumber [a, b]) :: (← uriBytes context start fuel)

/-- The characters of a URI.  A run of escapes is UTF-8. -/
def uriChars (escapes : Context) (start : Mark) : (fuel : Nat) → Scan (List Char)
  | 0 => return []
  | fuel + 1 => do
      let plain ← span isUriChar
      if (← peek) != '%' then return plain
      let place ← mark
      let bytes ← uriBytes escapes start (fuel + 1)
      match Text.Utf8.decodeWhole bytes with
      | .error fault => throw (.fault ⟨escapes, start, .uriBytes fault, place⟩)
      | .ok cs => return plain ++ cs ++ (← uriChars escapes start fuel)

/-- A URI, which must not be empty. -/
def uri (context escapes : Context) (start : Mark) : Scan String := do
  let before ← mark
  let cs ← uriChars escapes start ((← get).rest.length + 1)
  if before == (← mark) then fail context start (.notUri (← peek))
  return String.ofList cs

/-- A handle: `!`, or a name between two of them. -/
def handle (context : Context) (start : Mark) : Scan String := do
  let c ← peek
  if c != '!' then fail context start (.notHandle c)
  skip 1
  if (← peek) == ' ' then return "!"
  let name ← span isNameChar
  let c ← peek
  if c != '!' then fail context start (.notHandle c)
  skip 1
  return String.ofList ('!' :: name ++ ['!'])

/-! ## Tags -/

/-- The word after the cursor holds a second exclamation mark. -/
def hasSecondMark : Scan Bool := do
  let following := (← get).rest.drop 1
  let before := following.takeWhile fun x => !(endsWord x || x == '!')
  return (← ahead (before.length + 1)) == '!'

/-- A tag: a URI in angle brackets, the lone `!`, or a handle and a URI. -/
def tag : Scan Token := do
  let start ← mark
  let c ← ahead 1
  let kind ←
    if c == '<' then do
      skip 2
      let suffix ← uri .tagUri .tag start
      let c ← peek
      if c != '>' then fail (some .tagUri) start (.notTagEnd c)
      skip 1
      pure (TokenKind.tag none suffix)
    else if endsToken c then do
      skip 1
      pure (TokenKind.tag none "!")
    else do
      let own ← if ← hasSecondMark then handle .tag start else do skip 1; pure "!"
      pure (TokenKind.tag (some own) (← uri .tagUri .tag start))
  let c ← peek
  if !endsWord c then fail (some .tag) start (.notSpace c)
  return ⟨kind, start, ← mark⟩

/-! ## Directives -/

/-- A number of a version. -/
def versionNumber (start : Mark) : Scan Nat := do
  let digits ← span Char.isDigit
  if digits.isEmpty then fail (some .directive) start (.notDigit (← peek))
  if Number.mostDigits < digits.length then throw (.badValue (.tooManyDigits digits.length))
  return digits.foldl (fun n c => n * 10 + (c.toNat - 48)) 0

/-- The two numbers of a version. -/
def version (start : Mark) : Scan Directive := do
  modify Cursor.skipSpaces
  let major ← versionNumber start
  let c ← peek
  if c != '.' then fail (some .directive) start (.notDigitOrDot c)
  skip 1
  let minor ← versionNumber start
  let c ← peek
  if !endsWord c then fail (some .directive) start (.notDigitOrSpace c)
  return .version major minor

/-- A handle and its meaning. -/
def handleMeaning (start : Mark) : Scan Directive := do
  modify Cursor.skipSpaces
  let own ← handle .directive start
  let c ← peek
  if c != ' ' then fail (some .directive) start (.notSpace c)
  modify Cursor.skipSpaces
  let meaning ← uri .directiveUri .directive start
  let c ← peek
  if !endsWord c then fail (some .directive) start (.notSpace c)
  return .handle own meaning

/-- A directive with the rest of its line. -/
def directive : Scan Token := do
  let start ← mark
  skip 1
  let name ← span isNameChar
  let c ← peek
  if name.isEmpty || !endsWord c then fail (some .directive) start (.notName c)
  let name := String.ofList name
  let d ←
    if name == "YAML" then version start
    else if name == "TAG" then handleMeaning start
    else pure (.other name)
  let stop ← mark
  if name != "YAML" && name != "TAG" then modify (Cursor.skipWhile fun x => !endsLine x)
  restOfLine .directive start
  return ⟨.directive d, start, stop⟩

end Bindery.Yaml.Scan
