import Bindery.Config.Basic

/-!
# Rules for values

Each key of the configuration has a `Rule` for its values.  A rule first asks
for the kind of the value and then for what it holds, and a value is reported
for the first of the two that fails.

A number with a point is a whole number if its fraction is zero, and a truth
value is no number.  A text is matched by the characters of its pattern.  A
pattern that asks for the end of the text lets one newline follow.
-/

namespace Bindery

/-- The patterns of texts. -/
inductive Pattern where
  /-- A scheme, a colon, two slashes, and then no third one. -/
  | address
  /-- Letters, digits, points, underscores and hyphens of ASCII. -/
  | segment
deriving DecidableEq, Repr

/-- What a value has to be. -/
inductive Rule where
  /-- A text with at least one character. -/
  | nonEmpty
  /-- A text that matches a pattern. -/
  | matching (p : Pattern)
  /-- A whole number that is not below 0. -/
  | natural
deriving DecidableEq, Repr

/-- The kinds of value a rule may ask for. -/
inductive Rule.Kind where
  /-- A text. -/
  | text
  /-- A whole number. -/
  | whole
  /-- A mapping. -/
  | mapping
deriving DecidableEq, Repr

/-- What is wrong with a value. -/
inductive Rule.Problem where
  /-- The value is of another kind. -/
  | wrongKind (v : Value) (expected : Kind)
  /-- The text is empty. -/
  | empty
  /-- The text does not match. -/
  | mismatch (s : Text) (p : Pattern)
  /-- The number is below 0. -/
  | negative (n : Number)
  /-- The mapping has keys that are none of the configuration. -/
  | unexpected (keys : List Value)
deriving Repr

/-! ## Patterns -/

namespace Pattern

/-- A pattern as it is written. -/
def text : Pattern → String
  | address => "^[a-z][a-z0-9+.-]*://[^/]+"
  | segment => "^[A-Za-z0-9._-]+$"

/-- The character may stand in a scheme behind its first letter. -/
def isSchemeChar (c : Char) : Bool :=
  c.isLower || c.isDigit || c == '+' || c == '.' || c == '-'

/-- The character may stand in a segment. -/
def isSegmentChar (c : Char) : Bool := c.isAlphanum || c == '.' || c == '_' || c == '-'

/-- The characters start with two slashes and a character that is no slash. -/
def isAuthority : List Char → Bool
  | ':' :: '/' :: '/' :: c :: _ => c != '/'
  | _ => false

/-- Characters without one newline at their end. -/
def withoutNewline (cs : List Char) : List Char :=
  if cs.getLast? = some '\n' then cs.dropLast else cs

/-- The text matches the pattern. -/
def accepts (p : Pattern) (s : Text) : Bool :=
  match p, s.chars with
  | address, [] => false
  | address, c :: cs => c.isLower && isAuthority (cs.dropWhile isSchemeChar)
  | segment, cs =>
      let body := withoutNewline cs
      !body.isEmpty && body.all isSegmentChar

end Pattern

/-! ## Checking a value -/

namespace Rule

/-- The kind of value that a rule asks for. -/
def kind : Rule → Kind
  | natural => .whole
  | _ => .text

/-- What is wrong with a value, if anything is. -/
def problem? (r : Rule) (v : Value) : Option Problem :=
  match r, v with
  | nonEmpty, .text s => if s.isEmpty then some .empty else none
  | matching p, .text s => if p.accepts s then none else some (.mismatch s p)
  | natural, .number n =>
      if !n.isWhole then some (.wrongKind v .whole)
      else if n.isNegative then some (.negative n)
      else none
  | r, v => some (.wrongKind v r.kind)

end Rule

/-- The rule for the values of a key. -/
def Key.rule : Key → Rule
  | bucket => .matching .address
  | product => .matching .segment
  | timeoutSeconds => .natural
  | _ => .nonEmpty

theorem Key.fits_of_rule {k : Key} {v : Value} (h : k.rule.problem? v = none) :
    Config.fits k v = true := by
  cases k <;> cases v <;> first | rfl | simp [Key.rule, Rule.problem?] at h

/-! ## Words -/

/-- The name of a kind. -/
def Rule.Kind.name : Rule.Kind → String
  | text => "string"
  | whole => "integer"
  | mapping => "object"

/-- The words for what is wrong. -/
def Rule.Problem.message : Rule.Problem → String
  | wrongKind v expected => v.literal ++ " is not of type " ++ Text.quoted expected.name
  | empty => "'' should be non-empty"
  | mismatch s p => Text.quoted s ++ " does not match " ++ Text.quoted p.text
  | negative n => n.text ++ " is less than the minimum of 0"
  | unexpected keys =>
      "Additional properties are not allowed (" ++
        ", ".intercalate ((Text.sortOn Value.plain keys).map Value.literal) ++
        (if keys.length = 1 then " was" else " were") ++ " unexpected)"

/-- The words for what is wrong can be written: they show no integer that is too long. -/
def Rule.Problem.isWritable : Rule.Problem → Bool
  | wrongKind v _ => v.isWritable
  | empty => true
  | mismatch _ _ => true
  | negative n => n.isWritable
  | unexpected keys => Value.areWritable keys

/-! ## Tests -/

example : Pattern.address.accepts "gs://docs.itch.ovh" = true := by decide +kernel
example : (["GS://b", "gs:/b", "gs:///b", "://b", "g:s://b", "gs://"].map fun s : String =>
    Pattern.address.accepts s) = [false, false, false, false, false, false] := by decide +kernel
example : (["a.B_9-", "a\n", "", "\n", "a\n\n", "a/b", "é"].map fun s : String =>
    Pattern.segment.accepts s) = [true, true, false, false, false, false, false] := by
  decide +kernel

end Bindery
