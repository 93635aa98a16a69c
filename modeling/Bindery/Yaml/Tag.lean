import Bindery.Number.Basic
import Bindery.Yaml.Fault

/-!
# Tags of scalars

The tag of a node says how its value is built.  A plain scalar without a tag
gets one from its form, by the rules of version 1.1 of the language: `yes` is a
truth value, `017` and `4:30` are integers, `1.0e+3` is a number, `1e3` is a
text, and `2001-12-14` is a day.

The forms are tried in a fixed order, and only those that may begin with the
first character of the scalar.  Each form is a function on the characters.  It
also accepts one newline at the end.  A scalar with a half of a surrogate pair has
no form.
-/

namespace Bindery.Yaml

/-- The tags that have a meaning, and the others by name. -/
inductive Tag where
  /-- Nothing. -/
  | null
  /-- A truth value. -/
  | bool
  /-- An integer. -/
  | int
  /-- A number. -/
  | float
  /-- A byte string. -/
  | binary
  /-- A day or a time. -/
  | timestamp
  /-- An ordered mapping. -/
  | omap
  /-- A list of pairs. -/
  | pairs
  /-- A set. -/
  | set
  /-- A text. -/
  | str
  /-- A list. -/
  | seq
  /-- A mapping. -/
  | map
  /-- The key that merges mappings. -/
  | merge
  /-- The key of a default value. -/
  | value
  /-- Any other tag. -/
  | other (name : String)
deriving DecidableEq, Repr, Inhabited

namespace Tag

/-- What the names of the tags of the language start with. -/
def common : String := "tag:yaml.org,2002:"

/-- The tags of the language with the last parts of their names. -/
def named : List (String × Tag) :=
  [("null", .null), ("bool", .bool), ("int", .int), ("float", .float), ("binary", .binary),
    ("timestamp", .timestamp), ("omap", .omap), ("pairs", .pairs), ("set", .set), ("str", .str),
    ("seq", .seq), ("map", .map), ("merge", .merge), ("value", .value)]

/-- The tag with a name. -/
def ofName (name : String) : Tag :=
  match named.find? fun entry => common ++ entry.1 == name with
  | some entry => entry.2
  | none => .other name

/-- The name of a tag. -/
def name : Tag → String
  | .other name => name
  | tag =>
      match named.find? fun entry => entry.2 == tag with
      | some entry => common ++ entry.1
      | none => common

end Tag

/-! ## Forms of scalars -/

/-- A digit of the given base, or an underscore. -/
def isDigitOrGap (p : Char → Bool) (c : Char) : Bool := p c || c == '_'

/-- The characters without a sign at their front. -/
def dropSign : List Char → List Char
  | '-' :: cs => cs
  | '+' :: cs => cs
  | cs => cs

/-- The characters without one newline at their end. -/
def dropNewline (cs : List Char) : List Char :=
  if cs.getLast? == some '\n' then cs.dropLast else cs

/-- The characters are some of a class. -/
def isSome (p : Char → Bool) (cs : List Char) : Bool := !cs.isEmpty && cs.all p

/-- Groups of one or two digits below 60, each after a colon, and then a rest. -/
def isSixties (rest : List Char → Bool) : List Char → Bool
  | ':' :: a :: b :: cs =>
      (a.isDigit && (rest (b :: cs) || isSixties rest (b :: cs))) ||
        ('0' ≤ a && a ≤ '5' && b.isDigit && (rest cs || isSixties rest cs))
  | [':', a] => a.isDigit && rest []
  | _ => false

/-- The form of an integer: binary, octal, decimal, hexadecimal or to the base 60. -/
def isIntForm (cs : List Char) : Bool :=
  match dropSign cs with
  | '0' :: 'b' :: cs => isSome (isDigitOrGap fun c => c == '0' || c == '1') cs
  | '0' :: 'x' :: cs => isSome (isDigitOrGap isHex) cs
  | '0' :: cs => cs.all (isDigitOrGap fun c => '0' ≤ c && c ≤ '7')
  | c :: cs =>
      c.isDigit &&
        (let rest := cs.dropWhile (isDigitOrGap Char.isDigit)
        rest.isEmpty || isSixties List.isEmpty rest)
  | [] => false

/-- The end of a number: nothing, or an exponent with its sign. -/
def isExponent : List Char → Bool
  | [] => true
  | e :: sign :: digits =>
      (e == 'e' || e == 'E') && (sign == '-' || sign == '+') && isSome Char.isDigit digits
  | _ => false

/-- The digits behind a point, and an exponent if it is allowed. -/
def isFraction (exponent : Bool) (cs : List Char) : Bool :=
  let rest := cs.dropWhile (isDigitOrGap Char.isDigit)
  if exponent then isExponent rest else rest.isEmpty

/-- A point with its fraction and no exponent. -/
def isPlainFraction : List Char → Bool
  | '.' :: cs => isFraction false cs
  | _ => false

/-- The form of a number with a point, an infinity, or what is no number. -/
def isFloatForm (cs : List Char) : Bool :=
  match cs with
  | '.' :: c :: rest =>
      (c.isDigit && isFraction true rest) ||
        ["inf", "Inf", "INF", "nan", "NaN", "NAN"].contains (String.ofList (c :: rest))
  | cs =>
      match dropSign cs with
      | '.' :: rest => ["inf", "Inf", "INF"].contains (String.ofList rest)
      | c :: rest =>
          c.isDigit &&
            (match rest.dropWhile (isDigitOrGap Char.isDigit) with
            | '.' :: rest => isFraction true rest
            | rest => isSixties isPlainFraction rest)
      | [] => false

/-- The words for truth values. -/
def isBoolForm (cs : List Char) : Bool :=
  ["yes", "Yes", "YES", "no", "No", "NO", "true", "True", "TRUE", "false", "False", "FALSE", "on",
    "On", "ON", "off", "Off", "OFF"].contains (String.ofList cs)

/-- The words for nothing. -/
def isNullForm (cs : List Char) : Bool :=
  ["", "~", "null", "Null", "NULL"].contains (String.ofList cs)

/-! ## Days and times -/

/-- The parts of a time as they are written. -/
structure WrittenTime where
  /-- The hour. -/
  hour : Nat
  /-- The minute. -/
  minute : Nat
  /-- The second. -/
  second : Nat
  /-- The digits of the fraction. -/
  fraction : List Char
  /-- The minutes by which the zone is ahead, if there is a zone. -/
  zone : Option Int
deriving DecidableEq, Repr

/-- The parts of a day as they are written. -/
structure WrittenDay where
  /-- The year. -/
  year : Nat
  /-- The month. -/
  month : Nat
  /-- The day. -/
  day : Nat
  /-- Month and day have two digits each. -/
  full : Bool
deriving DecidableEq, Repr

/-- The value of digits. -/
def digitsValue (cs : List Char) : Nat := cs.foldl (fun n c => n * 10 + (c.toNat - 48)) 0

/-- At least and at most so many digits, as many as there are, and what follows. -/
def readDigits? (least most : Nat) (cs : List Char) : Option (List Char × List Char) :=
  let digits := (cs.take most).takeWhile Char.isDigit
  if digits.length < least then none else some (digits, cs.drop digits.length)

/-- What follows a character. -/
def afterChar? (c : Char) : List Char → Option (List Char)
  | x :: cs => if x == c then some cs else none
  | [] => none

/-- A blank or a tab. -/
def isBlankChar (c : Char) : Bool := c == ' ' || c == '\t'

/-- A zone at the end of a time. -/
def readZone? (cs : List Char) : Option (Option Int) :=
  match cs.dropWhile isBlankChar with
  | [] => if cs.isEmpty then some none else none
  | ['Z'] => some (some 0)
  | sign :: rest =>
      if sign == '-' || sign == '+' then do
        let (hour, rest) ← readDigits? 1 2 rest
        let minute ←
          if rest.isEmpty then some []
          else do
            let (minute, rest) ← readDigits? 2 2 (← afterChar? ':' rest)
            if rest.isEmpty then some minute else none
        let minutes : Int := digitsValue hour * 60 + digitsValue minute
        return some (if sign == '-' then -minutes else minutes)
      else none

/-- The time behind a day. -/
def readTime? (cs : List Char) : Option WrittenTime := do
  let rest ←
    match cs with
    | c :: rest =>
        if c == 'T' || c == 't' then some rest
        else if isBlankChar c then some (rest.dropWhile isBlankChar)
        else none
    | [] => none
  let (hour, rest) ← readDigits? 1 2 rest
  let (minute, rest) ← readDigits? 2 2 (← afterChar? ':' rest)
  let (second, rest) ← readDigits? 2 2 (← afterChar? ':' rest)
  let (fraction, rest) :=
    match rest with
    | '.' :: rest => (rest.takeWhile Char.isDigit, rest.dropWhile Char.isDigit)
    | rest => ([], rest)
  let zone ← readZone? rest
  return ⟨digitsValue hour, digitsValue minute, digitsValue second, fraction, zone⟩

/-- A day, and the time behind it if there is one. -/
def readStamp? (cs : List Char) : Option (WrittenDay × Option WrittenTime) := do
  let (year, rest) ← readDigits? 4 4 cs
  let (month, rest) ← readDigits? 1 2 (← afterChar? '-' rest)
  let (day, rest) ← readDigits? 1 2 (← afterChar? '-' rest)
  let written : WrittenDay :=
    ⟨digitsValue year, digitsValue month, digitsValue day, month.length == 2 && day.length == 2⟩
  if rest.isEmpty then return (written, none)
  else return (written, some (← readTime? rest))

/-- The form of a day or a time.  A day alone has two digits for month and day. -/
def isStampForm (cs : List Char) : Bool :=
  match readStamp? cs with
  | some (day, time) => day.full || time.isSome
  | none => false

/-! ## The tag of a form -/

/-- The forms in the order they are tried, each with the characters it may begin
with.  The empty scalar has no first character. -/
def forms : List (String × (List Char → Bool) × Tag) :=
  [("yYnNtTfFoO", isBoolForm, .bool),
    ("-+0123456789.", isFloatForm, .float),
    ("-+0123456789", isIntForm, .int),
    ("<", fun cs => cs == ['<', '<'], .merge),
    ("~nN", isNullForm, .null),
    ("0123456789", isStampForm, .timestamp),
    ("=", fun cs => cs == ['='], .value),
    ("!&*", fun cs => cs.length == 1, .other (Tag.common ++ "yaml"))]

/-- The tag that the form of a scalar gives. -/
def Tag.ofForm (s : Text) : Tag :=
  match s.chars? with
  | none => .str
  | some [] => .null
  | some (c :: cs) =>
      let fits (p : List Char → Bool) : Bool := p (c :: cs) || p (dropNewline (c :: cs))
      match forms.find? fun form => form.1.toList.contains c && fits form.2.1 with
      | some form => form.2.2
      | none => .str

/-! ## Tests -/

example : (["yes", "017", "08", "4:30", "1e3", "1.0e+3", ".5", "-.inf", "<<", "=", "", "1_0",
      "2001-12-14", "2001-1-4", "2001-1-4 1:00:00 +1"].map fun s : String => Tag.ofForm s) =
    [.bool, .int, .str, .int, .str, .float, .float, .float, .merge, .value, .null, .int,
      .timestamp, .str, .timestamp] := by decide +kernel

end Bindery.Yaml
