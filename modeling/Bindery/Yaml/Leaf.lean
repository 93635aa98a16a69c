import Bindery.Text.Blank
import Bindery.Text.Digit
import Bindery.Text.Lowercase
import Bindery.Value.Basic
import Bindery.Yaml.Tag

/-!
# The values of scalars

`leaf?` builds the value of a scalar under a tag.  A text whose form gave the
tag has a value but for times that are not in the calendar, and for numbers that
are too large.  A tag that is written out may meet any text, and then the text
may have no value.

Numbers are read more freely than their forms ask for.  Underscores are left
out, blanks around them are skipped, digits may be of any script, and a number
may have a second sign.  A half of a surrogate pair is none of these.
-/

namespace Bindery.Yaml

/-! ## Blanks and digits -/

/-- A blank that may stand around a number: the white space of ASCII without the
information separators, and all white space beyond ASCII. -/
def isNumberBlank (c : Char) : Bool :=
  c == ' ' || (0x09 ≤ c.toNat && c.toNat ≤ 0x0D) || (0x80 ≤ c.toNat && Text.isBlank c)

/-- The characters of a number without the blanks around it, with the digits of all
scripts as those of ASCII. -/
def numberChars (s : Text) : List Char :=
  (Text.trimBoth isNumberBlank s.chars).map Text.plainDigit

/-! ## Integers -/

/-- The value of a digit to some base up to 16. -/
def digitIn? (base : Nat) (c : Char) : Option Nat :=
  if isHex c && hexValue c < base then some (hexValue c) else none

/-- The value of digits, of which there must be some. -/
def digitsIn? (base : Nat) (cs : List Char) : Option Nat :=
  if cs.isEmpty then none
  else cs.foldl (fun n c => do return (← n) * base + (← digitIn? base c)) (some 0)

/-- The letter that may stand behind a leading zero to show a base. -/
def baseLetter (base : Nat) : List Char :=
  match base with
  | 2 => ['b', 'B']
  | 8 => ['o', 'O']
  | 16 => ['x', 'X']
  | _ => []

/-- The sign of a number, and what follows it. -/
def splitSign : List Char → Bool × List Char
  | '-' :: cs => (true, cs)
  | '+' :: cs => (false, cs)
  | cs => (false, cs)

/-- An integer to a base.  Only a decimal may have too many digits, and they are
counted up to the first character that is none. -/
def readInt (base : Nat) (s : Text) : Except Error Int :=
  let (negative, digits) := splitSign (numberChars s)
  let digits :=
    match digits with
    | '0' :: letter :: rest => if (baseLetter base).contains letter then rest else digits
    | digits => digits
  let count := (digits.takeWhile Char.isDigit).length
  if base == 10 && Number.mostDigits < count then .error (.badValue (.tooManyDigits count))
  else
    match digitsIn? base digits with
    | none => .error (.badValue (.notInt base s))
    | some n => .ok (Parts.signed negative n)

/-- The parts of a text between colons. -/
def colonParts : Text → List Text
  | [] => [[]]
  | x :: xs =>
      match colonParts xs with
      | [] => [[]]
      | part :: parts => if x == ':' then [] :: part :: parts else (x :: part) :: parts

/-- The sign of a scalar, and what follows it. -/
def scalarSign (s : Text) : Bool × Text :=
  match s with
  | x :: xs => if x == '-' then (true, xs) else if x == '+' then (false, xs) else (false, x :: xs)
  | [] => (false, [])

/-- A text without its underscores. -/
def dropGaps (s : Text) : Text := s.filter fun x => x != .char '_'

/-- A text without its underscores, of which something must be left. -/
def withoutGaps (s : Text) : Except Error Text :=
  match dropGaps s with
  | [] => .error (.badValue .emptyNumber)
  | s => .ok s

/-- The integer of a text. -/
def intOf (s : Text) : Except Error Int := do
  let (negative, digits) := scalarSign (← withoutGaps s)
  let n : Int ←
    match digits with
    | [] => .error (.badValue .emptyNumber)
    | [.char '0'] => .ok 0
    | .char '0' :: .char 'b' :: digits => readInt 2 digits
    | .char '0' :: .char 'x' :: digits => readInt 16 digits
    | .char '0' :: _ => readInt 8 digits
    | digits =>
        if digits.contains ':' then
          ((colonParts digits).mapM (readInt 10)).map fun parts =>
            parts.foldl (fun n part => n * 60 + part) 0
        else readInt 10 digits
  return if negative then -n else n

/-! ## Binary numbers -/

/-- The number of a decimal without a sign. -/
def readDecimal? (negative : Bool) (cs : List Char) : Option Float :=
  let whole := cs.takeWhile Char.isDigit
  let rest := cs.dropWhile Char.isDigit
  let (fraction, rest) :=
    match rest with
    | '.' :: rest => (rest.takeWhile Char.isDigit, rest.dropWhile Char.isDigit)
    | rest => ([], rest)
  let value := digitsValue (whole ++ fraction)
  if whole.isEmpty && fraction.isEmpty then none
  else
    match rest with
    | [] => some (nearestDecimal negative value (-fraction.length))
    | e :: rest =>
        let (small, digits) := splitSign rest
        if (e == 'e' || e == 'E') && isSome Char.isDigit digits then
          some (nearestDecimal negative value
            (Parts.signed small (digitsValue digits) - fraction.length))
        else none

/-- A number, or a word for one that is not finite. -/
def readFloat (s : Text) : Except Error Float :=
  let (negative, digits) := splitSign (numberChars s)
  let infinity := nearest negative (Nat.pow 2 1024) 1
  match String.ofList digits with
  | "inf" => .ok infinity
  | "infinity" => .ok infinity
  | "nan" => .ok (0.0 / 0.0)
  | _ =>
      match readDecimal? negative digits with
      | some x => .ok x
      | none => .error (.badValue (.notFloat s))

/-- The sum of numbers, each counting sixty times the one behind it. -/
def sumSixties : (weight : Nat) → List Float → Float → Except Number.Fault Float
  | _, [], sum => .ok sum
  | weight, x :: xs, sum => do
      let factor ← (Number.int weight).toFloat
      sumSixties (weight * 60) xs (sum + x * factor)

/-- The text is the word for what is not a number. -/
def isNanWord (s : Text) : Bool := (scalarSign (Text.lower (dropGaps s))).2 == ".nan"

/-- The binary number of a text. -/
def floatOf (s : Text) : Except Error Float := do
  let (negative, digits) := scalarSign (Text.lower (← withoutGaps s))
  let x : Float ←
    if digits == ".inf" then .ok (nearest false (Nat.pow 2 1024) 1)
    else if digits == ".nan" then .ok (0.0 / 0.0)
    else if digits.contains ':' then do
      let parts ← (colonParts digits).mapM readFloat
      (sumSixties 1 parts.reverse 0.0).mapError fun fault => .badValue (.arithmetic fault)
    else readFloat digits
  return if negative then -x else x

/-! ## Other scalars -/

/-- The truth value of a text. -/
def boolOf (s : Text) : Except Error Bool :=
  let word := Text.lower s
  if word == "yes" || word == "true" || word == "on" then .ok true
  else if word == "no" || word == "false" || word == "off" then .ok false
  else .error (.badValue (.notBool word))

/-- The millionths of a second of a fraction. -/
def microsOf (fraction : List Char) : Nat :=
  digitsValue ((fraction ++ List.replicate 6 '0').take 6)

/-- The day or the time of a text. -/
def stampOf (s : Text) : Except Error Value :=
  let inCalendar {α : Type} (x : Except CalendarFault α) : Except Error α :=
    x.mapError fun fault => .badValue (.calendar fault)
  let cs := s.chars
  match (readStamp? cs).orElse fun _ => readStamp? (dropNewline cs) with
  | none => .error (.badValue .notTime)
  | some (d, none) => (inCalendar (Date.ofParts d.year d.month d.day)).map .date
  | some (d, some t) =>
      (inCalendar (Timestamp.ofParts d.year d.month d.day t.hour t.minute t.second
        (microsOf t.fraction) t.zone)).map .time

/-- The value of a scalar at a place under a tag, if the tag is one for scalars. -/
def leaf? (tag : Tag) (start : Mark) (s : Text) : Option (Except Error Value) :=
  match tag with
  | .null => some (.ok .null)
  | .bool => some ((boolOf s).map .bool)
  | .int => some ((intOf s).map fun n => .number (.int n))
  | .float => some ((floatOf s).map fun x => .number (.float x))
  | .binary =>
      some (match Text.Base64.decode s with
        | .ok bytes => .ok (.bytes bytes)
        | .error fault => .error (.fault ⟨none, none, .base64 fault, start⟩))
  | .timestamp => some (stampOf s)
  | .str => some (.ok (.text s))
  | _ => none

end Bindery.Yaml
