import Bindery.Json.Basic

/-!
# Reading JSON

`Json.parse?` reads a text as one JSON value with blanks around it.  A number
with a fraction or an exponent is a binary number and any other an integer.  The
numbers that are not finite have names, as they have in printed JSON.  Of members
with one name the last one counts.  Two units that make up a surrogate pair are
one character, and any other half of a pair stands for itself.

The recursion runs on the length of the text.  Every call that does not return
at once has taken a character, so the length is enough.
-/

namespace Bindery.Json

/-! ## Characters -/

/-- The blanks between tokens. -/
def isSpace (c : Char) : Bool := c == ' ' || c == '\n' || c == '\r' || c == '\t'

/-- A text without the blanks at its front. -/
def skip (cs : List Char) : List Char := cs.dropWhile isSpace

/-- The value of a hexadecimal digit. -/
def hexValue? (c : Char) : Option Nat :=
  if '0' ≤ c && c ≤ '9' then some (c.toNat - 48)
  else if 'a' ≤ c && c ≤ 'f' then some (c.toNat - 87)
  else if 'A' ≤ c && c ≤ 'F' then some (c.toNat - 55)
  else none

/-- The UTF-16 unit of four digits. -/
def unit? (a b c d : Char) : Option Nat := do
  let a ← hexValue? a
  let b ← hexValue? b
  let c ← hexValue? c
  let d ← hexValue? d
  return ((a * 16 + b) * 16 + c) * 16 + d

/-- The character of an escape of one letter. -/
def letterEscape? (c : Char) : Option Char :=
  if c == '\x22' || c == '\\' || c == '/' then some c
  else if c == 'n' then some '\n'
  else if c == 'r' then some '\r'
  else if c == 't' then some '\t'
  else if c == 'b' then some '\x08'
  else if c == 'f' then some '\x0c'
  else none

/-- The unit is the first half of a pair. -/
def isHigh (n : Nat) : Bool := 0xD800 ≤ n && n ≤ 0xDBFF

/-- The unit is the second half of a pair. -/
def isLow (n : Nat) : Bool := 0xDC00 ≤ n && n ≤ 0xDFFF

/-- The character of a pair of units. -/
def pairedUnits (high low : Nat) : Char :=
  Char.ofNat (0x10000 + (high - 0xD800) * 0x400 + (low - 0xDC00))

/-! ## Strings -/

/-- The rest of a string after its quote, and what follows it. -/
def readText : List Char → Option (Text × List Char)
  | [] => none
  | '\x22' :: rest => some ([], rest)
  | '\\' :: 'u' :: a :: b :: c :: d :: rest => do
      let unit ← unit? a b c d
      match rest with
      | '\\' :: 'u' :: e :: f :: g :: h :: after =>
          let low ← unit? e f g h
          if isHigh unit && isLow low then
            let (s, rest) ← readText after
            return (.char (pairedUnits unit low) :: s, rest)
          else
            let (s, rest) ← readText ('\\' :: 'u' :: e :: f :: g :: h :: after)
            return (.ofCode unit :: s, rest)
      | rest =>
          let (s, rest) ← readText rest
          return (.ofCode unit :: s, rest)
  | '\\' :: c :: rest => do
      let c ← letterEscape? c
      let (s, rest) ← readText rest
      return (.char c :: s, rest)
  | c :: rest => do
      let (s, rest) ← readText rest
      return (.char c :: s, rest)

/-! ## Numbers -/

/-- The value of a run of digits. -/
def digitsValue (cs : List Char) : Nat := cs.foldl (fun n c => n * 10 + (c.toNat - 48)) 0

/-- The digits at the front of a text, and what follows them. -/
def spanDigits (cs : List Char) : List Char × List Char :=
  (cs.takeWhile Char.isDigit, cs.dropWhile Char.isDigit)

/-- An exponent, if one stands at the front of a text. -/
def readExponent : List Char → Option (Int × List Char)
  | e :: rest =>
      if e == 'e' || e == 'E' then
        let (negative, rest) :=
          match rest with
          | '-' :: rest => (true, rest)
          | '+' :: rest => (false, rest)
          | rest => (false, rest)
        let (digits, rest) := spanDigits rest
        if digits.isEmpty then none
        else some (Parts.signed negative (digitsValue digits), rest)
      else none
  | [] => none

/-- A number. -/
def readNumber (cs : List Char) : Option (Number × List Char) :=
  let (negative, cs) :=
    match cs with
    | '-' :: rest => (true, rest)
    | rest => (false, rest)
  let (whole, rest) := spanDigits cs
  if whole.isEmpty then none
  else
    let (fraction, rest) :=
      match rest with
      | '.' :: after =>
          let (digits, after) := spanDigits after
          if digits.isEmpty then ([], rest) else (digits, after)
      | rest => ([], rest)
    let value := digitsValue (whole ++ fraction)
    match readExponent rest with
    | some (e, rest) =>
        some (.float (nearestDecimal negative value (e - fraction.length)), rest)
    | none =>
        if fraction.isEmpty then some (.int (Parts.signed negative value), rest)
        else some (.float (nearestDecimal negative value (-fraction.length)), rest)

/-! ## Values -/

/-- What follows a word, if the text starts with it. -/
def afterWord? : (word : List Char) → List Char → Option (List Char)
  | [], cs => some cs
  | w :: ws, c :: cs => if w == c then afterWord? ws cs else none
  | _ :: _, [] => none

/-- An infinity. -/
def infinity (negative : Bool) : Json :=
  .number (.float (if negative then -1.0 / 0.0 else 1.0 / 0.0))

mutual

/-- A value at the front of a text, and what follows it. -/
def readValue : (fuel : Nat) → List Char → Option (Json × List Char)
  | 0, _ => none
  | fuel + 1, cs =>
      match skip cs with
      | [] => none
      | '\x22' :: rest => (readText rest).map fun (s, rest) => (.text s, rest)
      | '[' :: rest =>
          match skip rest with
          | ']' :: rest => some (.list [], rest)
          | rest => (readItems fuel rest).map fun (items, rest) => (.list items, rest)
      | '\x7b' :: rest =>
          match skip rest with
          | '\x7d' :: rest => some (.object [], rest)
          | rest => (readMembers fuel rest).map fun (members, rest) => (.object members, rest)
      | 't' :: rest => (afterWord? "rue".toList rest).map fun rest => (.bool true, rest)
      | 'f' :: rest => (afterWord? "alse".toList rest).map fun rest => (.bool false, rest)
      | 'n' :: rest => (afterWord? "ull".toList rest).map fun rest => (.null, rest)
      | 'N' :: rest =>
          (afterWord? "aN".toList rest).map fun rest => (.number (.float (0.0 / 0.0)), rest)
      | 'I' :: rest => (afterWord? "nfinity".toList rest).map fun rest => (.infinity false, rest)
      | '-' :: 'I' :: rest =>
          (afterWord? "nfinity".toList rest).map fun rest => (.infinity true, rest)
      | rest => (readNumber rest).map fun (n, rest) => (.number n, rest)

/-- The items of an array up to its end. -/
def readItems : (fuel : Nat) → List Char → Option (List Json × List Char)
  | 0, _ => none
  | fuel + 1, cs => do
      let (item, rest) ← readValue fuel cs
      match skip rest with
      | ',' :: rest =>
          let (items, rest) ← readItems fuel rest
          return (item :: items, rest)
      | ']' :: rest => return ([item], rest)
      | _ => none

/-- The members of an object up to its end. -/
def readMembers : (fuel : Nat) → List Char → Option (List (Text × Json) × List Char)
  | 0, _ => none
  | fuel + 1, cs => do
      match skip cs with
      | '\x22' :: rest =>
          let (name, rest) ← readText rest
          match skip rest with
          | ':' :: rest =>
              let (value, rest) ← readValue fuel rest
              match skip rest with
              | ',' :: rest =>
                  let (members, rest) ← readMembers fuel rest
                  return (if (members.lookup name).isSome then members
                    else (name, value) :: members, rest)
              | '\x7d' :: rest => return ([(name, value)], rest)
              | _ => none
          | _ => none
      | _ => none

end

/-- The value of a text. -/
def parse? (s : String) : Option Json := do
  let cs := s.toList
  let (value, rest) ← readValue (cs.length + 1) cs
  if (skip rest).isEmpty then return value else none

end Bindery.Json
