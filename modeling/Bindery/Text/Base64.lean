import Bindery.Text.Encoding

/-!
# Base 64

Binary values of a configuration file are written in base 64.  Characters
outside the alphabet are skipped.  Each four digits are three bytes, and a
group of two or three digits is filled up with `=`.  The reading ends at the
`=` that fills the last group.
-/

namespace Bindery.Text.Base64

/-- Why a text is no base 64. -/
inductive Fault where
  /-- A single digit is left over.  The count is that of all digits. -/
  | oneTooMany (digits : Nat)
  /-- The last group is not filled up. -/
  | padding
  /-- Characters from one position up to another are not ASCII. -/
  | notAscii (first : CodePoint) (start stop : Nat)
deriving DecidableEq, Repr

/-- The value of a digit. -/
def digit? (c : Char) : Option Nat :=
  if 'A' ≤ c && c ≤ 'Z' then some (c.toNat - 65)
  else if 'a' ≤ c && c ≤ 'z' then some (c.toNat - 71)
  else if '0' ≤ c && c ≤ '9' then some (c.toNat + 4)
  else if c == '+' then some 62
  else if c == '/' then some 63
  else none

/-- How far the group at hand is read: the number of its digits, the bits that are
not yet in a byte, and the number of `=` since the last digit. -/
structure Group where
  /-- The number of digits. -/
  digits : Nat := 0
  /-- The bits left over. -/
  bits : Nat := 0
  /-- The number of `=`. -/
  pads : Nat := 0
deriving DecidableEq, Repr

/-- The bytes of a text behind a part that has given `count` bytes. -/
def read (group : Group) (count : Nat) : List Char → Except Fault (List UInt8)
  | [] =>
      if group.digits == 0 then .ok []
      else if group.digits == 1 then .error (.oneTooMany (count / 3 * 4 + 1))
      else .error .padding
  | c :: cs =>
      if c == '=' then
        if 2 ≤ group.digits && 4 ≤ group.digits + group.pads + 1 then .ok []
        else
          let pads := if 2 ≤ group.digits then group.pads + 1 else group.pads
          read { group with pads } count cs
      else
        match digit? c with
        | none => read group count cs
        | some d =>
            let byte (b : Nat) (next : Group) : Except Fault (List UInt8) :=
              (read next (count + 1) cs).map (UInt8.ofNat b :: ·)
            match group.digits with
            | 0 => read { digits := 1, bits := d } count cs
            | 1 => byte (group.bits * 4 + d / 16) { digits := 2, bits := d % 16 }
            | 2 => byte (group.bits * 16 + d / 4) { digits := 3, bits := d % 4 }
            | _ => byte (group.bits * 64 + d) {}

/-- The code point is ASCII. -/
def isAscii (x : CodePoint) : Bool := x.code < 0x80

/-- The bytes of a text. -/
def decode (s : Text) : Except Fault (List UInt8) :=
  match s.dropWhile isAscii with
  | [] => read {} 0 (s.filterMap CodePoint.char?)
  | x :: rest =>
      let start := (s.takeWhile isAscii).length
      .error (.notAscii x start (start + 1 + (rest.takeWhile fun y => !isAscii y).length))

/-- The words for a fault. -/
def Fault.message : Fault → String
  | .oneTooMany digits =>
      "failed to decode base64 data: Invalid base64-encoded string: number of data characters (" ++
        toString digits ++ ") cannot be 1 more than a multiple of 4"
  | .padding => "failed to decode base64 data: Incorrect padding"
  | .notAscii first start stop =>
      "failed to convert base64 data into ascii: 'ascii' codec can't encode " ++
        lackWords first start stop ++ ": ordinal not in range(128)"

/-! ## Tests -/

example : (decode "aGk=").toOption = some [0x68, 0x69] := by decide
example : (decode "a GV\n5").toOption = some [0x68, 0x65, 0x79] := by decide

end Bindery.Text.Base64
