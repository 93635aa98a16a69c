import Bindery.Number.Nearest
import Bindery.Number.Shortest

/-!
# Numbers

A number of a configuration file or a message is an integer of any size or a
binary number of 64 bits.  The two kinds stay apart, since they are written
differently, and compare by value.

`durationMillis` is the time between two readings of a clock in whole
milliseconds.  Integers are subtracted exactly and binary numbers with
rounding, which is also where the two ways to fail come from.

`waitFault?` is what keeps the system from waiting for so many seconds.  It counts
them as a binary number, and where it waits for output too, in milliseconds of 32
bits.
-/

namespace Bindery

/-- An integer or a binary number. -/
inductive Number where
  /-- An integer. -/
  | int (n : Int)
  /-- A binary number of 64 bits. -/
  | float (x : Float)
deriving DecidableEq, Repr

namespace Number

/-- The text of a number. -/
def text : Number → String
  | .int n => toString n
  | .float x => (Parts.ofFloat x).render

/-! ## Length -/

/-- The most digits of an integer that is read or written as a decimal. -/
def mostDigits : Nat := 4300

/-- The number is short enough to be written. -/
def isWritable : Number → Bool
  | .int n => n.natAbs < Nat.pow 10 mostDigits
  | .float _ => true

/-- The report of an integer that is too long, with the number of its digits if they
were counted. -/
def lengthMessage (digits : Option Nat) : String :=
  let counted := (digits.map fun n => ": value has " ++ toString n ++ " digits").getD ""
  "Exceeds the limit (" ++ toString mostDigits ++ " digits) for integer string conversion" ++
    counted ++ "; use sys.set_int_max_str_digits() to increase the limit"

/-! ## Order -/

/-- The order of a number and an integer, if they have one. -/
def compareInt? : Number → Int → Option Ordering
  | .int m, n => some (compare m n)
  | .float x, n => (Parts.ofFloat x).compareInt? n

/-- Two numbers have one value. -/
def same : Number → Number → Bool
  | .float x, .float y => x == y
  | a, .int n => a.compareInt? n == some .eq
  | .int n, b => b.compareInt? n == some .eq

/-- The number is below zero. -/
def isNegative (a : Number) : Bool := a.compareInt? 0 == some .lt

/-- The number is above zero. -/
def isPositive (a : Number) : Bool := a.compareInt? 0 == some .gt

/-- The number has no fraction. -/
def isWhole : Number → Bool
  | .int _ => true
  | .float x => (Parts.ofFloat x).isWhole

/-! ## Time -/

/-- Why a duration is no integer. -/
inductive Fault where
  /-- An integer beyond the binary numbers meets a binary number. -/
  | tooLarge
  /-- The duration is infinite. -/
  | infinite
  /-- The duration is not a number. -/
  | notANumber
  /-- The nanoseconds of a duration do not fit into 64 bits. -/
  | beyondClock
  /-- The milliseconds of a duration do not fit into 32 bits. -/
  | beyondWait
deriving DecidableEq, Repr

/-- The words for a fault. -/
def Fault.message : Fault → String
  | .tooLarge => "int too large to convert to float"
  | .infinite => "cannot convert float infinity to integer"
  | .notANumber => "cannot convert float NaN to integer"
  | .beyondClock => "timestamp too large to convert to C _PyTime_t"
  | .beyondWait => "timeout is too large"

/-- The binary number nearest to a number. -/
def toFloat : Number → Except Fault Float
  | .float x => .ok x
  | .int n =>
      let x := nearest (n < 0) n.natAbs 1
      if (Parts.ofFloat x).truncate?.isSome then .ok x else .error .tooLarge

/-- The integer next to a binary number on the side of zero. -/
def truncate (x : Float) : Except Fault Int :=
  match Parts.ofFloat x with
  | .nan => .error .notANumber
  | .infinite _ => .error .infinite
  | parts => .ok (parts.truncate?.getD 0)

/-- The milliseconds from one reading of a clock in seconds to another, without
their fraction. -/
def durationMillis (started ended : Number) : Except Fault Int :=
  match started, ended with
  | .int a, .int b => .ok ((b - a) * 1000)
  | a, b => do
      let y ← b.toFloat
      let x ← a.toFloat
      truncate ((y - x) * 1000.0)

/-- The most milliseconds whose nanoseconds fit into 64 bits. -/
def longestTime : Int := 9223372036854

/-- The most milliseconds that fit into 32 bits. -/
def longestWait : Int := 2147483647

/-- What keeps the system from waiting for so many seconds, for output too or only for
the end of a process. -/
def waitFault? (seconds : Number) (output : Bool) : Option Fault :=
  match seconds.toFloat with
  | .error fault => some fault
  | .ok x =>
      if !output then none
      else
        let millis := x * 1000.0
        match truncate millis with
        | .error fault => some fault
        | .ok _ =>
            if (Number.float millis).compareInt? longestTime == some .gt then some .beyondClock
            else if (Number.float millis).compareInt? longestWait == some .gt then some .beyondWait
            else none

/-! ## Tests -/

example : waitFault? (.int 2147483) true = none := by decide +kernel
example : waitFault? (.int 2147484) true = some .beyondWait := by decide +kernel
example : waitFault? (.int 9223372037) true = some .beyondClock := by decide +kernel
example : waitFault? (.int 9223372037) false = none := by decide +kernel
example : (durationMillis (.int 10) (.float 9.5)).toOption = some (-500) := by decide
example : (durationMillis (.float 5.1) (.float 5.101)).toOption = some 1 := by decide
example : same (.int 0) (.float (-0.0)) = true := by decide +kernel

end Number
end Bindery
