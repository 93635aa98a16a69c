/-!
# The parts of a binary number

A binary number of 64 bits is a sign, a significand and an exponent, or an
infinity, or not a number.  `Parts.ofFloat` reads them off the bits, with all
exactness: `finite s m e` stands for `m * 2 ^ e` with the sign `s`.

The questions that need the exact value are answered on the parts: is the
number whole, what is it without its fraction, and how does it compare with an
integer of any size.
-/

namespace Bindery

/-- A binary number of 64 bits, taken apart. -/
inductive Parts where
  /-- The value `significand * 2 ^ exponent`, negated if `negative`. -/
  | finite (negative : Bool) (significand : Nat) (exponent : Int)
  /-- An infinity. -/
  | infinite (negative : Bool)
  /-- Not a number. -/
  | nan
deriving DecidableEq, Repr

namespace Parts

/-- The parts of a number.  The exponent field holds 0 for the numbers below the
least normal one and 2047 for those that are not finite. -/
def ofFloat (x : Float) : Parts :=
  let bits := x.toBits.toNat
  let negative := bits / Nat.pow 2 63 == 1
  let field : Nat := bits / Nat.pow 2 52 % 2048
  let fraction := bits % Nat.pow 2 52
  if field == 2047 then if fraction == 0 then .infinite negative else .nan
  else if field == 0 then .finite negative fraction (-1074)
  else .finite negative (Nat.pow 2 52 + fraction) ((field : Int) - 1075)

/-- A natural number with a sign. -/
def signed (negative : Bool) (n : Nat) : Int := if negative then -n else n

/-- The integer next to a number on the side of zero, if the number is finite. -/
def truncate? : Parts → Option Int
  | .finite negative m (.ofNat e) => some (signed negative (m * Nat.pow 2 e))
  | .finite negative m (.negSucc e) => some (signed negative (m / Nat.pow 2 (e + 1)))
  | _ => none

/-- The number is finite and has no fraction. -/
def isWhole : Parts → Bool
  | .finite _ _ (.ofNat _) => true
  | .finite _ m (.negSucc e) => m % Nat.pow 2 (e + 1) == 0
  | _ => false

/-- The order of a number and an integer.  What is not a number has none. -/
def compareInt? : Parts → Int → Option Ordering
  | .finite negative m (.ofNat e), n => some (compare (signed negative (m * Nat.pow 2 e)) n)
  | .finite negative m (.negSucc e), n => some (compare (signed negative m) (n * Nat.pow 2 (e + 1)))
  | .infinite negative, _ => some (if negative then .lt else .gt)
  | .nan, _ => none

end Parts
end Bindery
