/-!
# The nearest binary number

`nearest` rounds a ratio of natural numbers to a binary number of 64 bits, a
tie to the even significand.  It works on the exact ratio, so it is right for
decimals of any length.

The exponent is the one at which the ratio has 53 bits in front of its point,
but never below -1074, the exponent of the least numbers.  A significand that
rounds up to `2 ^ 53` needs no case of its own: in the bits it is the next
exponent with the significand `2 ^ 52`.  An exponent above 971 gives infinity.
-/

namespace Bindery

/-- The quotient rounded to the nearest integer, a tie to the even one. -/
def roundDiv (top bottom : Nat) : Nat :=
  let below := top / bottom
  let rest := 2 * (top % bottom)
  if rest < bottom || (rest == bottom && below % 2 == 0) then below else below + 1

/-- The exponent of the power of two just below a positive ratio. -/
def ratioLog (top bottom : Nat) : Int :=
  let guess : Int := (Nat.log2 top : Int) - (Nat.log2 bottom : Int)
  let reached : Bool :=
    match guess with
    | .ofNat e => bottom * Nat.pow 2 e ≤ top
    | .negSucc e => bottom ≤ top * Nat.pow 2 (e + 1)
  if reached then guess else guess - 1

/-- The bits of the number nearest to a positive ratio. -/
def nearestBits (top bottom : Nat) : Nat :=
  let exponent := max (ratioLog top bottom - 52) (-1074)
  let significand :=
    match exponent with
    | .ofNat e => roundDiv top (bottom * Nat.pow 2 e)
    | .negSucc e => roundDiv (top * Nat.pow 2 (e + 1)) bottom
  let infinity := 2047 * Nat.pow 2 52
  if 971 < exponent then infinity
  else min infinity ((exponent + 1074).toNat * Nat.pow 2 52 + significand)

/-- The binary number nearest to a ratio, negated if `negative`. -/
def nearest (negative : Bool) (top bottom : Nat) : Float :=
  let bits := if top == 0 || bottom == 0 then 0 else nearestBits top bottom
  Float.ofBits (UInt64.ofNat ((if negative then Nat.pow 2 63 else 0) + bits))

/-- The binary number nearest to `digits * 10 ^ exponent`.  Far outside the range
of the binary numbers the power of ten is not computed. -/
def nearestDecimal (negative : Bool) (digits : Nat) (exponent : Int) : Float :=
  let size := exponent + (Nat.log2 digits : Int) / 3
  if digits == 0 || size < -400 then nearest negative 0 1
  else if 400 < exponent then nearest negative (Nat.pow 2 1024) 1
  else
    match exponent with
    | .ofNat e => nearest negative (digits * Nat.pow 10 e) 1
    | .negSucc e => nearest negative digits (Nat.pow 10 (e + 1))

/-! ## Tests -/

example : nearestDecimal false 1 (-1) = 0.1 := by decide
example : nearestDecimal false 90071992547409930000000000000000001 (-19) = 9007199254740994 := by
  decide
example : nearestDecimal false 17976931348623159 292 = 1.0 / 0.0 := by decide +kernel
example : nearestDecimal true 5 (-324) = -5e-324 := by decide +kernel

end Bindery
