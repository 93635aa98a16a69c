import Bindery.Number.Parts

/-!
# The shortest decimal

A binary number is written with the fewest digits that read back as it.  Of
the decimals with so few digits the one nearest to the number is taken.

`Parts.decimal` finds them.  The reals that round to a number form an interval,
half way to its neighbours on both sides, with its ends included iff the
significand is even.  The search tries the grids of the multiples of `10 ^ k`,
coarsest first.  If a point of a grid lies in the interval, so does one of the
two points next to the number.  So the search tests these two, and the first
grid with a hit gives the fewest digits.

`Parts.render` writes the digits.  From `10 ^ -4` up to `10 ^ 16` the point
stands in its place, and a whole number ends in `.0`.  Beyond that the number
is written as one digit, the others as its fraction, and an exponent of at
least two digits.
-/

namespace Bindery

/-- A decimal `digits * 10 ^ exponent`. -/
structure Decimal where
  /-- All digits, as one number. -/
  digits : Nat
  /-- The power of ten of the last digit. -/
  exponent : Int
deriving DecidableEq, Repr

namespace Parts

/-! ## The search -/

/-- A ratio of natural numbers `top / bottom * base ^ exponent`, as a ratio. -/
def scale (top bottom base : Nat) : Int → Nat × Nat
  | .ofNat e => (top * Nat.pow base e, bottom)
  | .negSucc e => (top, bottom * Nat.pow base (e + 1))

/-- The interval of the reals that round to `m * 2 ^ e`, in quarters of
`2 ^ e`: the low end, the high end, and whether the ends belong to it.  Below
the least significand of an exponent the neighbours are twice as close. -/
def interval (m : Nat) (e : Int) : Nat × Nat × Bool :=
  (if m == Nat.pow 2 52 && e != -1074 then 4 * m - 1 else 4 * m - 2, 4 * m + 2, m % 2 == 0)

/-- The point of the grid of `10 ^ k` that lies in the interval of `m * 2 ^ e`,
the one nearer to it if two do, and the even one if they are equally near. -/
def gridPoint? (m : Nat) (e : Int) (k : Int) : Option Nat :=
  let (low, high, closed) := interval m e
  let (top, bottom) := scale 1 1 2 (e - 2)
  let (top, bottom) := scale top bottom 10 (-k)
  let inside (n : Nat) : Bool :=
    if closed then low * top ≤ n * bottom && n * bottom ≤ high * top
    else low * top < n * bottom && n * bottom < high * top
  let value := 4 * m * top
  let below := value / bottom
  let above := below + 1
  let gapBelow := value - below * bottom
  let gapAbove := above * bottom - value
  match inside below && below != 0, inside above with
  | true, true =>
      if gapBelow < gapAbove || (gapBelow == gapAbove && below % 2 == 0) then some below
      else some above
  | true, false => some below
  | false, true => some above
  | false, false => none

/-- The first hit on the grids `10 ^ k`, `10 ^ (k - 1)` and so on. -/
def search (m : Nat) (e : Int) : (fuel : Nat) → (k : Int) → Option Decimal
  | 0, _ => none
  | fuel + 1, k =>
      match gridPoint? m e k with
      | some n => some ⟨n, k⟩
      | none => search m e fuel (k - 1)

/-- The shortest decimal of `m * 2 ^ e`.  The first grid is coarser than the
number, since `30103 / 100000` is just above the logarithm of two, and seventeen
digits always suffice. -/
def decimal (m : Nat) (e : Int) : Decimal :=
  if m == 0 then ⟨0, 0⟩
  else
    let k := (Nat.log2 m + e + 1) * 30103 / 100000 + 1
    (search m e 24 k).getD ⟨m, 0⟩

/-! ## The text -/

/-- The text of a decimal that is not zero. -/
def renderDecimal (d : Decimal) : String :=
  let digits := (toString d.digits).toList
  let count := digits.length
  let point : Int := count + d.exponent
  if -4 < point && point ≤ 16 then
    match point with
    | .ofNat p =>
        if p == 0 then "0." ++ String.ofList digits
        else if count ≤ p then
          String.ofList (digits ++ List.replicate (p - count) '0') ++ ".0"
        else String.ofList (digits.take p) ++ "." ++ String.ofList (digits.drop p)
    | .negSucc p => "0." ++ String.ofList (List.replicate (p + 1) '0' ++ digits)
  else
    let exponent := point - 1
    let size := toString exponent.natAbs
    let tail := if count == 1 then "" else "." ++ String.ofList (digits.drop 1)
    String.ofList (digits.take 1) ++ tail ++ "e" ++ (if exponent < 0 then "-" else "+") ++
      (if size.length < 2 then "0" ++ size else size)

/-- The text of a number. -/
def render : Parts → String
  | .nan => "nan"
  | .infinite negative => if negative then "-inf" else "inf"
  | .finite negative m e =>
      (if negative then "-" else "") ++ if m == 0 then "0.0" else renderDecimal (decimal m e)

/-! ## Tests -/

example : (ofFloat 0.1).render = "0.1" := by decide +kernel
example : (ofFloat (0.1 + 0.2)).render = "0.30000000000000004" := by decide +kernel
example : (ofFloat 1e16).render = "1e+16" := by decide +kernel
example : (ofFloat 1e15).render = "1000000000000000.0" := by decide +kernel
example : (ofFloat 5e-324).render = "5e-324" := by decide +kernel

end Parts
end Bindery
