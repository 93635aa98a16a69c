import Bindery.Number.Basic
import Mathlib.Algebra.Group.Nat.Defs

/-!
# The parts of a finite binary number

The bits of a finite number are its sign, its exponent and its significand side by side
(`Parts.bitsOf`).  The significand is that of a normal number, or the exponent is the least one
(`Parts.IsCanonical`).
-/

namespace Bindery.Parts

/-- A significand and an exponent of a finite number: those of a normal number, or the exponent
is the least one. -/
structure IsCanonical (m : Nat) (e : Int) : Prop where
  /-- There is no lower exponent. -/
  least : -1074 ≤ e
  /-- There is no higher exponent. -/
  most : e ≤ 971
  /-- The significand has at most 53 bits. -/
  short : m < 2 ^ 53
  /-- It has all of them unless the exponent is the least one. -/
  normal : 2 ^ 52 ≤ m ∨ e = -1074

/-- The bits of a significand and an exponent.  That of the leading bit is where the lowest bit
of the exponent is, so the two are added. -/
def bitsOf (negative : Bool) (m : Nat) (e : Int) : Nat :=
  (if negative then 2 ^ 63 else 0) + ((e + 1074).toNat * 2 ^ 52 + m)

/-- The parts of a finite number, and its bits. -/
theorem isCanonical_of_ofFloat {x : Float} {negative : Bool} {m : Nat} {e : Int}
    (h : ofFloat x = .finite negative m e) :
    IsCanonical m e ∧ x.toBits.toNat = bitsOf negative m e := by
  have hbits : x.toBits.toNat < 2 ^ 64 := x.toBits.toNat_lt
  unfold ofFloat at h
  simp only [Nat.pow_eq, beq_iff_eq] at h
  generalize x.toBits.toNat = bits at h hbits
  have hsign : (if (bits / 2 ^ 63 == 1) = true then 2 ^ 63 else 0) = bits / 2 ^ 63 * 2 ^ 63 := by
    simp only [beq_iff_eq]
    split <;> omega
  rw [bitsOf]
  split at h
  · split at h <;> cases h
  · next hfull =>
      split at h
      · next hempty =>
          cases h
          rw [hsign]
          exact ⟨⟨by omega, by omega, by omega, .inr rfl⟩, by omega⟩
      · next hempty =>
          cases h
          rw [hsign]
          exact ⟨⟨by omega, by omega, by omega, .inl (by omega)⟩, by omega⟩

end Bindery.Parts
