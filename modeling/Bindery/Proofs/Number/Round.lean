import Bindery.Proofs.Number.Bits
import Mathlib.Algebra.Order.Field.Power
import Mathlib.Algebra.Order.Field.Rat
import Mathlib.Tactic.FieldSimp
import Mathlib.Tactic.Linarith
import Mathlib.Tactic.NormNum

/-!
# What rounds to a binary number

The rationals that round to `m * 2 ^ e` lie half way to its neighbours, or nearer (`Rounds`).
Each of them is read as that number (`Rounds.nearest_eq`), also if it is given as a decimal
(`Rounds.nearestDecimal_eq`).

The exponent at which such a rational has 53 bits in front of its point is `e`, but for those
just below a power of two: there it is one less, and the rational rounds up to `2 ^ 53`, which is
the power of two at the next exponent.
-/

namespace Bindery

/-! ## The nearest integer -/

/-- The integer is a nearest one, and if there are two it is the even one. -/
structure IsNearest (q : ℚ) (n : Nat) : Prop where
  /-- It is at most one half above. -/
  low : 2 * n ≤ 2 * q + 1
  /-- It is at most one half below. -/
  high : 2 * q ≤ 2 * n + 1
  /-- One half away from the rational it is even. -/
  even : 2 * n = 2 * q + 1 ∨ 2 * q = 2 * n + 1 → n % 2 = 0

/-- The division with rounding, by the two integers next to the quotient. -/
theorem roundDiv_eq {top bottom n : Nat} (hbottom : 0 < bottom)
    (hlow : 2 * n * bottom ≤ 2 * top + bottom) (hhigh : 2 * top ≤ 2 * n * bottom + bottom)
    (heven : 2 * n * bottom = 2 * top + bottom ∨ 2 * top = 2 * n * bottom + bottom →
      n % 2 = 0) : roundDiv top bottom = n := by
  have hdiv := Nat.div_add_mod top bottom
  have hmod := Nat.mod_lt top hbottom
  rw [roundDiv]
  generalize top / bottom = below at hdiv
  generalize top % bottom = rest at hdiv hmod
  subst hdiv
  have hbelow : below ≤ n := by
    have : below * (2 * bottom) < (n + 1) * (2 * bottom) := by linarith
    exact Nat.le_of_lt_succ (Nat.lt_of_mul_lt_mul_right this)
  have habove : n ≤ below + 1 := by
    have : n * (2 * bottom) < (below + 2) * (2 * bottom) := by linarith
    exact Nat.le_of_lt_succ (Nat.lt_of_mul_lt_mul_right this)
  obtain rfl | rfl : n = below ∨ n = below + 1 := by omega
  · have hrest : 2 * rest ≤ bottom := by linarith
    have htie : 2 * rest = bottom → n % 2 = 0 := fun h => heven (.inr (by linarith))
    simp only [Bool.or_eq_true, decide_eq_true_eq, Bool.and_eq_true, beq_iff_eq]
    rw [if_pos (by omega)]
  · have hrest : bottom ≤ 2 * rest := by linarith
    have htie : 2 * rest = bottom → (below + 1) % 2 = 0 := fun h => heven (.inl (by linarith))
    simp only [Bool.or_eq_true, decide_eq_true_eq, Bool.and_eq_true, beq_iff_eq]
    rw [if_neg (by omega)]

/-- A quotient is rounded to the nearest integer. -/
theorem IsNearest.roundDiv_eq {top bottom n : Nat} (hbottom : 0 < bottom)
    (h : IsNearest (top / bottom : ℚ) n) : roundDiv top bottom = n := by
  have hpos : (0 : ℚ) < bottom := Nat.cast_pos.2 hbottom
  have hcancel : (top / bottom : ℚ) * bottom = top := div_mul_cancel₀ _ hpos.ne'
  refine Bindery.roundDiv_eq hbottom ?_ ?_ fun htie => h.even ?_
  · have hlow := mul_le_mul_of_nonneg_right h.low hpos.le
    rw [add_mul, mul_assoc 2 (_ / _), hcancel, one_mul] at hlow
    exact_mod_cast hlow
  · have hhigh := mul_le_mul_of_nonneg_right h.high hpos.le
    rw [add_mul, mul_assoc 2 (_ / _), hcancel, one_mul] at hhigh
    exact_mod_cast hhigh
  · rcases htie with htie | htie
    · refine .inl (mul_right_cancel₀ hpos.ne' ?_)
      rw [add_mul, mul_assoc 2 (_ / _), hcancel, one_mul]
      exact_mod_cast htie
    · refine .inr (mul_right_cancel₀ hpos.ne' ?_)
      rw [add_mul, mul_assoc 2 (_ / _), hcancel, one_mul]
      exact_mod_cast htie

/-! ## The exponent -/

/-- The comparison with a power of two, without fractions. -/
theorem reached_iff {top bottom : Nat} (hbottom : 0 < bottom) (guess : Int) :
    (match guess with
      | .ofNat e => decide (bottom * Nat.pow 2 e ≤ top)
      | .negSucc e => decide (bottom ≤ top * Nat.pow 2 (e + 1))) = true ↔
      (2 : ℚ) ^ guess ≤ top / bottom := by
  have hpos : (0 : ℚ) < bottom := Nat.cast_pos.2 hbottom
  cases guess with
  | ofNat e =>
      rw [decide_eq_true_eq, Int.ofNat_eq_natCast, zpow_natCast, le_div_iff₀ hpos, mul_comm]
      exact_mod_cast Iff.rfl
  | negSucc e =>
      have hpower : (0 : ℚ) < 2 ^ (e + 1) := by positivity
      rw [decide_eq_true_eq, zpow_negSucc, ← one_div, div_le_div_iff₀ hpower hpos, one_mul]
      exact_mod_cast Iff.rfl

/-- The logarithms of the two numbers leave a gap of two for that of their ratio. -/
theorem ratio_bounds {top bottom : Nat} (htop : 0 < top) (hbottom : 0 < bottom) :
    (2 : ℚ) ^ ((top.log2 : Int) - bottom.log2 - 1) < top / bottom ∧
      (top / bottom : ℚ) < 2 ^ ((top.log2 : Int) - bottom.log2 + 1) := by
  have hbounds (n : Nat) (hn : 0 < n) :
      (2 : ℚ) ^ (n.log2 : Int) ≤ n ∧ (n : ℚ) < 2 ^ ((n.log2 : Int) + 1) := by
    obtain ⟨hle, hlt⟩ := (Nat.log2_eq_iff hn.ne').1 (rfl : n.log2 = n.log2)
    exact ⟨by exact_mod_cast hle, by exact_mod_cast hlt⟩
  obtain ⟨htople, htoplt⟩ := hbounds top htop
  obtain ⟨hbottomle, hbottomlt⟩ := hbounds bottom hbottom
  have hpos : (0 : ℚ) < bottom := Nat.cast_pos.2 hbottom
  have hpow (i : Int) : (0 : ℚ) < 2 ^ i := zpow_pos two_pos i
  constructor
  · rw [lt_div_iff₀ hpos]
    calc (2 : ℚ) ^ ((top.log2 : Int) - bottom.log2 - 1) * bottom
        < 2 ^ ((top.log2 : Int) - bottom.log2 - 1) * 2 ^ ((bottom.log2 : Int) + 1) :=
          mul_lt_mul_of_pos_left hbottomlt (hpow _)
      _ = 2 ^ (top.log2 : Int) := by
          rw [← zpow_add₀ two_ne_zero]
          congr 1
          omega
      _ ≤ top := htople
  · rw [div_lt_iff₀ hpos]
    calc (top : ℚ) < 2 ^ ((top.log2 : Int) + 1) := htoplt
      _ = 2 ^ ((top.log2 : Int) - bottom.log2 + 1) * 2 ^ (bottom.log2 : Int) := by
          rw [← zpow_add₀ two_ne_zero]
          congr 1
          omega
      _ ≤ 2 ^ ((top.log2 : Int) - bottom.log2 + 1) * bottom :=
          mul_le_mul_of_nonneg_left hbottomle (hpow _).le

/-- The exponent of the power of two just below a ratio. -/
theorem ratioLog_spec {top bottom : Nat} (htop : 0 < top) (hbottom : 0 < bottom) :
    (2 : ℚ) ^ ratioLog top bottom ≤ top / bottom ∧
      (top / bottom : ℚ) < 2 ^ (ratioLog top bottom + 1) := by
  obtain ⟨hlow, hhigh⟩ := ratio_bounds htop hbottom
  have hreached := @reached_iff top _ hbottom ((top.log2 : Int) - bottom.log2)
  by_cases h : (2 : ℚ) ^ ((top.log2 : Int) - bottom.log2) ≤ top / bottom
  · have hlog : ratioLog top bottom = top.log2 - bottom.log2 := if_pos (hreached.2 h)
    rw [hlog]
    exact ⟨h, hhigh⟩
  · have hlog : ratioLog top bottom = top.log2 - bottom.log2 - 1 := if_neg (mt hreached.1 h)
    rw [hlog, sub_add_cancel]
    exact ⟨hlow.le, lt_of_not_ge h⟩

/-- Between two powers of two the exponent is that of the lower one. -/
theorem ratioLog_eq {top bottom : Nat} (htop : 0 < top) (hbottom : 0 < bottom) {i : Int}
    (hlow : (2 : ℚ) ^ i ≤ top / bottom) (hhigh : (top / bottom : ℚ) < 2 ^ (i + 1)) :
    ratioLog top bottom = i := by
  obtain ⟨hle, hlt⟩ := ratioLog_spec htop hbottom
  have hbelow := (zpow_lt_zpow_iff_right₀ one_lt_two).1 (hle.trans_lt hhigh)
  have habove := (zpow_lt_zpow_iff_right₀ one_lt_two).1 (hlow.trans_lt hlt)
  omega

/-! ## The significand -/

/-- The significand at an exponent is the nearest integer. -/
theorem significand_eq {top bottom n : Nat} (hbottom : 0 < bottom) (e : Int) :
    IsNearest (top / bottom / 2 ^ e) n →
      (match e with
        | .ofNat e => roundDiv top (bottom * Nat.pow 2 e)
        | .negSucc e => roundDiv (top * Nat.pow 2 (e + 1)) bottom) = n := by
  intro h
  cases e with
  | ofNat e =>
      refine IsNearest.roundDiv_eq (Nat.mul_pos hbottom (Nat.two_pow_pos e)) ?_
      rw [Int.ofNat_eq_natCast, zpow_natCast, div_div] at h
      exact_mod_cast h
  | negSucc e =>
      refine IsNearest.roundDiv_eq hbottom ?_
      rw [zpow_negSucc, div_inv_eq_mul, div_mul_eq_mul_div] at h
      exact_mod_cast h

/-- The bits of a ratio are those of its exponent and the nearest significand. -/
theorem IsNearest.nearestBits_eq {top bottom n : Nat} {e : Int} (hbottom : 0 < bottom)
    (he : max (ratioLog top bottom - 52) (-1074) = e) (hmost : e ≤ 971) (hn : n ≤ 2 ^ 53)
    (h : IsNearest (top / bottom / 2 ^ e) n) :
    nearestBits top bottom = (e + 1074).toNat * 2 ^ 52 + n := by
  have hsmall : (e + 1074).toNat * 2 ^ 52 + n ≤ 2047 * 2 ^ 52 := by omega
  unfold nearestBits
  simp only [he]
  rw [if_neg (not_lt.2 hmost)]
  exact (congrArg (fun s => min (2047 * 2 ^ 52) ((e + 1074).toNat * 2 ^ 52 + s))
    (significand_eq hbottom e h)).trans (min_eq_right hsmall)

/-! ## What rounds to a number -/

/-- The rational is in the interval of those that round to `m * 2 ^ e`. -/
structure Rounds (m : Nat) (e : Int) (q : ℚ) : Prop where
  /-- The significand is the nearest one. -/
  isNearest : IsNearest (q / 2 ^ e) m
  /-- Below the least significand of an exponent the neighbours are twice as close. -/
  narrow : m = 2 ^ 52 → e ≠ -1074 → 4 * m ≤ 4 * (q / 2 ^ e) + 1

namespace Rounds

variable {m : Nat} {e : Int} {q : ℚ}

/-- What rounds to a number is below the next power of two. -/
theorem lt_zpow (h : Rounds m e q) (hc : Parts.IsCanonical m e) : q < 2 ^ (e + 53) := by
  have hpow : (0 : ℚ) < 2 ^ e := zpow_pos two_pos e
  have hshort : (m + 1 : ℚ) ≤ 2 ^ 53 := by exact_mod_cast hc.short
  have hhigh := h.isNearest.high
  have hbelow : q / 2 ^ e < 2 ^ (53 : Int) := by
    rw [show (2 : ℚ) ^ (53 : Int) = 2 ^ 53 by norm_cast]
    linarith
  rwa [div_lt_iff₀ hpow, ← zpow_add₀ two_ne_zero, add_comm] at hbelow

/-- Below the power of two of its exponent a rational rounds to that power. -/
theorem top_of_lt (h : Rounds m e q) (hc : Parts.IsCanonical m e) (he : e ≠ -1074)
    (hq : q < 2 ^ (e + 52)) : m = 2 ^ 52 := by
  have hpow : (0 : ℚ) < 2 ^ e := zpow_pos two_pos e
  have hbelow : q / 2 ^ e < 2 ^ 52 := by
    rw [div_lt_iff₀ hpow, ← zpow_natCast, ← zpow_add₀ two_ne_zero, add_comm]
    exact hq
  have hlow := h.isNearest.low
  have hnormal : 2 ^ 52 ≤ m := hc.normal.resolve_right he
  have hm : (m : ℚ) < 2 ^ 52 + 1 := by linarith
  have hlt : m < 2 ^ 52 + 1 := by exact_mod_cast hm
  omega

/-- Just below a power of two the exponent is one less, and the significand is rounded up to
twice the least one. -/
theorem isNearest_below (h : Rounds (2 ^ 52) e q) (he : e ≠ -1074) (hq : q < 2 ^ (e + 52)) :
    2 ^ (e + 51) ≤ q ∧ IsNearest (q / 2 ^ (e - 1)) (2 ^ 53) := by
  have hpow : (0 : ℚ) < 2 ^ e := zpow_pos two_pos e
  have hnarrow := h.narrow rfl he
  have hbelow : q / 2 ^ e < 2 ^ 52 := by
    rw [div_lt_iff₀ hpow, ← zpow_natCast, ← zpow_add₀ two_ne_zero, add_comm]
    exact hq
  have hhalf : q / 2 ^ (e - 1) = 2 * (q / 2 ^ e) := by
    rw [zpow_sub_one₀ two_ne_zero]
    field_simp
  push_cast at hnarrow
  constructor
  · rw [add_comm, zpow_add₀ two_ne_zero, ← le_div_iff₀ hpow]
    norm_num at hnarrow ⊢
    linarith
  · rw [hhalf]
    push_cast
    refine ⟨by linarith, by linarith, fun _ => by norm_num⟩

/-- A ratio has the bits of the number that it rounds to. -/
theorem nearestBits_eq {top bottom : Nat} (htop : 0 < top) (hbottom : 0 < bottom)
    (hc : Parts.IsCanonical m e) (h : Rounds m e (top / bottom)) :
    nearestBits top bottom = (e + 1074).toNat * 2 ^ 52 + m := by
  obtain ⟨hle, -⟩ := ratioLog_spec htop hbottom
  have hhigh := h.lt_zpow hc
  have hlog := (zpow_lt_zpow_iff_right₀ one_lt_two).1 (hle.trans_lt hhigh)
  have hleast := hc.least
  by_cases he : e = -1074
  · exact h.isNearest.nearestBits_eq hbottom (by omega) hc.most hc.short.le
  · by_cases hq : (top / bottom : ℚ) < 2 ^ (e + 52)
    · -- the ratio has one bit less in front of its point, and rounds up to the next power
      obtain rfl := h.top_of_lt hc he hq
      obtain ⟨hlow, hnearest⟩ := h.isNearest_below he hq
      have hlog' := ratioLog_eq htop hbottom hlow (by rwa [add_assoc])
      have hmost := hc.most
      rw [hnearest.nearestBits_eq hbottom (by omega) (by omega) le_rfl]
      omega
    · have hlog' := ratioLog_eq htop hbottom (not_lt.1 hq) (by rwa [add_assoc])
      exact h.isNearest.nearestBits_eq hbottom (by omega) hc.most hc.short.le

/-- A ratio is read as the number that it rounds to. -/
theorem nearest_eq {top bottom : Nat} (htop : 0 < top) (hbottom : 0 < bottom)
    (h : Rounds m e (top / bottom)) (hc : Parts.IsCanonical m e) (negative : Bool) :
    nearest negative top bottom = Float.ofBits (UInt64.ofNat (Parts.bitsOf negative m e)) := by
  have hne : (top == 0 || bottom == 0) = false := by
    simp [htop.ne', hbottom.ne']
  rw [nearest, hne, nearestBits_eq htop hbottom hc h]
  rfl

/-! ## Decimals -/

/-- What rounds to a positive number is not below the half of the least one. -/
theorem zpow_le (h : Rounds m e q) (hm : 0 < m) : 2 ^ (e - 1) ≤ q := by
  have hpow : (0 : ℚ) < 2 ^ e := zpow_pos two_pos e
  have hone : (1 : ℚ) ≤ m := by exact_mod_cast hm
  have hlow := h.isNearest.low
  have hhalf : 1 / 2 ≤ q / 2 ^ e := by linarith
  rw [le_div_iff₀ hpow] at hhalf
  rwa [zpow_sub_one₀ two_ne_zero, mul_comm, ← one_div]

end Rounds

/-- Three bits make less than a decimal digit. -/
theorem two_zpow_le (n : Nat) : (2 : ℚ) ^ (3 * (n : Int)) ≤ 10 ^ (n : Int) := by
  rw [zpow_mul, zpow_natCast, zpow_natCast]
  exact pow_le_pow_left₀ (by norm_num) (by norm_num) n

theorem lt_ten_zpow (n : Nat) : (n : ℚ) < 10 ^ ((n.log2 / 3 + 1 : Nat) : Int) := by
  have hlog : n < 2 ^ (n.log2 + 1) := Nat.lt_log2_self
  calc (n : ℚ) < 2 ^ ((n.log2 + 1 : Nat) : Int) := by exact_mod_cast hlog
    _ ≤ 2 ^ (3 * ((n.log2 / 3 + 1 : Nat) : Int)) := zpow_le_zpow_right₀ one_le_two (by omega)
    _ ≤ 10 ^ ((n.log2 / 3 + 1 : Nat) : Int) := two_zpow_le _

section

variable {m digits : Nat} {e k : Int}

/-- A decimal that rounds to a positive number is not too small to be read. -/
theorem Rounds.le_size (h : Rounds m e (digits * 10 ^ k)) (hc : Parts.IsCanonical m e)
    (hm : 0 < m) : -400 ≤ k + (digits.log2 : Int) / 3 := by
  by_contra hsize
  have hleast := hc.least
  have hlt : (digits * 10 ^ k : ℚ) < 2 ^ (e - 1) :=
    calc (digits * 10 ^ k : ℚ) < 10 ^ ((digits.log2 / 3 + 1 : Nat) : Int) * 10 ^ k :=
          mul_lt_mul_of_pos_right (lt_ten_zpow digits) (zpow_pos (by norm_num) k)
      _ = 10 ^ (((digits.log2 / 3 + 1 : Nat) : Int) + k) := (zpow_add₀ (by norm_num) _ _).symm
      _ ≤ 10 ^ (-((400 : Nat) : Int)) := zpow_le_zpow_right₀ (by norm_num) (by omega)
      _ ≤ 2 ^ (-(3 * ((400 : Nat) : Int))) := by
        rw [zpow_neg, zpow_neg]
        exact inv_anti₀ (zpow_pos two_pos _) (two_zpow_le 400)
      _ ≤ 2 ^ (e - 1) := zpow_le_zpow_right₀ one_le_two (by omega)
  exact absurd (h.zpow_le hm) (not_le.2 hlt)

/-- A decimal that rounds to a finite number is not too large to be read. -/
theorem Rounds.exponent_le (h : Rounds m e (digits * 10 ^ k)) (hc : Parts.IsCanonical m e)
    (hdigits : 0 < digits) : k ≤ 400 := by
  by_contra hlarge
  have hmost := hc.most
  have hone : (1 : ℚ) ≤ digits := by exact_mod_cast hdigits
  have hle : (2 : ℚ) ^ (e + 53) ≤ digits * 10 ^ k :=
    calc (2 : ℚ) ^ (e + 53) ≤ 2 ^ (3 * ((400 : Nat) : Int)) :=
          zpow_le_zpow_right₀ one_le_two (by omega)
      _ ≤ 10 ^ ((400 : Nat) : Int) := two_zpow_le 400
      _ ≤ 10 ^ k := zpow_le_zpow_right₀ (by norm_num) (by omega)
      _ ≤ digits * 10 ^ k := le_mul_of_one_le_left (zpow_pos (by norm_num) k).le hone
  exact absurd (h.lt_zpow hc) (not_lt.2 hle)

/-- A decimal is read as the number that it rounds to. -/
theorem Rounds.nearestDecimal_eq (h : Rounds m e (digits * 10 ^ k)) (hc : Parts.IsCanonical m e)
    (hm : 0 < m) (hdigits : 0 < digits) (negative : Bool) : nearestDecimal negative digits k =
      Float.ofBits (UInt64.ofNat (Parts.bitsOf negative m e)) := by
  have hsize := h.le_size hc hm
  have hlarge := h.exponent_le hc hdigits
  unfold nearestDecimal
  dsimp only
  rw [if_neg (by simp [hdigits.ne', hsize]), if_neg (not_lt.2 hlarge)]
  cases k with
  | ofNat k =>
      have htop : 0 < digits * 10 ^ k := Nat.mul_pos hdigits (Nat.pow_pos (by decide))
      rw [Int.ofNat_eq_natCast, zpow_natCast] at h
      refine Rounds.nearest_eq htop one_pos ?_ hc negative
      simpa using h
  | negSucc k =>
      have hbottom : 0 < 10 ^ (k + 1) := Nat.pow_pos (by decide)
      rw [zpow_negSucc, ← div_eq_mul_inv] at h
      refine Rounds.nearest_eq hdigits hbottom ?_ hc negative
      exact_mod_cast h

/-- A zero is read whatever its exponent is. -/
theorem nearestDecimal_zero (negative : Bool) (k : Int) : nearestDecimal negative 0 k =
    Float.ofBits (UInt64.ofNat (Parts.bitsOf negative 0 (-1074))) := rfl

end

end Bindery
